import Portcall.Egress.Classify

/-! The `egress` probe: one attempt per endpoint, and the finding it becomes. -/
namespace Portcall.Egress

def tlsPort : ℕ := 443

def tlsProtocols : List String := ["SSLv3", "TLSv1", "TLSv1.1", "TLSv1.2", "TLSv1.3"]

/-- Total time over the phases that were reached. -/
def totalMs (timing : AttemptTiming) : ℕ :=
  timing.dnsMs.getD 0 + timing.connectMs.getD 0 + timing.tlsMs.getD 0 + timing.httpMs.getD 0

section Findings
variable (endpoint : Endpoint)

def whereEvidence : List Evidence :=
  [⟨"endpoint", endpoint.host, .hostname⟩, ⟨"port", toString endpoint.port, .number⟩]

def statusEvidence (status : Option ℕ) : List Evidence :=
  (status.map fun status => Evidence.mk "status" (toString status) .number).toList

def httpError (status : Option ℕ) : Finding where
  id := "egress.http-error"
  probe := "egress"
  severity := cap .blocker endpoint.required
  title := "The HTTP response came from something other than the origin"
  evidence := whereEvidence endpoint ++ statusEvidence status
  remediation := some (
    "This status is what a proxy or filtering appliance returns when it answers on the " ++
    "origin's behalf, so the connection reached the intermediary and stopped there. Ask the " ++
    "proxy team which policy matched this endpoint, and re-run once it is allowed. The proxy " ++
    "probe (M2) names the intermediary directly.")

def succeeded (tlsProtocol : Option String) (status : Option ℕ) (timing : AttemptTiming) :
    Finding :=
  if status.any (fun status => classifyStatus status = .http) then httpError endpoint status
  else
    { id := "egress.reachable"
      probe := "egress"
      severity := .ok
      title := "The endpoint is reachable on its declared port"
      evidence := whereEvidence endpoint ++ statusEvidence status ++
        ((tlsProtocol.filter (· ∈ tlsProtocols)).map fun protocol =>
          Evidence.mk "TLS protocol" protocol .text).toList ++
        [⟨"elapsed (ms)", toString (totalMs timing), .number⟩] }

def aborted : Finding where
  id := "egress.aborted"
  probe := "egress"
  severity := .unknown
  title := "The run ended before this endpoint was checked"
  evidence := whereEvidence endpoint
  remediation := some (
    "The global run budget expired before this endpoint got an answer, so nothing here is a " ++
    "verdict about the network. Re-run with a larger `--timeout`.")

/-- Who owns a timeout, by the phase the watchdog fired in. -/
def timeoutRemediation : AttemptPhase → String
  | .dns =>
    "The name lookup ran out of time before any packet was sent to this endpoint, so this is " ++
    "the resolver rather than the firewall. Ask the DNS team whether the resolver this " ++
    "machine uses serves this zone, and check whether a split-tunnel VPN is sending the query " ++
    "to one that never answers."
  | .connect =>
    "Silence rather than a refusal is the signature of a firewall dropping the packet. " ++
    "Request an outbound rule for this host and port, and cite the elapsed time above so the " ++
    "network team can match it against their own drop logs."
  | .tls =>
    "The connection opened and the TLS handshake then stalled part way, which a dropped " ++
    "packet cannot do - something in the path is holding the session open while it decides. " ++
    "That is what an inline inspection appliance looks like, so ask whoever owns TLS " ++
    "inspection here to check this destination."
  | .http =>
    "The connection and the handshake both completed and the response headers never arrived, " ++
    "so the request reached the endpoint or an intermediary in front of it and stopped there. " ++
    "This is not a blocked port: take the elapsed time above to whoever runs that service."

def failed (attempt : FailedAttempt) : Finding :=
  let code := attempt.code.getD noCode
  match classifyFailed attempt with
  | .dns =>
    { id := "egress.dns-failure"
      probe := "egress"
      severity := cap .blocker endpoint.required
      title := "The endpoint hostname does not resolve from this machine"
      evidence := whereEvidence endpoint ++ [⟨"code", code, .text⟩]
      remediation := some (
        "Name resolution has to be fixed before anything else here means much. Ask the team " ++
        "that runs DNS or Active Directory whether this zone is served on this network, and " ++
        "check whether a split-tunnel VPN is sending the query to the wrong resolver.") }
  | .refused =>
    { id := "egress.connect-refused"
      probe := "egress"
      severity := cap .blocker endpoint.required
      title := "The connection to the endpoint was refused"
      evidence := whereEvidence endpoint ++ [⟨"code", code, .text⟩]
      remediation := some (
        "Something on the path answered \"no\" rather than dropping the packet, which is what " ++
        "a firewall rule or a closed port looks like. Request an outbound rule for this host " ++
        "and port from the network security team, quoting the endpoint in the evidence above.") }
  | .unreachable =>
    { id := "egress.connect-unreachable"
      probe := "egress"
      severity := cap .blocker endpoint.required
      title := "There is no route from this network to the endpoint"
      evidence := whereEvidence endpoint ++ [⟨"code", code, .text⟩]
      remediation := some (
        "The packet had nowhere to go: this is routing or NAT, not a policy decision about " ++
        "the destination. Take it to the network team with the endpoint and code above, and " ++
        "check whether this machine is expected to reach the internet through a gateway at " ++
        "all.") }
  | .timeout =>
    { id := "egress.connect-timeout"
      probe := "egress"
      severity := cap .blocker endpoint.required
      title := "The attempt to reach the endpoint timed out with no answer at all"
      evidence := whereEvidence endpoint ++
        [⟨"phase", attempt.phase.text, .text⟩,
          ⟨"elapsed (ms)", toString (totalMs attempt.timing), .number⟩]
      remediation := some (timeoutRemediation attempt.phase) }
  | .reset =>
    { id := "egress.connection-reset"
      probe := "egress"
      severity := cap .blocker endpoint.required
      title := "The connection to the endpoint was reset mid-flight"
      evidence := whereEvidence endpoint ++ [⟨"phase", attempt.phase.text, .text⟩]
      remediation := some (
        "A connection that opens and is then torn down is almost always an inline appliance - " ++
        "a next-generation firewall, a DLP box or a TLS-inspecting proxy - deciding it does " ++
        "not like this traffic. Ask whoever owns that appliance which rule fired at the phase " ++
        "above.") }
  | .tls =>
    { id := "egress.tls-failure"
      probe := "egress"
      severity := cap .blocker endpoint.required
      title := "The TLS handshake with the endpoint failed"
      evidence := whereEvidence endpoint ++ [⟨"code", code, .text⟩]
      remediation := some (
        "The connection reached the endpoint and the handshake failed, which usually means " ++
        "TLS interception with a corporate root this machine does not trust, or a truststore " ++
        "that is missing the root entirely. The tls and truststore probes (M3/M4) name the " ++
        "root presented; until then, ask whether TLS inspection is enabled for this " ++
        "destination.") }
  | .http => httpError endpoint attempt.status
  | .ok | .unclassified =>
    { id := "egress.unclassified"
      probe := "egress"
      severity := .unknown
      title := "The connection failed in a way portcall does not recognise"
      evidence := whereEvidence endpoint ++ [⟨"code", code, .text⟩]
      remediation := some (
        "Portcall has no mapping for this failure, and guessing would send you to the wrong " ++
        "team. Send this report to the tool vendor: the code above plus the phase it happened " ++
        "in is enough for them to add the case.") }

/-- The finding of one attempt; whose clock ended it is asked before the classifier is. -/
def judge : EndpointAttempt → Finding
  | .ok _ tlsProtocol status timing => succeeded endpoint tlsProtocol status timing
  | .failed attempt =>
    if attempt.abortedBy = some .runSignal then aborted endpoint else failed endpoint attempt

end Findings

def targetOf (endpoint : Endpoint) : EndpointTarget :=
  ⟨endpoint.host, endpoint.port, endpoint.port = tlsPort⟩

def runEgress (profile : Profile) (prober : EndpointProber) : List Finding :=
  profile.endpoints.map fun endpoint => judge endpoint (prober (targetOf endpoint))

end Portcall.Egress
