import Portcall.Dns.Analyse
import Portcall.Library.InsertionMap
import Portcall.Seams

/-! The `dns` probe: one lookup per distinct host, one reachability check per declared DoH
resolver. -/
namespace Portcall.Dns

inductive ResolveFailure where
  | nameNotFound
  | noAddressRecords
  | resolverTimeout
  | resolverRefused
  | unclassified
  deriving DecidableEq, Repr

def ResolveFailure.text : ResolveFailure → String
  | .nameNotFound => "name-not-found"
  | .noAddressRecords => "no-address-records"
  | .resolverTimeout => "resolver-timeout"
  | .resolverRefused => "resolver-refused"
  | .unclassified => "unclassified"

inductive DohOutcome where
  | reachable
  | blockedDnsFailed
  | blockedDnsTimeout
  | blockedConnectRefused
  | blockedConnectTimeout
  | blockedTlsFailed
  | indeterminateDeadline
  deriving DecidableEq, Repr

def DohOutcome.text : DohOutcome → String
  | .reachable => "reachable"
  | .blockedDnsFailed => "blocked-dns-failed"
  | .blockedDnsTimeout => "blocked-dns-timeout"
  | .blockedConnectRefused => "blocked-connect-refused"
  | .blockedConnectTimeout => "blocked-connect-timeout"
  | .blockedTlsFailed => "blocked-tls-failed"
  | .indeterminateDeadline => "indeterminate-deadline"

def nameNotFoundCodes : List String := ["ENOTFOUND", "NXDOMAIN"]
def noRecordCodes : List String := ["ENODATA", "EAI_NODATA"]
def timeoutCodes : List String := ["ETIMEOUT", "ETIMEDOUT", "EAI_AGAIN"]
def refusedCodes : List String := ["SERVFAIL", "REFUSED"]

structure ProfileHost where
  host : String
  required : Bool
  deriving DecidableEq, Repr

/-- One lookup per distinct host; the strictest `required` wins. -/
def distinctHosts (endpoints : List Endpoint) : List ProfileHost :=
  (InsertionMap.group Endpoint.host (fun endpoint => ProfileHost.mk endpoint.host endpoint.required)
    (fun existing endpoint => { existing with required := existing.required || endpoint.required })
    endpoints).values

def isSlowResolution (elapsedMs : ℕ) : Bool := slowResolutionMs ≤ elapsedMs

def host (name : String) : Evidence := ⟨"host", name, .hostname⟩

def addressEvidence (addresses : List String) : List Evidence :=
  addresses.map fun address => ⟨"address", address, .ip⟩

section Findings
variable (target : ProfileHost)

def resolveFailed (failure : ResolveFailure) (code : Option String) : Finding where
  id := "dns.resolve-failed"
  probe := "dns"
  severity := cap .blocker target.required
  title := "The host does not resolve from this machine"
  evidence := [host target.host, ⟨"failure", failure.text, .text⟩,
    ⟨"code", code.getD noCode, .text⟩]
  remediation := some (
    "Nothing else about this endpoint can be trusted until the name resolves. Ask the team " ++
    "that runs DNS or Active Directory whether this zone is served on this network, and check " ++
    "whether a split-tunnel VPN is sending the query to a resolver that does not know it.")

def sinkholed (address : String) : Finding where
  id := "dns.sinkholed"
  probe := "dns"
  severity := cap .blocker target.required
  title := "The resolver returns a block address for this host"
  evidence := [host target.host, ⟨"address", address, .ip⟩]
  remediation := some (
    "This is a deliberate block, not a network fault: the resolver is handing out an address " ++
    "that goes nowhere, so no connection will ever be made. Request an allowlist entry for " ++
    "this fully qualified name from whoever runs DNS filtering.")

def splitHorizon (addresses : List String) : Finding where
  id := "dns.split-horizon"
  probe := "dns"
  severity := .degraded
  title := "The host resolves to an internal address"
  evidence := host target.host :: addressEvidence addresses ++ [⟨"address class", "private", .text⟩]
  remediation := some (
    "An internal answer is often correct - a corporate VIP or a mirror in front of the real " ++
    "service - but it is also how a transparent proxy inserts itself. Confirm with the team " ++
    "that owns this zone that the internal address terminates the same service; if it does " ++
    "not, ask them to serve the public answer here.")

def slowResolution (elapsedMs : ℕ) : Finding where
  id := "dns.slow-resolution"
  probe := "dns"
  severity := .degraded
  title := "Resolving this host is slow enough for a user to notice"
  evidence := [host target.host, ⟨"elapsed (ms)", toString elapsedMs, .number⟩]
  remediation := some (
    "Ask the DNS team to look at resolver latency for this zone - a dead forwarder that has " ++
    "to time out before the next one is tried is the usual cause. Any tool that re-resolves " ++
    "per request will feel broken to users long before anything actually fails.")

def aborted (name : String) : Finding where
  id := "dns.aborted"
  probe := "dns"
  severity := .unknown
  title := "The run ended before this host was resolved"
  evidence := [host name]
  remediation := some (
    "The global run budget expired before the resolver answered, so this is not a verdict " ++
    "about DNS. Re-run with a larger `--timeout`.")

def classifyResolveFailure (outcome : FailedLookup) : ResolveFailure :=
  if outcome.code.any (· ∈ nameNotFoundCodes) then .nameNotFound
  else if outcome.code.any (· ∈ noRecordCodes) then .noAddressRecords
  else if outcome.code.any (· ∈ timeoutCodes) then .resolverTimeout
  else if outcome.code.any (· ∈ refusedCodes) then .resolverRefused
  else if outcome.abortedBy = some .phaseTimeout then .resolverTimeout
  else .unclassified

/-- The finding of one lookup; whose clock ended it is asked before its code is. -/
def verdict : DnsOutcome → Finding
  | .failed outcome =>
    if outcome.abortedBy = some .runSignal then aborted target.host
    else resolveFailed target (classifyResolveFailure outcome) outcome.code
  | .ok addresses elapsedMs =>
    if addresses.isEmpty then resolveFailed target .noAddressRecords none
    else match addresses.find? fun address => classifyAddress address = .sinkhole with
      | some address => sinkholed target address
      | none =>
        if addresses.any fun address => classifyAddress address = .private then
          splitHorizon target addresses
        else
          { id := "dns.resolved"
            probe := "dns"
            severity := .ok
            title := "The host resolves to a public address"
            evidence := host target.host :: addressEvidence addresses ++
              [⟨"elapsed (ms)", toString elapsedMs, .number⟩] }

/-- What one lookup adds to the report; how long a successful one took is judged apart. -/
def checkHost (outcome : DnsOutcome) : List Finding :=
  verdict target outcome ::
    match outcome with
    | .ok _ elapsedMs =>
      if isSlowResolution elapsedMs then [slowResolution target elapsedMs] else []
    | .failed _ => []

end Findings

/-- The verdict of a DoH check is reached at the TLS boundary. -/
def evaluateDoh : EndpointAttempt → DohOutcome
  | .ok .. => .reachable
  | .failed attempt =>
    if attempt.abortedBy = some .runSignal then .indeterminateDeadline
    else match attempt.phase with
      | .dns =>
        if attempt.abortedBy = some .phaseTimeout then .blockedDnsTimeout else .blockedDnsFailed
      | .connect =>
        if attempt.abortedBy = some .phaseTimeout then .blockedConnectTimeout
        else .blockedConnectRefused
      | .tls => .blockedTlsFailed
      | .http => .reachable

structure DohVerdict where
  id : String
  severity : Severity
  title : String
  remediation : Option String
  deriving DecidableEq, Repr

def blocked (layer : String) : DohVerdict where
  id := "dns.doh-blocked"
  severity := .degraded
  title := "The declared DoH resolver's HTTPS endpoint is blocked at the " ++ layer ++ " layer"
  remediation := some (
    "This network blocks the declared DNS-over-HTTPS resolver at the " ++ layer ++ " layer, " ++
    "which is normal corporate policy rather than a fault. Configure the tool to use the system " ++
    "resolver instead of its built-in DoH resolver, or - if DoH is genuinely required - ask the " ++
    "network team to allow TCP 443 to the resolver named in the evidence above. The tool still " ++
    "resolves names through the system resolver either way.")

def dohVerdict : DohOutcome → DohVerdict
  | .reachable =>
    { id := "dns.doh-reachable"
      severity := .ok
      title := "The declared DoH resolver's HTTPS endpoint is reachable"
      remediation := none }
  | .blockedDnsFailed | .blockedDnsTimeout => blocked "DNS"
  | .blockedConnectRefused | .blockedConnectTimeout => blocked "connect"
  | .blockedTlsFailed => blocked "TLS"
  | .indeterminateDeadline =>
    { id := "dns.doh-indeterminate"
      severity := .unknown
      title := "The declared DoH resolver's HTTPS endpoint check did not finish"
      remediation := some (
        "The run's global timeout expired before this check finished, so it is not a verdict " ++
        "either way. Re-run with a larger `--timeout` before concluding anything about " ++
        "DNS-over-HTTPS on this network.") }

def attemptTiming : EndpointAttempt → AttemptTiming
  | .ok _ _ _ timing => timing
  | .failed attempt => attempt.timing

def dohFinding (resolverHost : String) (attempt : EndpointAttempt) : Finding :=
  let outcome := evaluateDoh attempt
  let verdict := dohVerdict outcome
  { id := verdict.id
    probe := "dns"
    severity := verdict.severity
    title := verdict.title
    evidence :=
      [⟨"resolver", resolverHost, .hostname⟩, ⟨"outcome", outcome.text, .text⟩] ++
      if outcome = .reachable then
        ((attemptTiming attempt).tlsMs.map fun tlsMs =>
          Evidence.mk "TLS handshake (ms)" (toString tlsMs) .number).toList
      else []
    remediation := verdict.remediation }

def dohPort : ℕ := 443

def runDns (profile : Profile) (resolver : DnsResolver) (prober : EndpointProber) :
    List Finding :=
  ((distinctHosts profile.endpoints).flatMap fun target =>
      checkHost target (resolver target.host)) ++
    profile.dohResolvers.map fun resolverHost =>
      dohFinding resolverHost (prober ⟨resolverHost, dohPort, true⟩)

end Portcall.Dns
