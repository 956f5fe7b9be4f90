import Portcall.Environment
import Portcall.Library.InsertionMap
import Portcall.Tls.Evaluate

/-! The `tls` probe: the captures it asks for, what a capture that never happened becomes, and
the anchors it leaves for the cross-check. -/
namespace Portcall.Tls

def tlsPort : ℕ := 443

structure TlsTarget where
  host : String
  port : ℕ
  required : Bool
  deriving DecidableEq, Repr

/-- The proxy the environment names, if any. -/
def discoverEnvProxy (ext : Externals) (env : Environment) : Option HostPort :=
  ((readEnvVar ext env "HTTPS_PROXY").orElse fun _ => readEnvVar ext env "HTTP_PROXY").bind
    (parseProxyUrl ext)

/-- One capture per distinct host and port; the strictest `required` wins. -/
def tlsTargets (endpoints : List Endpoint) : List TlsTarget :=
  (InsertionMap.group (fun endpoint : Endpoint => endpoint.host ++ ":" ++ toString endpoint.port)
    (fun endpoint => TlsTarget.mk endpoint.host endpoint.port endpoint.required)
    (fun existing endpoint => { existing with required := existing.required || endpoint.required })
    (endpoints.filter (fun endpoint => endpoint.port = tlsPort))).values

section Failures
variable (target : TlsTarget) (path : Via) (proxy : Option HostPort)

/-- Where the capture was aimed; the proxy is named on the proxied path. -/
def whereEvidence : List Evidence :=
  [⟨"host", target.host, .hostname⟩, ⟨"port", toString target.port, .number⟩,
    ⟨"connection", path.text, .text⟩] ++
    match path, proxy with
    | .proxy, some proxy => [⟨"proxy", proxy.host, .hostname⟩]
    | _, _ => []

structure CaptureVerdict where
  id : String
  title : String
  remediation : String
  deriving DecidableEq, Repr

/-- What a capture that never produced a chain means, by the phase it died in. -/
def captureVerdict (phase : TlsCapturePhase) (path : Via) : CaptureVerdict :=
  match phase, path with
  | .dns, .proxy =>
    { id := "tls.capture-failed-dns"
      title := "The proxy name did not resolve, so no certificate chain could be captured"
      remediation :=
        "Nothing in this report says anything about TLS for this endpoint: the proxy's own name " ++
        "never resolved, so no handshake was attempted and the endpoint was never reached. The " ++
        "name that failed is the proxy's, named on the evidence above, and not this endpoint's - " ++
        "which is also why the dns probe is silent about it, because that probe resolves the " ++
        "names the profile declares and the profile never named this proxy. This is a DNS ticket " ++
        "rather than a certificate one, and the team that runs DNS or Active Directory owns it. " ++
        "Re-run once the proxy's name resolves." }
  | .dns, .direct =>
    { id := "tls.capture-failed-dns"
      title := "The endpoint name did not resolve, so no certificate chain could be captured"
      remediation :=
        "Nothing in this report says anything about TLS for this endpoint: the name never " ++
        "resolved, so no handshake was attempted. This is a DNS ticket rather than a certificate " ++
        "one - the dns probe reports the same failure for this host - and the team that runs DNS " ++
        "or Active Directory owns it. Re-run once the name resolves." }
  | .connect, .proxy =>
    { id := "tls.capture-failed-connect"
      title := "The connection never opened, so no certificate chain could be captured"
      remediation :=
        "The TCP connection to the endpoint (or to the proxy in front of it) never opened, so " ++
        "there was no handshake to observe and this is not a verdict about certificates. What did " ++
        "not open on this path is the connection to the proxy, named on the evidence above, and " ++
        "not the one to this endpoint's port - which is why the egress probe is silent about it, " ++
        "because that probe dials the endpoints the profile declares and the profile never named " ++
        "this proxy. Take it to the network team as a route to the proxy, and re-run this check " ++
        "once the proxy's port is reachable." }
  | .connect, .direct =>
    { id := "tls.capture-failed-connect"
      title := "The connection never opened, so no certificate chain could be captured"
      remediation :=
        "The TCP connection to the endpoint (or to the proxy in front of it) never opened, so " ++
        "there was no handshake to observe and this is not a verdict about certificates. The " ++
        "egress probe reports the same failure with the layer that stopped it; take that to the " ++
        "network team, and re-run this check once the port is reachable." }
  | .tunnel, _ =>
    { id := "tls.capture-failed-tunnel"
      title := "The proxy answered the CONNECT itself instead of opening a tunnel"
      remediation :=
        "The proxy replied to the tunnel request rather than forwarding it, so no chain was " ++
        "captured through the proxied path. Portcall never authenticates - it reports the " ++
        "challenge a proxy makes and stops there (SPEC.md §4) - so an HTTP_407 code above means " ++
        "the tunnel wants credentials this tool will not supply, and an HTTP_403 means policy " ++
        "declined it. Take the code to the proxy team; the proxy probe names the authentication " ++
        "scheme demanded, and this check reports the chain once a tunnel opens." }
  | .tls, _ =>
    { id := "tls.capture-failed-tls"
      title := "The handshake failed before any certificate was presented"
      remediation :=
        "The connection opened and the handshake died before the peer sent a chain, so there is " ++
        "nothing to judge - portcall deliberately accepts any certificate at this point, so this " ++
        "is not a trust failure. A handshake that is torn down rather than completed is what an " ++
        "inline inspection appliance looks like; ask whoever owns TLS inspection here to check " ++
        "this destination, quoting the code above." }

/-- Who owns a capture that ran out of time, by the phase the watchdog fired in. -/
def timeoutRemediation (phase : TlsCapturePhase) (path : Via) : String :=
  match phase, path with
  | .dns, .proxy =>
    "The name lookup ran out of time before any packet reached the proxy, so no handshake was " ++
    "attempted and this is not a verdict about certificates. The name that never resolved is " ++
    "the proxy's, named on the evidence above, and not this endpoint's - on a proxied path " ++
    "this machine looks up the proxy and the proxy looks up the endpoint. A resolver that " ++
    "never answers is a DNS ticket rather than a firewall one: ask the DNS team whether the " ++
    "resolver this machine uses serves the proxy's zone, and whether a split-tunnel VPN is " ++
    "sending the query somewhere that will not."
  | .dns, .direct =>
    "The name lookup ran out of time before any packet reached this endpoint, so no handshake " ++
    "was attempted and this is not a verdict about certificates. A resolver that never " ++
    "answers is a DNS ticket rather than a firewall one: ask the DNS team whether the " ++
    "resolver this machine uses serves this zone, and whether a split-tunnel VPN is sending " ++
    "the query somewhere that will not."
  | .connect, .proxy =>
    "The connection never opened and nothing refused it, and silence rather than a refusal is " ++
    "the signature of a firewall dropping the packet. What never answered is the proxy, named " ++
    "on the evidence above, and not this endpoint - on a proxied path this machine connects " ++
    "only to the proxy, and the endpoint's own port is dialled from there. There was no " ++
    "handshake to observe, so this is not a verdict about certificates - ask the network team " ++
    "for an outbound rule to the proxy rather than to this host and port, and re-run once the " ++
    "proxy answers."
  | .connect, .direct =>
    "The connection never opened and nothing refused it, and silence rather than a refusal is " ++
    "the signature of a firewall dropping the packet. There was no handshake to observe, so " ++
    "this is not a verdict about certificates - request an outbound rule for this host and " ++
    "port from the network team, and re-run once the port answers."
  | .tunnel, _ =>
    "The proxy accepted the TCP connection and then never answered the CONNECT at all. That " ++
    "is not `tls.capture-failed-tunnel`, where the proxy replies and the reply is the answer: " ++
    "here there was no reply to read, so there is no status code to quote and nothing was " ++
    "learned about certificates. Ask the proxy team what becomes of a tunnel request for this " ++
    "destination."
  | .tls, _ =>
    "The connection opened and the handshake then stalled part way, which a dropped packet " ++
    "cannot do - something in the path is holding the session open while it decides. No " ++
    "certificate arrived, so this is not a trust failure; it is what an inline inspection " ++
    "appliance looks like. Ask whoever owns TLS inspection here to check this destination."

def timedOut (phase : TlsCapturePhase) : Finding where
  id := "tls.capture-failed-timeout"
  probe := "tls"
  severity := .unknown
  title := "The attempt to capture a certificate chain timed out with no answer at all"
  evidence := whereEvidence target path proxy ++ [⟨"phase", phase.text, .text⟩]
  remediation := some (timeoutRemediation phase path)

def aborted : Finding where
  id := "tls.aborted"
  probe := "tls"
  severity := .unknown
  title := "The run ended before this certificate chain was captured"
  evidence := whereEvidence target path proxy
  remediation := some (
    "The global run budget expired before the handshake finished, so this is not a verdict " ++
    "about the network or about the certificate this endpoint presents. Re-run with a larger " ++
    "`--timeout`.")

/-- A failed capture; whose clock ended it is asked before the phase is read. -/
def captureFailed (outcome : FailedCapture) : Finding :=
  match outcome.abortedBy with
  | some .runSignal => aborted target path proxy
  | some .phaseTimeout => timedOut target path proxy outcome.phase
  | none =>
    let verdict := captureVerdict outcome.phase path
    { id := verdict.id
      probe := "tls"
      severity := .unknown
      title := verdict.title
      evidence := whereEvidence target path proxy ++
        [⟨"code", outcome.code.getD noCode, .text⟩]
      remediation := some verdict.remediation }

end Failures

/-- The capture seam: what a target answers, directly or through a proxy. -/
abbrev TlsCapture := HostPort → Option HostPort → TlsChainOutcome

/-- A chain as it was captured over one path. -/
def TlsChain.captured (chain : TlsChain) (path : Via) : CapturedChain where
  chainDer := chain.chainDer
  negotiatedProtocol := chain.negotiatedProtocol
  negotiatedCipher := chain.negotiatedCipher
  requestedSni := chain.requestedSni
  via := path

/-- What one captured outcome adds: its findings, its chain and its anchor. -/
structure PathResult where
  findings : List Finding
  chain : Option CapturedChain
  anchor : Option ObservedAnchor

def checkPath (ext : Externals) (target : TlsTarget) (policy : TlsPolicy)
    (proxy : Option HostPort) (options : ChainEvaluationOptions) (path : Via)
    (outcome : TlsChainOutcome) : Throwing PathResult :=
  match outcome with
  | .failed failed => some ⟨[captureFailed target path proxy failed], none, none⟩
  | .ok chain => do
    let capture := TlsChain.captured chain path
    let evaluation ← evaluateChain ext capture ⟨target.host, target.required⟩ policy options
    return ⟨evaluation.findings, some capture, evaluation.anchor⟩

/-- The two captures of one target, evaluated and compared. The anchors are what this target
pushes onto the run's observations, in order. -/
def checkTarget (ext : Externals) (capturer : TlsCapture) (policy : TlsPolicy)
    (proxy : Option HostPort) (options : ChainEvaluationOptions) (target : TlsTarget) :
    Throwing (List Finding × List ObservedAnchor) := do
  let dialled : HostPort := ⟨target.host, target.port⟩
  let direct ← checkPath ext target policy proxy options .direct (capturer dialled none)
  let viaProxy ← proxy.mapM fun via =>
    checkPath ext target policy proxy options .proxy (capturer dialled (some via))
  let proxied := viaProxy.getD ⟨[], none, none⟩
  return (direct.findings ++ proxied.findings ++
      compareChains ext direct.chain proxied.chain target.host,
    direct.anchor.toList ++ proxied.anchor.toList)

/-- The findings, and the anchors each target pushed. Targets are captured concurrently, so the
run's observations are these anchors in some order. -/
def runTls (ext : Externals) (profile : Profile) (publicRootPems : List String)
    (capturer : TlsCapture) (env : Environment) (now : ℤ) :
    Throwing (List Finding × List ObservedAnchor) :=
  let targets := tlsTargets profile.endpoints
  if targets.isEmpty then some ([], [])
  else do
    let roots ← certificateIndex ext publicRootPems
    let proxy := discoverEnvProxy ext env
    let results ← targets.mapM (checkTarget ext capturer profile.tls proxy ⟨roots, now⟩)
    return (results.flatMap Prod.fst, results.flatMap Prod.snd)

end Portcall.Tls
