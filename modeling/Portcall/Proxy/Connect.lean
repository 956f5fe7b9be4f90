import Portcall.Egress.Classify
import Portcall.Library.InsertionMap
import Portcall.Proxy.Auth

/-! CONNECT probing: one attempt for each route, the outcomes clustered into findings. -/
namespace Portcall.Proxy

inductive ProxyConnectClass where
  | established
  | authRequired
  | rejected
  | dns
  | refused
  | unreachable
  | timeout
  | reset
  | unclassified
  deriving DecidableEq, Repr

/-- A measured class, or nothing because the run ended first. -/
inductive RouteVerdict where
  | measured (verdict : ProxyConnectClass)
  | aborted
  deriving DecidableEq, Repr

def RouteVerdict.text : RouteVerdict → String
  | .measured .established => "established"
  | .measured .authRequired => "auth-required"
  | .measured .rejected => "rejected"
  | .measured .dns => "dns"
  | .measured .refused => "refused"
  | .measured .unreachable => "unreachable"
  | .measured .timeout => "timeout"
  | .measured .reset => "reset"
  | .measured .unclassified => "unclassified"
  | .aborted => "aborted"

/-- One proxy and destination to ask for a tunnel. -/
structure ProxyRoute where
  proxy : HostPort
  target : HostPort
  required : Bool
  deriving DecidableEq, Repr

/-- Every route through one proxy that had the same outcome. -/
structure ProxyCluster where
  proxy : HostPort
  targets : List HostPort
  required : Bool
  verdict : RouteVerdict
  code : String
  scheme : AuthScheme
  deriving DecidableEq, Repr

structure RouteOutcome where
  route : ProxyRoute
  verdict : RouteVerdict
  code : String
  scheme : AuthScheme
  deriving DecidableEq, Repr

def targetOf (endpoint : Endpoint) : HostPort := ⟨endpoint.host, endpoint.port⟩

/-- Case-insensitive `host:port` identity. -/
def targetKey (ext : Externals) (target : HostPort) : String :=
  ext.toLowerCase target.host ++ ":" ++ toString target.port

/-- The routes of these endpoints, each destination once for each proxy; the strictest `required`
wins. -/
def addRoutes (ext : Externals) (pairs : List (HostPort × Endpoint)) : List ProxyRoute :=
  (InsertionMap.group
    (fun pair : HostPort × Endpoint =>
      targetKey ext pair.1 ++ "|" ++ targetKey ext (targetOf pair.2))
    (fun pair => ProxyRoute.mk pair.1 (targetOf pair.2) pair.2.required)
    (fun existing pair => { existing with required := existing.required || pair.2.required })
    pairs).values

/-- The class of an attempt: pre-tunnel phases are read by the egress table. -/
def classifyConnect : ProxyConnectAttempt → ProxyConnectClass
  | .ok .. => .established
  | .failed attempt =>
    match attempt.phase with
    | .tunnel => if attempt.status = some 407 then .authRequired else .rejected
    | .attempt phase =>
      match Egress.classifyAttempt (.failed
          { phase
            code := attempt.code
            abortedBy := attempt.abortedBy
            status := attempt.status
            timing := attempt.timing }) with
      | .dns => .dns
      | .refused => .refused
      | .unreachable => .unreachable
      | .timeout => .timeout
      | .reset => .reset
      | .ok | .tls | .http | .unclassified => .unclassified

/-- What one route's attempt says; whose clock ended it is asked before the classifier is. -/
def probeRoute (connect : ProxyConnect) (route : ProxyRoute) : RouteOutcome :=
  let detail := connect route.proxy route.target
  if detail.attempt.endedByRun then ⟨route, .aborted, noCode, .none⟩
  else
    let verdict := classifyConnect detail.attempt
    { route
      verdict := .measured verdict
      code := detail.attempt.code.getD noCode
      scheme :=
        if verdict = .authRequired then classifyAuthScheme detail.proxyAuthenticate else .none }

def clusterKey (ext : Externals) (outcome : RouteOutcome) : String :=
  Text.join "|" [targetKey ext outcome.route.proxy, outcome.verdict.text, outcome.code,
    outcome.scheme.text]

/-- One cluster for each distinct proxy, verdict, code and scheme. -/
def cluster (ext : Externals) (outcomes : List RouteOutcome) : List ProxyCluster :=
  (InsertionMap.group (clusterKey ext)
    (fun outcome =>
      { proxy := outcome.route.proxy
        targets := [outcome.route.target]
        required := outcome.route.required
        verdict := outcome.verdict
        code := outcome.code
        scheme := outcome.scheme })
    (fun existing outcome =>
      { existing with
        targets := existing.targets ++ [outcome.route.target]
        required := existing.required || outcome.route.required })
    outcomes).values

/-- The proxy, then every destination this cluster measured. -/
def proxyEvidence (cluster : ProxyCluster) : List Evidence :=
  [⟨"proxy", cluster.proxy.host, .hostname⟩,
    ⟨"proxy port", toString cluster.proxy.port, .number⟩] ++
  cluster.targets.flatMap fun target =>
    [⟨"endpoint", target.host, .hostname⟩, ⟨"port", toString target.port, .number⟩]

def connectVerdictFinding (cluster : ProxyCluster) : Finding :=
  let evidence := proxyEvidence cluster
  match cluster.verdict with
  | .measured .established =>
    { id := "proxy.reachable"
      probe := "proxy"
      severity := .ok
      title := "The discovered proxy accepts a CONNECT tunnel to these destinations"
      evidence }
  | .measured .authRequired =>
    { id := "proxy.auth-required"
      probe := "proxy"
      severity := cap .degraded cluster.required
      title := "The proxy demands authentication before it will tunnel this traffic"
      evidence := evidence ++ [⟨"auth scheme", cluster.scheme.text, .text⟩]
      remediation := some (
        "Portcall never authenticates to a proxy (SPEC.md 4), so this only names the " ++
        "challenge above. Configure the credential for that scheme in the tool being " ++
        "deployed, or ask whoever administers the proxy whether an unauthenticated path " ++
        "exists for automation.") }
  | .measured .rejected =>
    { id := "proxy.connect-rejected"
      probe := "proxy"
      severity := cap .blocker cluster.required
      title := "The proxy refused to tunnel a connection to these destinations"
      evidence := evidence ++ [⟨"code", cluster.code, .text⟩]
      remediation := some (
        "The proxy answered the CONNECT request itself rather than tunnelling it, which is a " ++
        "policy decision, not a network fault. Ask whoever administers the proxy which rule " ++
        "matched these destinations and request an allowlist entry for them.") }
  | .measured .dns =>
    { id := "proxy.connect-dns-failure"
      probe := "proxy"
      severity := cap .blocker cluster.required
      title := "The proxy hostname does not resolve from this machine"
      evidence := evidence ++ [⟨"code", cluster.code, .text⟩]
      remediation := some (
        "Name resolution for the proxy itself has to work before anything routed through it " ++
        "can. Ask the team that runs DNS whether this proxy name is served on this network, " ++
        "and check for a stale PAC/WPAD entry or a split-tunnel VPN sending the query to the " ++
        "wrong resolver.") }
  | .measured .refused =>
    { id := "proxy.connect-refused"
      probe := "proxy"
      severity := cap .blocker cluster.required
      title := "The connection to the proxy was refused"
      evidence := evidence ++ [⟨"code", cluster.code, .text⟩]
      remediation := some (
        "Something answered \"no\" rather than dropping the packet, which is what a firewall " ++
        "rule or a proxy that is not actually listening looks like. Confirm the proxy host " ++
        "and port with whoever administers it, and request an outbound rule if one is missing.") }
  | .measured .unreachable =>
    { id := "proxy.connect-unreachable"
      probe := "proxy"
      severity := cap .blocker cluster.required
      title := "There is no route from this network to the proxy"
      evidence := evidence ++ [⟨"code", cluster.code, .text⟩]
      remediation := some (
        "The packet had nowhere to go: this is routing or NAT, not a policy decision about " ++
        "the proxy. Take it to the network team with the proxy host and code above.") }
  | .measured .timeout =>
    { id := "proxy.connect-timeout"
      probe := "proxy"
      severity := cap .blocker cluster.required
      title := "The attempt to reach the proxy timed out with no answer at all"
      evidence := evidence
      remediation := some (
        "Silence rather than a refusal usually means a dropped packet somewhere on the path " ++
        "to the proxy. Ask the network team to check for a firewall rule dropping this " ++
        "destination, and confirm the proxy host and port are current.") }
  | .measured .reset =>
    { id := "proxy.connect-reset"
      probe := "proxy"
      severity := cap .blocker cluster.required
      title := "The connection to the proxy was reset mid-flight"
      evidence := evidence
      remediation := some (
        "A connection that opens and is then torn down is usually an inline appliance " ++
        "deciding it does not like this traffic. Ask whoever owns the network path to the " ++
        "proxy which rule fired.") }
  | .measured .unclassified =>
    { id := "proxy.connect-unclassified"
      probe := "proxy"
      severity := .unknown
      title := "The proxy connection failed in a way portcall does not recognise"
      evidence := evidence ++ [⟨"code", cluster.code, .text⟩]
      remediation := some (
        "Portcall has no mapping for this failure, and guessing would send you to the wrong " ++
        "team. Send this report to the tool vendor: the code above is enough for them to add " ++
        "the case.") }
  | .aborted =>
    { id := "proxy.aborted"
      probe := "proxy"
      severity := .unknown
      title := "The run ended before this proxy was checked"
      evidence := evidence
      remediation := some (
        "The global run budget expired before the proxy CONNECT attempt got an answer, so " ++
        "nothing here is a verdict about the proxy. Re-run with a larger --timeout.") }

def probeRoutes (ext : Externals) (connect : ProxyConnect) (routes : List ProxyRoute) :
    List Finding :=
  (cluster ext (routes.map (probeRoute connect))).map connectVerdictFinding

end Portcall.Proxy
