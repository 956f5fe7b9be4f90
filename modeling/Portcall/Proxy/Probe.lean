import Portcall.Environment
import Portcall.Proxy.Connect
import Portcall.Proxy.NoProxy
import Portcall.Proxy.Pac

/-! The `proxy` probe: which proxy is in effect for each endpoint, by the configured PAC script,
the environment, WPAD or none of them, and whether that proxy opens a tunnel. -/
namespace Portcall.Proxy

def wpadUrl : String := "http://wpad/wpad.dat"

section Findings

def pacFetchFailedFinding (url : String) (outcome : FailedFetch) : Finding where
  id := "proxy.pac-fetch-failed"
  probe := "proxy"
  severity := .degraded
  title := "The profile's configured PAC script could not be fetched"
  evidence := [⟨"pac url", url, .url⟩, ⟨"phase", outcome.phase.text, .text⟩,
    ⟨"code", outcome.code.getD noCode, .text⟩]
  remediation := some (
    "The PAC script named in the profile's `proxy.pac_url` did not load, so this run cannot " ++
    "know which endpoints route through a proxy. Ask whoever manages PAC/WPAD on this network " ++
    "to confirm the URL above is reachable and serves the script over HTTP(S).")

/-- A verdict that names no route. -/
inductive InconclusiveKind where
  | unresolved
  | error
  deriving DecidableEq, Repr

def InconclusiveKind.text : InconclusiveKind → String
  | .unresolved => "unresolved"
  | .error => "error"

def pacInconclusiveFinding (endpoint : Endpoint) (kind : InconclusiveKind) : Finding where
  id := "proxy.pac-inconclusive"
  probe := "proxy"
  severity := .unknown
  title := "The PAC script did not return a usable route for this endpoint"
  evidence := [⟨"endpoint", endpoint.host, .hostname⟩, ⟨"pac verdict", kind.text, .text⟩]
  remediation := some (
    "The PAC script ran but did not answer `DIRECT` or `PROXY host:port` for this host, so " ++
    "whether it goes through a proxy is unknown. Ask whoever owns the PAC script to check its " ++
    "handling of this hostname.")

def pacDirectFinding (endpoint : Endpoint) : Finding where
  id := "proxy.pac-direct"
  probe := "proxy"
  severity := .ok
  title := "The PAC script routes this endpoint directly, without a proxy"
  evidence := [⟨"endpoint", endpoint.host, .hostname⟩]

def noProxyBypassFinding (endpoint : Endpoint) : Finding where
  id := "proxy.no-proxy-bypass"
  probe := "proxy"
  severity := .ok
  title := "NO_PROXY exempts this endpoint from the configured proxy"
  evidence := [⟨"endpoint", endpoint.host, .hostname⟩, ⟨"port", toString endpoint.port, .number⟩]

def wpadUnusableFinding (outcome : FailedFetch) : Finding where
  id := "proxy.wpad-unusable"
  probe := "proxy"
  severity := .unknown
  title := "A WPAD server answered but this run got no usable PAC script from it"
  evidence := [⟨"wpad url", wpadUrl, .public⟩, ⟨"phase", outcome.phase.text, .text⟩,
    ⟨"code", outcome.code.getD noCode, .text⟩]
  remediation := some (
    "The `wpad` name resolves on this network and something answered on it, but not with a " ++
    "PAC script this run could use (the phase and code above say where it stopped), so " ++
    "portcall cannot tell which endpoints route through a proxy. Ask whoever manages WPAD " ++
    "here whether that server is still meant to serve one; if it is not, retiring the `wpad` " ++
    "DNS record stops every client on this network waiting on it.")

def noneConfiguredFinding : Finding where
  id := "proxy.none-configured"
  probe := "proxy"
  severity := .ok
  title := "No proxy is configured for this network"
  evidence := []

def noProxyIssueDescription : NoProxyEntryIssue → String
  | .empty => "is empty (an extra comma, most likely)"
  | .containsScheme => "includes a URL scheme (`http://`), which NO_PROXY entries must not carry"
  | .containsPortWithWildcard =>
    "combines a leading wildcard with a port, which no HTTP client parses consistently"
  | .invalidHostname => "is not a valid hostname, domain suffix or CIDR block"
  | .wildcardNotLeading =>
    "has a `*` outside the leading position, which most HTTP clients do not special-case"
  | .ok => "parses correctly"

def noProxySyntaxFinding (entry : NoProxyEntry) : Finding where
  id := "proxy.no-proxy-syntax"
  probe := "proxy"
  severity := .degraded
  title := "A NO_PROXY entry does not parse"
  evidence := [⟨"entry", entry.raw, .hostname⟩, ⟨"issue", entry.issue.text, .text⟩]
  remediation := some (
    "This NO_PROXY entry " ++ noProxyIssueDescription entry.issue ++ ". Fix it in the " ++
    "environment configuration that sets NO_PROXY on this machine; portcall reads it but never " ++
    "edits it.")

end Findings

/-- What one run of the probe meets: the environment, the seams, and this machine's address and
clock. -/
structure ProxyContext where
  env : Environment
  resolver : DnsResolver
  fetcher : PacFetcher
  connect : ProxyConnect
  sandbox : PacCall → PacVerdict
  myAddress : String
  /-- The clock when the script is asked about an endpoint. -/
  now : Endpoint → ℤ

variable (ext : Externals) (context : ProxyContext)

section Pac

/-- One lookup of an endpoint's host, as a script may use it. -/
def resolveForPac (host : String) : Option ResolvedTarget :=
  match context.resolver host with
  | .failed _ => none
  | .ok addresses _ => if addresses.isEmpty then none else some ⟨host, addresses⟩

/-- What a script says about one endpoint. -/
def pacVerdict (scriptText : String) (endpoint : Endpoint) : PacVerdict :=
  context.sandbox
    { url := (if endpoint.port = 443 then "https" else "http") ++ "://" ++ endpoint.host ++ "/"
      host := endpoint.host
      scriptText
      resolvedTarget := resolveForPac context endpoint.host
      myAddress := context.myAddress
      now := context.now endpoint }

structure PacEvalResult where
  directFindings : List Finding
  inconclusiveFindings : List Finding
  routes : List ProxyRoute

def directFinding? (endpoint : Endpoint) : PacVerdict → Option Finding
  | .direct => some (pacDirectFinding endpoint)
  | _ => none

def inconclusiveFinding? (endpoint : Endpoint) : PacVerdict → Option Finding
  | .unresolved => some (pacInconclusiveFinding endpoint .unresolved)
  | .error => some (pacInconclusiveFinding endpoint .error)
  | _ => none

def proxyPair? (endpoint : Endpoint) : PacVerdict → Option (HostPort × Endpoint)
  | .proxy via => some (via, endpoint)
  | _ => none

def evaluatePacPerEndpoint (scriptText : String) (endpoints : List Endpoint) : PacEvalResult :=
  let verdict := pacVerdict context scriptText
  { directFindings := endpoints.filterMap fun endpoint => directFinding? endpoint (verdict endpoint)
    inconclusiveFindings :=
      endpoints.filterMap fun endpoint => inconclusiveFinding? endpoint (verdict endpoint)
    routes :=
      addRoutes ext (endpoints.filterMap fun endpoint => proxyPair? endpoint (verdict endpoint)) }

end Pac

section Env

def envProxyConfigured : Bool :=
  (readEnvVar ext context.env "HTTPS_PROXY").isSome ||
    (readEnvVar ext context.env "HTTP_PROXY").isSome

/-- The proxy the environment names for an endpoint: the variable of its scheme, or the other. -/
def envProxyFor (endpoint : Endpoint) : Option HostPort :=
  let primaryName := if endpoint.port = 443 then "HTTPS_PROXY" else "HTTP_PROXY"
  let fallbackName := if endpoint.port = 443 then "HTTP_PROXY" else "HTTPS_PROXY"
  ((readEnvVar ext context.env primaryName).orElse fun _ =>
    readEnvVar ext context.env fallbackName).bind (parseProxyUrl ext)

def envRoutes (endpoints : List Endpoint) : List ProxyRoute :=
  addRoutes ext (endpoints.filterMap fun endpoint =>
    (envProxyFor ext context endpoint).map fun proxy => (proxy, endpoint))

end Env

section Run
variable (profile : Profile)

def noProxyEntries : List NoProxyEntry :=
  match readEnvVar ext context.env "NO_PROXY" with
  | none => []
  | some raw => validateNoProxy ext raw (profile.endpoints.map targetOf)

def syntaxFindings : List Finding :=
  ((noProxyEntries ext context profile).filter fun entry => entry.issue ≠ .ok).map
    noProxySyntaxFinding

/-- An endpoint some valid `NO_PROXY` entry exempts; it goes direct on every leg. -/
def isBypassed (endpoint : Endpoint) : Bool :=
  ((((noProxyEntries ext context profile).filter fun entry => entry.issue = .ok).flatMap
    NoProxyEntry.matchedTargets).map (targetKey ext)).contains (targetKey ext (targetOf endpoint))

def bypassedEndpoints : List Endpoint := profile.endpoints.filter (isBypassed ext context profile)

def routedEndpoints : List Endpoint :=
  profile.endpoints.filter fun endpoint => !isBypassed ext context profile endpoint

/-- The findings of a leg that obtained a script. -/
def pacLegFindings (scriptText : String) : List Finding :=
  let evaluated := evaluatePacPerEndpoint ext context scriptText
    (routedEndpoints ext context profile)
  (bypassedEndpoints ext context profile).map noProxyBypassFinding ++
    evaluated.directFindings ++ evaluated.inconclusiveFindings ++
    probeRoutes ext context.connect evaluated.routes

def envLegFindings : List Finding :=
  (bypassedEndpoints ext context profile).map noProxyBypassFinding ++
    probeRoutes ext context.connect (envRoutes ext context (routedEndpoints ext context profile))

/-- Where the routes of a run come from: a script, the environment, or nowhere. -/
inductive DiscoveryLeg where
  | pacFetchFailed (url : String) (outcome : FailedFetch)
  | script (scriptText : String)
  | env
  | wpadFailed (outcome : FailedFetch)
  deriving DecidableEq, Repr

/-- The leg in effect: the configured script beats the environment, which beats WPAD. -/
def discoveryLeg : DiscoveryLeg :=
  match profile.pacUrl with
  | some url =>
    match context.fetcher url with
    | .failed outcome => .pacFetchFailed url outcome
    | .ok script _ => .script script
  | none =>
    if envProxyConfigured ext context then .env
    else match context.fetcher wpadUrl with
      | .ok script _ => .script script
      | .failed outcome => .wpadFailed outcome

def legFindings : DiscoveryLeg → List Finding
  | .pacFetchFailed url outcome => [pacFetchFailedFinding url outcome]
  | .script scriptText => pacLegFindings ext context profile scriptText
  | .env => envLegFindings ext context profile
  | .wpadFailed outcome =>
    if outcome.phase = .dns then [noneConfiguredFinding] else [wpadUnusableFinding outcome]

def runProxy : List Finding :=
  if profile.endpoints.isEmpty then []
  else syntaxFindings ext context profile ++
    legFindings ext context profile (discoveryLeg ext context profile)

end Run
end Portcall.Proxy
