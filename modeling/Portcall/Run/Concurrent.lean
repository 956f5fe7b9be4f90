import Portcall.Engine.Run
import Portcall.Net.PacFetch
import Portcall.Net.TlsCapture
import Portcall.Run.Derivation

/-! The network probes as they run: the lookups, attempts and captures of one probe side by side,
one probe after the other, all against one guard and one clock. -/
namespace Portcall.Concurrent
open Threads Net

/-- What a run finds on the machine it runs on. -/
structure Machine where
  env : Environment
  myAddress : String
  publicRootPems : List String

variable (ext : NetExternals)

section Dns

def dnsTimeoutMs : ℕ := 5000

def dohOptions : AttemptOptions := ⟨5000, 5000, 10000⟩

def checkHost (target : Dns.ProfileHost) : NetM (List Finding) := do
  let outcome ← resolveWithin ext dnsTimeoutMs target.host
  return Dns.checkHost target outcome

def checkDoh (resolverHost : String) : NetM Finding := do
  let attempt ← attempt ext dohOptions ⟨resolverHost, Dns.dohPort, true⟩
  return Dns.dohFinding resolverHost attempt

def runDns (profile : Profile) : NetM (List Finding) := do
  let (hostFindings, dohFindings) ← Throws.both
    (Throws.concurrently (checkHost ext) (Dns.distinctHosts profile.endpoints))
    (Throws.concurrently (checkDoh ext) profile.dohResolvers)
  return hostFindings.flatten ++ dohFindings

end Dns

section Egress

def egressOptions : AttemptOptions := ⟨5000, 5000, 10000⟩

def reach (endpoint : Endpoint) : NetM Finding := do
  let attempt ← attempt ext egressOptions (Egress.targetOf endpoint)
  return Egress.judge endpoint attempt

def runEgress (profile : Profile) : NetM (List Finding) :=
  Throws.concurrently (reach ext) profile.endpoints

end Egress

section Proxy

def pacResolveTimeoutMs : ℕ := 5000

def proxyOptions : AttemptOptions := ⟨5000, 5000, 10000⟩

variable (machine : Machine) (profile : Profile)

/-- What the probe knows without asking anyone. -/
def offline : Proxy.ProxyContext where
  env := machine.env
  resolver _ := .failed ⟨none, none, 0⟩
  fetcher _ := .failed ⟨.dns, none, none, 0⟩
  connect _ _ := ⟨.failed ⟨.attempt .dns, none, none, none, {}⟩, none⟩
  sandbox _ := .error
  myAddress := machine.myAddress
  now _ := 0

/-- An answer as a script may use it. -/
def resolvedTarget (host : String) : DnsOutcome → Option Proxy.ResolvedTarget
  | .failed _ => none
  | .ok addresses _ => if addresses.isEmpty then none else some ⟨host, addresses⟩

def pacCall (scriptText : String) (endpoint : Endpoint) (resolved : Option Proxy.ResolvedTarget)
    (now : ℤ) : Proxy.PacCall where
  url := (if endpoint.port = 443 then "https" else "http") ++ "://" ++ endpoint.host ++ "/"
  host := endpoint.host
  scriptText
  resolvedTarget := resolved
  myAddress := machine.myAddress
  now

/-- The lookups of a leg, by host; a host that did not resolve is not asked for again. -/
abbrev ResolvedCache := InsertionMap String (Option Proxy.ResolvedTarget)

def resolveForPac (cache : ResolvedCache) (host : String) :
    NetM (Option Proxy.ResolvedTarget × ResolvedCache) :=
  match cache.get? host with
  | some resolved => return (resolved, cache)
  | none => do
    let outcome ← resolveWithin ext pacResolveTimeoutMs host
    let resolved := resolvedTarget host outcome
    return (resolved, cache.upsert host fun _ => resolved)

/-- The verdict of each endpoint, one after the other. -/
def askScript (scriptText : String) : ResolvedCache → List Endpoint → NetM (List Proxy.PacVerdict)
  | _, [] => return []
  | cache, endpoint :: endpoints => do
    let (resolved, cache) ← resolveForPac ext cache endpoint.host
    let now ← Throws.call .now
    let call := pacCall machine scriptText endpoint resolved now
    let answer ← Throws.call (.runScript call)
    let verdicts ← askScript scriptText cache endpoints
    return Proxy.evaluatePac (fun _ => answer) call :: verdicts

def probeRoute (route : Proxy.ProxyRoute) : NetM Proxy.RouteOutcome := do
  let detail ← connectProxy ext route.proxy route.target proxyOptions
  return Proxy.probeRoute (fun _ _ => detail) route

def probeRoutes (routes : List Proxy.ProxyRoute) : NetM (List Finding) := do
  let outcomes ← Throws.inOrder (probeRoute ext) routes
  return (Proxy.cluster ext.toExternals outcomes).map Proxy.connectVerdictFinding

/-- Where the routes of this run come from. -/
def discover : NetM Proxy.DiscoveryLeg :=
  match profile.pacUrl with
  | some url => do
    let outcome ← fetch ext url Proxy.maxScriptBytes
    match outcome with
    | .failed failed => return .pacFetchFailed url failed
    | .ok script _ => return .script script
  | none =>
    if Proxy.envProxyConfigured ext.toExternals (offline machine) then return .env
    else do
      let outcome ← fetch ext Proxy.wpadUrl Proxy.maxScriptBytes
      match outcome with
      | .ok script _ => return .script script
      | .failed failed => return .wpadFailed failed

def bypassFindings : List Finding :=
  (Proxy.bypassedEndpoints ext.toExternals (offline machine) profile).map
    Proxy.noProxyBypassFinding

def scriptLeg (scriptText : String) : NetM (List Finding) := do
  let endpoints := Proxy.routedEndpoints ext.toExternals (offline machine) profile
  let verdicts ← askScript ext machine scriptText .empty endpoints
  let asked := endpoints.zip verdicts
  let connectFindings ← probeRoutes ext (Proxy.addRoutes ext.toExternals
    (asked.filterMap fun pair => Proxy.proxyPair? pair.1 pair.2))
  return bypassFindings ext machine profile ++
    asked.filterMap (fun pair => Proxy.directFinding? pair.1 pair.2) ++
    asked.filterMap (fun pair => Proxy.inconclusiveFinding? pair.1 pair.2) ++ connectFindings

def legFindings : Proxy.DiscoveryLeg → NetM (List Finding)
  | .pacFetchFailed url outcome => return [Proxy.pacFetchFailedFinding url outcome]
  | .script scriptText => scriptLeg ext machine profile scriptText
  | .env => do
    let connectFindings ← probeRoutes ext (Proxy.envRoutes ext.toExternals (offline machine)
      (Proxy.routedEndpoints ext.toExternals (offline machine) profile))
    return bypassFindings ext machine profile ++ connectFindings
  | .wpadFailed outcome =>
    if outcome.phase = .dns then return [Proxy.noneConfiguredFinding]
    else return [Proxy.wpadUnusableFinding outcome]

def runProxy : NetM (List Finding) :=
  if profile.endpoints.isEmpty then return []
  else do
    let leg ← discover ext machine profile
    let findings ← legFindings ext machine profile leg
    return Proxy.syntaxFindings ext.toExternals (offline machine) profile ++ findings

end Proxy

section Tls

def captureOptions : CaptureOptions := ⟨5000, 5000⟩

variable (machine : Machine) (profile : Profile)

/-- The two captures of one target; the second only where the environment names a proxy. -/
structure Captures where
  direct : TlsChainOutcome
  viaProxy : Option TlsChainOutcome
  deriving DecidableEq, Repr

def captureBoth (proxy : Option HostPort) (target : Tls.TlsTarget) : NetM Captures := do
  let dialled : HostPort := ⟨target.host, target.port⟩
  let (direct, viaProxy) ← Throws.both (capture ext captureOptions dialled none)
    (match proxy with
    | none => return none
    | some via => do
      let outcome ← capture ext captureOptions dialled (some via)
      return some outcome)
  return ⟨direct, viaProxy⟩

/-- The seam these two captures came through. -/
def Captures.capturer (captures : Captures) : Tls.TlsCapture := fun _ via =>
  match via with
  | none => captures.direct
  | some _ => captures.viaProxy.getD captures.direct

/-- The anchors stand in the order of the targets; they are pushed as the captures complete. -/
def runTls : NetM (Throwing (List Finding × List ObservedAnchor)) := do
  let now ← Throws.call .now
  let targets := Tls.tlsTargets profile.endpoints
  if targets.isEmpty then return some ([], [])
  else
    let proxy := Tls.discoverEnvProxy ext.toExternals machine.env
    match certificateIndex ext.toExternals machine.publicRootPems with
    | none => return none
    | some roots =>
      let captures ← Throws.concurrently (captureBoth ext proxy) targets
      let results := (targets.zip captures).mapM fun (target, captures) =>
        Tls.checkTarget ext.toExternals captures.capturer profile.tls proxy ⟨roots, now⟩ target
      return results.map fun results => (results.flatMap Prod.fst, results.flatMap Prod.snd)

end Tls

section Engine
variable (machine : Machine) (profile : Profile)

/-- The probes that use the network, in the order they are registered in. -/
inductive NetworkProbe where
  | dns
  | egress
  | proxy
  | tls
  deriving DecidableEq, Repr

def NetworkProbe.name : NetworkProbe → String
  | .dns => "dns"
  | .egress => "egress"
  | .proxy => "proxy"
  | .tls => "tls"

def networkProbes : List NetworkProbe := [.dns, .egress, .proxy, .tls]

/-- What a probe reports itself; the anchors the captures are observed with are for another probe. -/
def NetworkProbe.program : NetworkProbe → NetM (Throwing (List Finding))
  | .dns => do return some (← runDns ext profile)
  | .egress => do return some (← runEgress ext profile)
  | .proxy => do return some (← runProxy ext machine profile)
  | .tls => do
    let result ← runTls ext machine profile
    return result.map Prod.fst

/-- The denial of a host, as whoever catches it sees it. -/
def denied (error : NetworkPolicyError) : Thrown :=
  { thrownClass := .networkPolicyError error.host, name := "NetworkPolicyError" }

variable (thrown : Thrown)

/-- A probe that throws does not fail the run: what its promise comes to. -/
def runProbe (probe : NetworkProbe) : Prog NetOp ProbeOutcome := do
  let result ← (probe.program ext machine profile).run
  match result with
  | .ok (some findings) => return .returned findings
  | .ok none => return .threw thrown.value
  | .error error => return .threw (denied error).value

/-- One probe after the other. -/
def runEach : List NetworkProbe → Prog NetOp (List ProbeOutcome)
  | [] => return []
  | probe :: probes => do
    let outcome ← runProbe ext machine profile thrown probe
    let outcomes ← runEach probes
    return outcome :: outcomes

end Engine
end Portcall.Concurrent
