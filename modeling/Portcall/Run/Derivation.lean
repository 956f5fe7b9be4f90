import Portcall.Dns.Probe
import Portcall.Egress.Probe
import Portcall.Proxy.Clusters
import Portcall.Tls.Handoff

/-! One run of the network probes, and which finding is derived from which outcome of a seam. -/
namespace Portcall

/-- What one run meets: a loaded profile, the environment, and what every seam comes back with. -/
structure Run (ext : Externals) where
  loaded : LoadedProfile ext
  env : Environment
  dnsResolver : DnsResolver
  dohProber : EndpointProber
  egressProber : EndpointProber
  pacResolver : DnsResolver
  pacFetcher : PacFetcher
  connect : ProxyConnect
  engine : Proxy.PacEngine
  myAddress : String
  clock : Endpoint → ℤ
  capturer : Tls.TlsCapture
  publicRootPems : List String
  now : ℤ

/-- What any of the five seams comes back with. -/
inductive SeamOutcome where
  | dns (outcome : DnsOutcome)
  | attempt (outcome : EndpointAttempt)
  | fetch (outcome : PacFetchOutcome)
  | connect (outcome : ProxyConnectAttempt)
  | capture (outcome : TlsChainOutcome)
  deriving DecidableEq, Repr

def SeamOutcome.endedByRun : SeamOutcome → Bool
  | .dns outcome => outcome.endedByRun
  | .attempt outcome => outcome.endedByRun
  | .fetch outcome => outcome.endedByRun
  | .connect outcome => outcome.endedByRun
  | .capture outcome => outcome.endedByRun

namespace Run
variable {ext : Externals} (run : Run ext)

abbrev profile : Profile := run.loaded.profile

def proxyContext : Proxy.ProxyContext where
  env := run.env
  resolver := run.pacResolver
  fetcher := run.pacFetcher
  connect := run.connect
  sandbox := Proxy.evaluatePac run.engine
  myAddress := run.myAddress
  now := run.clock

def tlsFindings : List Finding :=
  ((Tls.runTls ext run.profile run.publicRootPems run.capturer run.env run.now).map Prod.fst).getD []

/-- What the four probes report. -/
def report : List Finding :=
  Dns.runDns run.profile run.dnsResolver run.dohProber ++
    Egress.runEgress run.profile run.egressProber ++
    Proxy.runProxy ext run.proxyContext run.profile ++ run.tlsFindings

def leg : Proxy.DiscoveryLeg := Proxy.discoveryLeg ext run.proxyContext run.profile

def routed : List Endpoint := Proxy.routedEndpoints ext run.proxyContext run.profile

/-- The routes of the leg in effect. -/
def routes : List Proxy.ProxyRoute :=
  match run.leg with
  | .script scriptText =>
    (Proxy.evaluatePacPerEndpoint ext run.proxyContext scriptText run.routed).routes
  | .env => Proxy.envRoutes ext run.proxyContext run.routed
  | .pacFetchFailed .. | .wpadFailed _ => []

def clusters : List Proxy.ProxyCluster :=
  Proxy.cluster ext (run.routes.map (Proxy.probeRoute run.connect))

/-- What is captured for a target over one path. -/
def captured (target : Tls.TlsTarget) (via : Option HostPort) : TlsChainOutcome :=
  run.capturer ⟨target.host, target.port⟩ via

/-- What one captured path adds, against an index of the bundled roots. -/
def pathResult (roots : CertificateIndex) (target : Tls.TlsTarget) (path : Via)
    (via : Option HostPort) : Throwing Tls.PathResult :=
  Tls.checkPath ext target run.profile.tls (Tls.discoverEnvProxy ext run.env) ⟨roots, run.now⟩ path
    (run.captured target via)

end Run

/-- A finding is derived from an outcome: the probe that got the outcome made the finding of it,
or of something it decided by it. -/
inductive Derives {ext : Externals} (run : Run ext) : SeamOutcome → Finding → Prop where
  | lookup {target : Dns.ProfileHost} {finding : Finding}
      (htarget : target ∈ Dns.distinctHosts run.profile.endpoints)
      (hfinding : finding ∈ Dns.checkHost target (run.dnsResolver target.host)) :
      Derives run (.dns (run.dnsResolver target.host)) finding
  | doh {host : String} (hhost : host ∈ run.profile.dohResolvers) :
      Derives run (.attempt (run.dohProber ⟨host, Dns.dohPort, true⟩))
        (Dns.dohFinding host (run.dohProber ⟨host, Dns.dohPort, true⟩))
  | egress {endpoint : Endpoint} (hendpoint : endpoint ∈ run.profile.endpoints) :
      Derives run (.attempt (run.egressProber (Egress.targetOf endpoint)))
        (Egress.judge endpoint (run.egressProber (Egress.targetOf endpoint)))
  | configuredFetch {url : String} {finding : Finding} (hurl : run.profile.pacUrl = some url)
      (hfinding : finding ∈ Proxy.legFindings ext run.proxyContext run.profile run.leg) :
      Derives run (.fetch (run.pacFetcher url)) finding
  | wpadFetch {finding : Finding} (hurl : run.profile.pacUrl = none)
      (henv : Proxy.envProxyConfigured ext run.proxyContext = false)
      (hfinding : finding ∈ Proxy.legFindings ext run.proxyContext run.profile run.leg) :
      Derives run (.fetch (run.pacFetcher Proxy.wpadUrl)) finding
  | pacDirect {scriptText : String} {endpoint : Endpoint} {finding : Finding}
      (hleg : run.leg = .script scriptText) (hendpoint : endpoint ∈ run.routed)
      (hfinding : Proxy.directFinding? endpoint
        (Proxy.pacVerdict run.proxyContext scriptText endpoint) = some finding) :
      Derives run (.dns (run.pacResolver endpoint.host)) finding
  | pacInconclusive {scriptText : String} {endpoint : Endpoint} {finding : Finding}
      (hleg : run.leg = .script scriptText) (hendpoint : endpoint ∈ run.routed)
      (hfinding : Proxy.inconclusiveFinding? endpoint
        (Proxy.pacVerdict run.proxyContext scriptText endpoint) = some finding) :
      Derives run (.dns (run.pacResolver endpoint.host)) finding
  | pacRoute {scriptText : String} {endpoint : Endpoint} {via : HostPort}
      {members : Proxy.ProxyCluster} (hleg : run.leg = .script scriptText)
      (hendpoint : endpoint ∈ run.routed)
      (hvia : Proxy.pacVerdict run.proxyContext scriptText endpoint = .proxy via)
      (hmembers : members ∈ run.clusters) (htarget : Proxy.targetOf endpoint ∈ members.targets) :
      Derives run (.dns (run.pacResolver endpoint.host)) (Proxy.connectVerdictFinding members)
  | connect {route : Proxy.ProxyRoute} {members : Proxy.ProxyCluster} (hroute : route ∈ run.routes)
      (hmembers : members ∈ run.clusters) (htarget : route.target ∈ members.targets) :
      Derives run (.connect (run.connect route.proxy route.target).attempt)
        (Proxy.connectVerdictFinding members)
  | direct {roots : CertificateIndex} {target : Tls.TlsTarget} {result : Tls.PathResult}
      {finding : Finding} (hroots : certificateIndex ext run.publicRootPems = some roots)
      (htarget : target ∈ Tls.tlsTargets run.profile.endpoints)
      (hresult : run.pathResult roots target .direct none = some result)
      (hfinding : finding ∈ result.findings) :
      Derives run (.capture (run.captured target none)) finding
  | proxied {roots : CertificateIndex} {target : Tls.TlsTarget} {via : HostPort}
      {result : Tls.PathResult} {finding : Finding}
      (hroots : certificateIndex ext run.publicRootPems = some roots)
      (htarget : target ∈ Tls.tlsTargets run.profile.endpoints)
      (hvia : Tls.discoverEnvProxy ext run.env = some via)
      (hresult : run.pathResult roots target .proxy (some via) = some result)
      (hfinding : finding ∈ result.findings) :
      Derives run (.capture (run.captured target (some via))) finding
  | compared {roots : CertificateIndex} {target : Tls.TlsTarget} {via : HostPort}
      {direct proxied : Tls.PathResult} {finding : Finding} {outcome : TlsChainOutcome}
      (hroots : certificateIndex ext run.publicRootPems = some roots)
      (htarget : target ∈ Tls.tlsTargets run.profile.endpoints)
      (hvia : Tls.discoverEnvProxy ext run.env = some via)
      (hdirect : run.pathResult roots target .direct none = some direct)
      (hproxied : run.pathResult roots target .proxy (some via) = some proxied)
      (houtcome : outcome = run.captured target none ∨ outcome = run.captured target (some via))
      (hfinding : finding ∈ Tls.compareChains ext direct.chain proxied.chain target.host) :
      Derives run (.capture outcome) finding

section Report
variable {ext : Externals} {run : Run ext}

lemma Run.runProxy_eq : Proxy.runProxy ext run.proxyContext run.profile =
    Proxy.syntaxFindings ext run.proxyContext run.profile ++
      Proxy.legFindings ext run.proxyContext run.profile run.leg :=
  if_neg (by simp [run.loaded.endpoints_ne_nil])

lemma Run.legFindings_script {scriptText : String} (hleg : run.leg = .script scriptText) :
    Proxy.legFindings ext run.proxyContext run.profile run.leg =
      (Proxy.bypassedEndpoints ext run.proxyContext run.profile).map Proxy.noProxyBypassFinding ++
        (Proxy.evaluatePacPerEndpoint ext run.proxyContext scriptText run.routed).directFindings ++
        (Proxy.evaluatePacPerEndpoint ext run.proxyContext scriptText
          run.routed).inconclusiveFindings ++
        run.clusters.map Proxy.connectVerdictFinding := by
  unfold Run.clusters Run.routes
  rw [hleg]
  rfl

lemma Run.legFindings_env (hleg : run.leg = .env) :
    Proxy.legFindings ext run.proxyContext run.profile run.leg =
      (Proxy.bypassedEndpoints ext run.proxyContext run.profile).map Proxy.noProxyBypassFinding ++
        run.clusters.map Proxy.connectVerdictFinding := by
  unfold Run.clusters Run.routes
  rw [hleg]
  rfl

/-- Every cluster's finding is among those of the leg in effect. -/
lemma Run.mem_legFindings_of_cluster {members : Proxy.ProxyCluster} (h : members ∈ run.clusters) :
    Proxy.connectVerdictFinding members ∈
      Proxy.legFindings ext run.proxyContext run.profile run.leg := by
  have hmem := List.mem_map_of_mem (f := Proxy.connectVerdictFinding) h
  cases hleg : run.leg with
  | script scriptText =>
    rw [← hleg, Run.legFindings_script hleg]
    exact List.mem_append_right _ hmem
  | env =>
    rw [← hleg, Run.legFindings_env hleg]
    exact List.mem_append_right _ hmem
  | pacFetchFailed url outcome =>
    unfold Run.clusters Run.routes at h
    rw [hleg] at h
    exact absurd h List.not_mem_nil
  | wpadFailed outcome =>
    unfold Run.clusters Run.routes at h
    rw [hleg] at h
    exact absurd h List.not_mem_nil

/-- The report of the certificate probe is what its targets' two paths add, and the comparisons. -/
lemma Run.mem_tlsFindings_iff {roots : CertificateIndex}
    (hroots : certificateIndex ext run.publicRootPems = some roots) {finding : Finding} :
    finding ∈ run.tlsFindings ↔ ∃ target ∈ Tls.tlsTargets run.profile.endpoints,
      ∃ direct proxied, run.pathResult roots target .direct none = some direct ∧
        (((Tls.discoverEnvProxy ext run.env).mapM fun via =>
          run.pathResult roots target .proxy (some via)).map fun viaProxy =>
            viaProxy.getD ⟨[], none, none⟩) = some proxied ∧
        (finding ∈ direct.findings ∨ finding ∈ proxied.findings ∨
          finding ∈ Tls.compareChains ext direct.chain proxied.chain target.host) := by
  obtain ⟨results, hresults, hrun⟩ :=
    Tls.runTls_eq_mapM run.profile run.capturer run.env run.now hroots
  unfold Run.tlsFindings
  rw [hrun, Option.map_some, Option.getD_some, List.mem_flatMap]
  constructor
  · rintro ⟨result, hm, hfinding⟩
    obtain ⟨target, htarget, hcheck⟩ := (OptionMap.mem_of_mapM_eq_some hresults _).mp hm
    obtain ⟨direct, proxied, hdirect, hproxied, he⟩ := @Tls.checkTarget_eq_some ext run.capturer
      target (Tls.discoverEnvProxy ext run.env) run.profile.tls ⟨roots, run.now⟩
    rw [hcheck, Option.some.injEq] at he
    subst he
    rw [List.append_assoc, List.mem_append, List.mem_append] at hfinding
    exact ⟨target, htarget, direct, proxied, hdirect, hproxied, hfinding⟩
  · rintro ⟨target, htarget, direct, proxied, hdirect, hproxied, hfinding⟩
    obtain ⟨direct', proxied', hdirect', hproxied', he⟩ := @Tls.checkTarget_eq_some ext run.capturer
      target (Tls.discoverEnvProxy ext run.env) run.profile.tls ⟨roots, run.now⟩
    obtain rfl := Option.some.inj (hdirect.symm.trans hdirect')
    obtain rfl := Option.some.inj (hproxied.symm.trans hproxied')
    refine ⟨_, (OptionMap.mem_of_mapM_eq_some hresults _).mpr ⟨target, htarget, he⟩, ?_⟩
    rw [List.append_assoc, List.mem_append, List.mem_append]
    exact hfinding

/-- What is derived from an outcome is reported. -/
theorem Derives.mem_report {outcome : SeamOutcome} {finding : Finding}
    (h : Derives run outcome finding) : finding ∈ run.report := by
  have hdns : ∀ finding ∈ Dns.runDns run.profile run.dnsResolver run.dohProber,
      finding ∈ run.report := fun finding hm => by simp [Run.report, hm]
  have hleg : ∀ finding ∈ Proxy.legFindings ext run.proxyContext run.profile run.leg,
      finding ∈ run.report := fun finding hm => by simp [Run.report, Run.runProxy_eq, hm]
  have htls : ∀ finding ∈ run.tlsFindings, finding ∈ run.report :=
    fun finding hm => by simp [Run.report, hm]
  cases h with
  | lookup htarget hfinding =>
    exact hdns _ (List.mem_append_left _ (List.mem_flatMap.mpr ⟨_, htarget, hfinding⟩))
  | doh hhost => exact hdns _ (List.mem_append_right _ (List.mem_map.mpr ⟨_, hhost, rfl⟩))
  | egress hendpoint =>
    have hm := List.mem_map_of_mem (f := fun endpoint =>
      Egress.judge endpoint (run.egressProber (Egress.targetOf endpoint))) hendpoint
    simp only [Run.report, Egress.runEgress, List.mem_append]
    exact Or.inl (Or.inl (Or.inr hm))
  | configuredFetch _ hfinding => exact hleg _ hfinding
  | wpadFetch _ _ hfinding => exact hleg _ hfinding
  | pacDirect hscript hendpoint hfinding =>
    refine hleg _ ?_
    rw [Run.legFindings_script hscript]
    exact List.mem_append_left _ (List.mem_append_left _ (List.mem_append_right _
      (List.mem_filterMap.mpr ⟨_, hendpoint, hfinding⟩)))
  | pacInconclusive hscript hendpoint hfinding =>
    refine hleg _ ?_
    rw [Run.legFindings_script hscript]
    exact List.mem_append_left _ (List.mem_append_right _
      (List.mem_filterMap.mpr ⟨_, hendpoint, hfinding⟩))
  | pacRoute _ _ _ hmembers _ => exact hleg _ (Run.mem_legFindings_of_cluster hmembers)
  | connect _ hmembers _ => exact hleg _ (Run.mem_legFindings_of_cluster hmembers)
  | direct hroots htarget hresult hfinding =>
    obtain ⟨direct, proxied, hdirect, hproxied, -⟩ := @Tls.checkTarget_eq_some ext run.capturer
      _ (Tls.discoverEnvProxy ext run.env) run.profile.tls ⟨_, run.now⟩
    obtain rfl := Option.some.inj (hresult.symm.trans hdirect)
    exact htls _ ((Run.mem_tlsFindings_iff hroots).mpr
      ⟨_, htarget, _, _, hresult, hproxied, Or.inl hfinding⟩)
  | proxied hroots htarget hvia hresult hfinding =>
    obtain ⟨direct, proxied, hdirect, -, -⟩ := @Tls.checkTarget_eq_some ext run.capturer
      _ (Tls.discoverEnvProxy ext run.env) run.profile.tls ⟨_, run.now⟩
    refine htls _ ((Run.mem_tlsFindings_iff hroots).mpr
      ⟨_, htarget, direct, _, hdirect, ?_, Or.inr (Or.inl hfinding)⟩)
    rw [hvia, Option.mapM_some, hresult]
    rfl
  | compared hroots htarget hvia hdirect hproxied _ hfinding =>
    refine htls _ ((Run.mem_tlsFindings_iff hroots).mpr
      ⟨_, htarget, _, _, hdirect, ?_, Or.inr (Or.inr hfinding)⟩)
    rw [hvia, Option.mapM_some, hproxied]
    rfl

/-- The findings that are made of `NO_PROXY` alone. -/
def noProxyIds : List String := ["proxy.no-proxy-syntax", "proxy.no-proxy-bypass"]

lemma derives_of_mem_cluster {members : Proxy.ProxyCluster} (h : members ∈ run.clusters) :
    ∃ outcome, Derives run outcome (Proxy.connectVerdictFinding members) := by
  obtain ⟨first, hfirst, -, htarget, -⟩ := Proxy.outcomes_of_mem_cluster h
  obtain ⟨route, hroute, rfl⟩ := List.mem_map.mp hfirst
  rw [Proxy.route_probeRoute] at htarget
  exact ⟨_, .connect hroute h htarget⟩

lemma derives_of_mem_legFindings {finding : Finding}
    (h : finding ∈ Proxy.legFindings ext run.proxyContext run.profile run.leg) :
    (∃ outcome, Derives run outcome finding) ∨ finding.id ∈ noProxyIds := by
  cases hurl : run.profile.pacUrl with
  | some url => exact Or.inl ⟨_, .configuredFetch hurl h⟩
  | none =>
    cases henv : Proxy.envProxyConfigured ext run.proxyContext with
    | false => exact Or.inl ⟨_, .wpadFetch hurl henv h⟩
    | true =>
      have hleg : run.leg = .env := by simp [Run.leg, Proxy.discoveryLeg, hurl, henv]
      rw [Run.legFindings_env hleg, List.mem_append, List.mem_map, List.mem_map] at h
      rcases h with ⟨endpoint, -, rfl⟩ | ⟨members, hmembers, rfl⟩
      · exact Or.inr (by simp [Proxy.noProxyBypassFinding, noProxyIds])
      · exact Or.inl (derives_of_mem_cluster hmembers)

lemma derives_of_mem_tlsFindings {finding : Finding} (h : finding ∈ run.tlsFindings) :
    ∃ outcome, Derives run outcome finding := by
  cases hroots : certificateIndex ext run.publicRootPems with
  | none =>
    unfold Run.tlsFindings Tls.runTls at h
    simp only [hroots, Option.bind_eq_bind, Option.bind_none] at h
    split_ifs at h <;> exact absurd h List.not_mem_nil
  | some roots =>
    obtain ⟨target, htarget, direct, proxied, hdirect, hproxied, hfinding⟩ :=
      (Run.mem_tlsFindings_iff hroots).mp h
    cases hvia : Tls.discoverEnvProxy ext run.env with
    | none =>
      rw [hvia] at hproxied
      cases hproxied
      rcases hfinding with hfinding | hfinding | hfinding
      · exact ⟨_, .direct hroots htarget hdirect hfinding⟩
      · exact absurd hfinding List.not_mem_nil
      · simp [Tls.compareChains] at hfinding
    | some via =>
      rw [hvia, Option.mapM_some] at hproxied
      obtain ⟨viaProxy, hmap, rfl⟩ := Option.map_eq_some_iff.mp hproxied
      obtain ⟨result, hresult, rfl⟩ := Option.map_eq_some_iff.mp hmap
      rcases hfinding with hfinding | hfinding | hfinding
      · exact ⟨_, .direct hroots htarget hdirect hfinding⟩
      · exact ⟨_, .proxied hroots htarget hvia hresult hfinding⟩
      · exact ⟨_, .compared hroots htarget hvia hdirect hresult (Or.inl rfl) hfinding⟩

/-- What is reported is derived from some outcome, or is made of `NO_PROXY` alone. -/
theorem derives_of_mem_report {finding : Finding} (h : finding ∈ run.report) :
    (∃ outcome, Derives run outcome finding) ∨ finding.id ∈ noProxyIds := by
  simp only [Run.report, List.mem_append, Dns.runDns, Egress.runEgress, Run.runProxy_eq] at h
  rcases h with (((hlookup | hdoh) | hegress) | (hissues | hleg)) | htls
  · obtain ⟨target, htarget, hfinding⟩ := List.mem_flatMap.mp hlookup
    exact Or.inl ⟨_, .lookup htarget hfinding⟩
  · obtain ⟨host, hhost, rfl⟩ := List.mem_map.mp hdoh
    exact Or.inl ⟨_, .doh hhost⟩
  · obtain ⟨endpoint, hendpoint, rfl⟩ := List.mem_map.mp hegress
    exact Or.inl ⟨_, .egress hendpoint⟩
  · obtain ⟨entry, -, rfl⟩ := List.mem_map.mp hissues
    exact Or.inr (by simp [Proxy.noProxySyntaxFinding, noProxyIds])
  · exact derives_of_mem_legFindings hleg
  · exact Or.inl (derives_of_mem_tlsFindings htls)

end Report
end Portcall
