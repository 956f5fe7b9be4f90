import Mathlib.Data.List.ReduceOption
import Portcall.Run.Derivation
import Portcall.Truststore.CrossCheck

/-! Everything the five probes can say: which builder made a finding, and of what. What a builder
repeats of the network, a failure's code or a protocol's name, is kept in sight. -/
namespace Portcall
variable {ext : Externals} {Code Protocol : Option String → Prop}

/-- The findings the probes' builders make of codes and protocol names of a kind. -/
inductive Emitted (ext : Externals) (Code Protocol : Option String → Prop) : Finding → Prop where
  | lookup (target : Dns.ProfileHost) (outcome : DnsOutcome)
      (hcode : ∀ failed, outcome = .failed failed → Code failed.code) :
      Emitted ext Code Protocol (Dns.verdict target outcome)
  | slow (target : Dns.ProfileHost) (elapsedMs : ℕ) :
      Emitted ext Code Protocol (Dns.slowResolution target elapsedMs)
  | doh (host : String) (attempt : EndpointAttempt) :
      Emitted ext Code Protocol (Dns.dohFinding host attempt)
  | egress (endpoint : Endpoint) (attempt : EndpointAttempt)
      (hcode : ∀ failed, attempt = .failed failed → Code failed.code) :
      Emitted ext Code Protocol (Egress.judge endpoint attempt)
  | noProxySyntax (entry : Proxy.NoProxyEntry) :
      Emitted ext Code Protocol (Proxy.noProxySyntaxFinding entry)
  | noProxyBypass (endpoint : Endpoint) :
      Emitted ext Code Protocol (Proxy.noProxyBypassFinding endpoint)
  | pacDirect (endpoint : Endpoint) : Emitted ext Code Protocol (Proxy.pacDirectFinding endpoint)
  | pacInconclusive (endpoint : Endpoint) (kind : Proxy.InconclusiveKind) :
      Emitted ext Code Protocol (Proxy.pacInconclusiveFinding endpoint kind)
  | pacFetchFailed (url : String) (outcome : FailedFetch) (hcode : Code outcome.code) :
      Emitted ext Code Protocol (Proxy.pacFetchFailedFinding url outcome)
  | wpadUnusable (outcome : FailedFetch) (hcode : Code outcome.code) :
      Emitted ext Code Protocol (Proxy.wpadUnusableFinding outcome)
  | noneConfigured : Emitted ext Code Protocol Proxy.noneConfiguredFinding
  | connect (members : Proxy.ProxyCluster)
      (hcode : members.code = noCode ∨ Code (some members.code)) :
      Emitted ext Code Protocol (Proxy.connectVerdictFinding members)
  | captureFailed (target : Tls.TlsTarget) (path : Via) (proxy : Option HostPort)
      (outcome : FailedCapture) (hcode : Code outcome.code) :
      Emitted ext Code Protocol (Tls.captureFailed target path proxy outcome)
  | chainEmpty (target : Tls.ChainTarget) (capture : Tls.CapturedChain) :
      Emitted ext Code Protocol (Tls.chainEmpty target capture)
  | chainUnparseable (target : Tls.ChainTarget) (capture : Tls.CapturedChain) (length : ℕ) :
      Emitted ext Code Protocol (Tls.chainUnparseable target capture length)
  | root (target : Tls.ChainTarget) (capture : Tls.CapturedChain) {chain : List X509Certificate}
      {verdict : Tls.RootVerdict} {policy : TlsPolicy} {roots : CertificateIndex}
      {findings : List Finding} {finding : Finding}
      (h : Tls.rootFindings target capture chain verdict policy roots = some findings)
      (hm : finding ∈ findings) : Emitted ext Code Protocol finding
  | protocol (target : Tls.ChainTarget) (capture : Tls.CapturedChain) (policy : TlsPolicy)
      {finding : Finding} (hprotocol : Protocol capture.negotiatedProtocol)
      (hm : finding ∈ Tls.protocolFindings target capture policy) :
      Emitted ext Code Protocol finding
  | validity (target : Tls.ChainTarget) (capture : Tls.CapturedChain)
      {chain : List X509Certificate} {now : ℤ} {finding : Finding}
      (hm : finding ∈ Tls.validityFindings target capture chain now) :
      Emitted ext Code Protocol finding
  | name (target : Tls.ChainTarget) (capture : Tls.CapturedChain) {leaf : X509Certificate}
      {finding : Finding} (hm : finding ∈ Tls.nameFindings target capture ext leaf) :
      Emitted ext Code Protocol finding
  | compared {direct viaProxy : Option Tls.CapturedChain} {name : String} {finding : Finding}
      (hm : finding ∈ Tls.compareChains ext direct viaProxy name) :
      Emitted ext Code Protocol finding
  | osStore {commands : List TrustStoreCommand} {keys : List String} {store : TrustStoreOutcome}
      {finding : Finding} (h : Truststore.storeFinding ext commands keys store = some finding)
      (hcode : Code store.code) : Emitted ext Code Protocol finding
  | unsupportedPlatform : Emitted ext Code Protocol Truststore.unsupportedPlatformFinding
  | runtimeStore {runtime : Runtime} {outcome : RuntimeStoreOutcome} {finding : Finding}
      (hm : finding ∈ Truststore.outcomeFindings runtime outcome) (hcode : Code outcome.code) :
      Emitted ext Code Protocol finding
  | platformVerifier (runtime : Runtime) :
      Emitted ext Code Protocol (Truststore.platformVerifierFinding runtime)
  | storeNotFound (runtime : Runtime) (searched : List String) :
      Emitted ext Code Protocol (Truststore.storeNotFoundFinding runtime searched)
  | missingRoot (set : Truststore.TrustSet) (missing : List Truststore.Anchor)
      (correlation : Option Truststore.Correlation) :
      Emitted ext Code Protocol (Truststore.missingRootFinding set missing correlation)
  | rootsPresent (set : Truststore.TrustSet) (coverage : Truststore.OsCoverage) :
      Emitted ext Code Protocol (Truststore.rootsPresentFinding set coverage)
  | indeterminate (osStores : List TrustStoreOutcome) :
      Emitted ext Code Protocol (Truststore.indeterminateFinding osStores)

section Network
variable {finding : Finding}

theorem emitted_of_mem_runDns {profile : Profile} {resolver : DnsResolver}
    {prober : EndpointProber}
    (hcode : ∀ host failed, resolver host = .failed failed → Code failed.code)
    (h : finding ∈ Dns.runDns profile resolver prober) : Emitted ext Code Protocol finding := by
  rcases List.mem_append.mp h with h | h
  · obtain ⟨target, -, h⟩ := List.mem_flatMap.mp h
    rcases List.mem_cons.mp h with rfl | h
    · exact .lookup target _ fun failed => hcode target.host failed
    · cases houtcome : resolver target.host with
      | ok addresses elapsedMs =>
        rw [houtcome] at h
        dsimp only at h
        split_ifs at h
        · rw [List.mem_singleton.mp h]
          exact .slow target elapsedMs
        · exact absurd h List.not_mem_nil
      | failed outcome =>
        rw [houtcome] at h
        exact absurd h List.not_mem_nil
  · obtain ⟨host, -, rfl⟩ := List.mem_map.mp h
    exact .doh host _

theorem emitted_of_mem_runEgress {profile : Profile} {prober : EndpointProber}
    (hcode : ∀ target failed, prober target = .failed failed → Code failed.code)
    (h : finding ∈ Egress.runEgress profile prober) : Emitted ext Code Protocol finding := by
  obtain ⟨endpoint, -, rfl⟩ := List.mem_map.mp h
  exact .egress endpoint _ fun failed => hcode _ failed

/-- A cluster keeps the code of its first outcome. -/
lemma code_of_mem_cluster {outcomes : List Proxy.RouteOutcome} {members : Proxy.ProxyCluster}
    (h : members ∈ Proxy.cluster ext outcomes) : ∃ first ∈ outcomes, members.code = first.code := by
  obtain ⟨first, rest, hsub, -, rfl⟩ := InsertionMap.exists_of_mem_values_group _ _ _ h
  refine ⟨first, hsub.subset List.mem_cons_self, ?_⟩
  have hfold : ∀ (rest : List Proxy.RouteOutcome) (start : Proxy.ProxyCluster),
      (rest.foldl (fun existing outcome =>
        { existing with
          targets := existing.targets ++ [outcome.route.target]
          required := existing.required || outcome.route.required }) start).code = start.code := by
    intro rest
    induction rest with
    | nil => exact fun _ => rfl
    | cons outcome rest ih => exact fun start => ih _
  exact hfold rest _

/-- What is routed through a proxy is said of that proxy's clusters. -/
lemma emitted_of_mem_probeRoutes {connect : ProxyConnect} {routes : List Proxy.ProxyRoute}
    (hcode : ∀ proxy target failed, (connect proxy target).attempt = .failed failed →
      Code failed.code)
    (h : finding ∈ Proxy.probeRoutes ext connect routes) : Emitted ext Code Protocol finding := by
  obtain ⟨members, hmembers, rfl⟩ := List.mem_map.mp h
  obtain ⟨first, hfirst, hcluster⟩ := code_of_mem_cluster hmembers
  obtain ⟨route, -, rfl⟩ := List.mem_map.mp hfirst
  refine .connect members ?_
  rw [hcluster]
  unfold Proxy.probeRoute
  dsimp only
  by_cases hended : (connect route.proxy route.target).attempt.endedByRun = true
  · rw [if_pos hended]
    exact Or.inl rfl
  · rw [if_neg hended]
    cases hattempt : (connect route.proxy route.target).attempt with
    | ok status timing => exact Or.inl rfl
    | failed attempt =>
      have hfailed := hcode route.proxy route.target attempt hattempt
      cases hc : attempt.code with
      | none => exact Or.inl (by simp [ProxyConnectAttempt.code, hc])
      | some code => exact Or.inr (by simpa [ProxyConnectAttempt.code, hc] using hfailed)

theorem emitted_of_mem_runProxy {context : Proxy.ProxyContext} {profile : Profile}
    (hfetch : ∀ url failed, context.fetcher url = .failed failed → Code failed.code)
    (hconnect : ∀ proxy target failed, (context.connect proxy target).attempt = .failed failed →
      Code failed.code)
    (h : finding ∈ Proxy.runProxy ext context profile) : Emitted ext Code Protocol finding := by
  have hbypass : finding ∈ (Proxy.bypassedEndpoints ext context profile).map
      Proxy.noProxyBypassFinding → Emitted ext Code Protocol finding := by
    intro h
    obtain ⟨endpoint, -, rfl⟩ := List.mem_map.mp h
    exact .noProxyBypass endpoint
  unfold Proxy.runProxy at h
  split_ifs at h
  · exact absurd h List.not_mem_nil
  rcases List.mem_append.mp h with h | h
  · obtain ⟨entry, -, rfl⟩ := List.mem_map.mp h
    exact .noProxySyntax entry
  cases hleg : Proxy.discoveryLeg ext context profile with
  | pacFetchFailed url outcome =>
    rw [hleg] at h
    rw [List.mem_singleton.mp h]
    refine .pacFetchFailed url outcome ?_
    unfold Proxy.discoveryLeg at hleg
    split at hleg
    · split at hleg
      · rename_i hfailed
        cases hleg
        exact hfetch _ _ hfailed
      · cases hleg
    · split_ifs at hleg
      split at hleg <;> cases hleg
  | script scriptText =>
    rw [hleg] at h
    simp only [Proxy.legFindings, Proxy.pacLegFindings, List.mem_append] at h
    rcases h with ((h | h) | h) | h
    · exact hbypass h
    · obtain ⟨endpoint, -, h⟩ := List.mem_filterMap.mp h
      unfold Proxy.directFinding? at h
      split at h
      · cases h
        exact .pacDirect endpoint
      · cases h
    · obtain ⟨endpoint, -, h⟩ := List.mem_filterMap.mp h
      unfold Proxy.inconclusiveFinding? at h
      split at h
      · cases h
        exact .pacInconclusive endpoint .unresolved
      · cases h
        exact .pacInconclusive endpoint .error
      · cases h
    · exact emitted_of_mem_probeRoutes hconnect h
  | env =>
    rw [hleg] at h
    rcases List.mem_append.mp h with h | h
    · exact hbypass h
    · exact emitted_of_mem_probeRoutes hconnect h
  | wpadFailed outcome =>
    rw [hleg, Proxy.legFindings] at h
    split_ifs at h
    · rw [List.mem_singleton.mp h]
      exact .noneConfigured
    · rw [List.mem_singleton.mp h]
      refine .wpadUnusable outcome ?_
      unfold Proxy.discoveryLeg at hleg
      split at hleg
      · split at hleg <;> cases hleg
      · split_ifs at hleg
        split at hleg
        · cases hleg
        · rename_i hfailed
          cases hleg
          exact hfetch _ _ hfailed

end Network

section Tls
variable {finding : Finding}

theorem emitted_of_mem_evaluateChain {capture : Tls.CapturedChain} {target : Tls.ChainTarget}
    {policy : TlsPolicy} {options : Tls.ChainEvaluationOptions} {evaluation : Tls.ChainEvaluation}
    (hprotocol : Protocol capture.negotiatedProtocol)
    (he : Tls.evaluateChain ext capture target policy options = some evaluation)
    (h : finding ∈ evaluation.findings) : Emitted ext Code Protocol finding := by
  unfold Tls.evaluateChain at he
  split_ifs at he
  · cases he
    rw [List.mem_singleton.mp h]
    exact .chainEmpty target capture
  split at he
  · cases he
    rw [List.mem_singleton.mp h]
    exact .chainUnparseable target capture _
  · cases he
    rw [List.mem_singleton.mp h]
    exact .chainEmpty target capture
  · rename_i leaf rest _
    obtain ⟨verdict, -, he⟩ := Option.bind_eq_some_iff.mp he
    obtain ⟨root, hroot, he⟩ := Option.bind_eq_some_iff.mp he
    cases he
    simp only [List.mem_append] at h
    rcases h with ((h | h) | h) | h
    · exact .root target capture hroot h
    · exact .protocol target capture policy hprotocol h
    · exact .validity target capture h
    · exact .name target capture h

theorem emitted_of_mem_runTls {profile : Profile} {publicRootPems : List String}
    {capturer : Tls.TlsCapture} {env : Environment} {now : ℤ} {findings : List Finding}
    {anchors : List ObservedAnchor}
    (hcode : ∀ target via failed, capturer target via = .failed failed → Code failed.code)
    (hprotocol : ∀ target via chain, capturer target via = .ok chain →
      Protocol chain.negotiatedProtocol)
    (he : Tls.runTls ext profile publicRootPems capturer env now = some (findings, anchors))
    (h : finding ∈ findings) : Emitted ext Code Protocol finding := by
  unfold Tls.runTls at he
  dsimp only at he
  split_ifs at he
  · cases he
    exact absurd h List.not_mem_nil
  obtain ⟨roots, -, he⟩ := Option.bind_eq_some_iff.mp he
  obtain ⟨results, hresults, he⟩ := Option.bind_eq_some_iff.mp he
  cases he
  obtain ⟨result, hresult, h⟩ := List.mem_flatMap.mp h
  obtain ⟨target, -, hcheck⟩ := (OptionMap.mem_of_mapM_eq_some hresults result).mp hresult
  have hpath : ∀ {path : Via} {via : Option HostPort} {found : Tls.PathResult},
      Tls.checkPath ext target profile.tls (Tls.discoverEnvProxy ext env) ⟨roots, now⟩ path
        (capturer ⟨target.host, target.port⟩ via) = some found →
      finding ∈ found.findings → Emitted ext Code Protocol finding := by
    intro path via found hfound hm
    cases houtcome : capturer ⟨target.host, target.port⟩ via with
    | failed failed =>
      rw [houtcome] at hfound
      cases hfound
      rw [List.mem_singleton.mp hm]
      exact .captureFailed target path _ failed (hcode _ _ _ houtcome)
    | ok chain =>
      rw [houtcome] at hfound
      obtain ⟨evaluation, hevaluation, hfound⟩ := Option.bind_eq_some_iff.mp hfound
      cases hfound
      exact emitted_of_mem_evaluateChain (hprotocol _ _ _ houtcome) hevaluation hm
  obtain ⟨direct, hdirect, hcheck⟩ := Option.bind_eq_some_iff.mp hcheck
  obtain ⟨viaProxy, hproxy, hcheck⟩ := Option.bind_eq_some_iff.mp hcheck
  cases hcheck
  simp only [List.mem_append] at h
  rcases h with (h | h) | h
  · exact hpath hdirect h
  · cases hdiscovered : Tls.discoverEnvProxy ext env with
    | none =>
      rw [hdiscovered] at hproxy
      cases hproxy
      exact absurd h List.not_mem_nil
    | some via =>
      rw [hdiscovered, Option.mapM_some] at hproxy
      obtain ⟨found, hfound, rfl⟩ := Option.map_eq_some_iff.mp hproxy
      rw [← hdiscovered] at hfound
      exact hpath hfound h
  · exact .compared h

end Tls

section Truststore
variable {finding : Finding}

lemma emitted_of_mem_runtimeFindings {runtime : Runtime} {outcomes : List RuntimeStoreOutcome}
    {added : List Truststore.Anchor} {observed : List ObservedAnchor}
    {coverage : Truststore.OsCoverage} {findings : List Finding}
    (hcode : ∀ outcome ∈ outcomes, Code outcome.code)
    (he : Truststore.runtimeFindings ext runtime outcomes added observed coverage = some findings)
    (h : finding ∈ findings) : Emitted ext Code Protocol finding := by
  have hstores : finding ∈ outcomes.flatMap (Truststore.outcomeFindings runtime) →
      Emitted ext Code Protocol finding := by
    intro h
    obtain ⟨outcome, hm, h⟩ := List.mem_flatMap.mp h
    exact .runtimeStore h (hcode outcome hm)
  unfold Truststore.runtimeFindings at he
  dsimp only at he
  split_ifs at he
  · cases he
    rcases List.mem_append.mp h with h | h
    · exact hstores h
    · rw [List.mem_singleton.mp h]
      exact .platformVerifier runtime
  · cases he
    rcases List.mem_append.mp h with h | h
    · exact hstores h
    · exact absurd h List.not_mem_nil
  · cases he
    rcases List.mem_append.mp h with h | h
    · exact hstores h
    · rw [List.mem_singleton.mp h]
      exact .storeNotFound runtime _
  · cases he
    exact hstores h
  · obtain ⟨verdicts, hverdicts, rfl⟩ := Option.map_eq_some_iff.mp he
    rcases List.mem_append.mp h with h | h
    · exact hstores h
    obtain ⟨set, -, hset⟩ := (OptionMap.mem_of_mapM_eq_some hverdicts _).mp
      (List.reduceOption_mem_iff.mp h)
    obtain ⟨index, -, hverdict⟩ := Option.map_eq_some_iff.mp hset
    dsimp only at hverdict
    split_ifs at hverdict
    · cases hverdict
      exact .missingRoot set _ _
    · cases hverdict
      exact .rootsPresent set coverage

theorem emitted_of_mem_crossCheck {input : Truststore.CrossCheckInput} {findings : List Finding}
    (hos : ∀ store ∈ input.osStores, Code store.code)
    (hruntime : ∀ outcome ∈ input.runtimeStores, Code outcome.code)
    (he : Truststore.crossCheck ext input = some findings) (h : finding ∈ findings) :
    Emitted ext Code Protocol finding := by
  obtain ⟨publicIndex, -, he⟩ := Option.bind_eq_some_iff.mp he
  obtain ⟨runtimes, hruntimes, he⟩ := Option.bind_eq_some_iff.mp he
  cases he
  simp only [List.mem_append] at h
  rcases h with (h | h) | h
  · rcases List.mem_append.mp h with h | h
    · obtain ⟨store, hm, hstore⟩ := List.mem_filterMap.mp h
      exact .osStore hstore (hos store hm)
    · split_ifs at h
      · rw [List.mem_singleton.mp h]
        exact .unsupportedPlatform
      · exact absurd h List.not_mem_nil
  · obtain ⟨said, hsaid, h⟩ := List.mem_flatten.mp h
    obtain ⟨runtime, -, hfound⟩ := (OptionMap.mem_of_mapM_eq_some hruntimes said).mp hsaid
    exact emitted_of_mem_runtimeFindings
      (fun outcome hm => hruntime outcome (List.mem_of_mem_filter hm)) hfound h
  · split_ifs at h
    · rw [List.mem_singleton.mp h]
      exact .indeterminate _
    · exact absurd h List.not_mem_nil

end Truststore
end Portcall
