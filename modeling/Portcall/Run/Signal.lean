import Portcall.Proxy.Accounting
import Portcall.Run.Derivation

/-! What a run says of the outcomes its own clock ended: nothing but `unknown`, unless one of three
consumers of an outcome forgets to ask whose clock it was. -/
namespace Portcall
variable {ext : Externals} {run : Run ext}

section Consumers
variable {finding : Finding}

lemma severity_checkHost {target : Dns.ProfileHost} {outcome : DnsOutcome}
    (h : outcome.endedByRun = true) (hm : finding ∈ Dns.checkHost target outcome) :
    finding.severity = .unknown := by
  cases outcome with
  | ok addresses elapsedMs => cases h
  | failed outcome =>
    obtain rfl := List.mem_singleton.mp hm
    rw [Dns.verdict, if_pos (of_decide_eq_true h)]
    rfl

lemma severity_dohFinding {host : String} {outcome : EndpointAttempt}
    (h : outcome.endedByRun = true) : (Dns.dohFinding host outcome).severity = .unknown := by
  cases outcome with
  | ok addresses tlsProtocol status timing => cases h
  | failed attempt =>
    have hdoh : Dns.evaluateDoh (.failed attempt) = .indeterminateDeadline := by
      rw [Dns.evaluateDoh, if_pos (of_decide_eq_true h)]
    unfold Dns.dohFinding
    rw [hdoh]
    rfl

lemma severity_judge {endpoint : Endpoint} {outcome : EndpointAttempt}
    (h : outcome.endedByRun = true) : (Egress.judge endpoint outcome).severity = .unknown := by
  cases outcome with
  | ok addresses tlsProtocol status timing => cases h
  | failed attempt =>
    rw [Egress.judge, if_pos (of_decide_eq_true h)]
    rfl

/-- A capture the run ended adds one finding that decides nothing, and no chain. -/
lemma checkPath_of_endedByRun {target : Tls.TlsTarget} {policy : TlsPolicy}
    {proxy : Option HostPort} {options : Tls.ChainEvaluationOptions} {path : Via}
    {outcome : TlsChainOutcome} {result : Tls.PathResult} (h : outcome.endedByRun = true)
    (hresult : Tls.checkPath ext target policy proxy options path outcome = some result) :
    (∀ finding ∈ result.findings, finding.severity = .unknown) ∧ result.chain = none := by
  cases outcome with
  | ok chain => cases h
  | failed failed =>
    cases hresult
    refine ⟨fun finding hm => ?_, rfl⟩
    obtain rfl := List.mem_singleton.mp hm
    rw [Tls.captureFailed, of_decide_eq_true h]
    rfl

lemma compareChains_eq_nil {direct proxied : Option Tls.CapturedChain} {name : String}
    (h : direct = none ∨ proxied = none) : Tls.compareChains ext direct proxied name = [] := by
  rcases h with rfl | rfl
  · rfl
  · cases direct <;> rfl

end Consumers

section Routes

lemma Run.nodup_routed : (run.routed.map Proxy.targetOf).Nodup := by
  apply List.Nodup.of_map (Proxy.targetKey ext)
  rw [List.map_map]
  exact ((Proxy.separate_of_loaded run.loaded).sublist List.filter_sublist).nodup

/-- The pairs of proxy and endpoint the leg in effect makes routes of. -/
def Run.pairs (run : Run ext) : List (HostPort × Endpoint) :=
  match run.leg with
  | .script scriptText => run.routed.filterMap fun endpoint =>
    Proxy.proxyPair? endpoint (Proxy.pacVerdict run.proxyContext scriptText endpoint)
  | .env => Proxy.envPairs ext run.proxyContext run.routed
  | .pacFetchFailed .. | .wpadFailed _ => []

lemma Run.pairs_snd_sublist : (run.pairs.map Prod.snd).Sublist run.routed := by
  unfold Run.pairs
  split
  · exact Proxy.map_snd_filterMap_sublist (fun _ _ => Proxy.snd_of_proxyPair?) _
  · exact Proxy.envPairs_snd_sublist _
  · exact List.nil_sublist _
  · exact List.nil_sublist _

lemma Run.routes_eq_map :
    run.routes = run.pairs.map fun pair => ⟨pair.1, Proxy.targetOf pair.2, pair.2.required⟩ := by
  have hsep := ((Proxy.separate_of_loaded run.loaded).sublist List.filter_sublist).sublist
    (@Run.pairs_snd_sublist ext run)
  rw [← Proxy.addRoutes_eq_map hsep]
  unfold Run.routes Run.pairs
  cases run.leg <;> rfl

lemma Run.nodup_targets : (run.routes.map Proxy.ProxyRoute.target).Nodup := by
  have htargets : run.routes.map Proxy.ProxyRoute.target =
      (run.pairs.map Prod.snd).map Proxy.targetOf := by
    rw [Run.routes_eq_map, List.map_map, List.map_map]
    rfl
  rw [htargets]
  exact Run.nodup_routed.sublist (Run.pairs_snd_sublist.map _)

lemma bar_not_mem_host_of_parseProxyUrl (hsafe : Proxy.DelimiterSafe ext) {raw : String}
    {proxy : HostPort} (h : parseProxyUrl ext raw = some proxy) : '|' ∉ proxy.host.toList := by
  obtain ⟨url, hurl, hproxy⟩ := Option.bind_eq_some_iff.mp h
  split_ifs at hproxy <;> cases hproxy <;> exact hsafe.hostname _ _ hurl

/-- A script names proxies without a colon, the environment proxies without a bar. -/
lemma Run.hostsSafe (hsafe : Proxy.DelimiterSafe ext) : Proxy.HostsSafe run.routes := by
  rw [Run.routes_eq_map]
  unfold Run.pairs
  split
  · refine Or.inl fun route hm => ?_
    obtain ⟨pair, hpair, rfl⟩ := List.mem_map.mp hm
    obtain ⟨endpoint, -, hproxy⟩ := List.mem_filterMap.mp hpair
    cases hv : Proxy.pacVerdict run.proxyContext _ endpoint <;> rw [hv] at hproxy <;> cases hproxy
    exact Proxy.colon_not_mem_host_of_evaluatePac hv
  · refine Or.inr fun route hm => ?_
    obtain ⟨pair, hpair, rfl⟩ := List.mem_map.mp hm
    obtain ⟨endpoint, -, hpair⟩ := List.mem_filterMap.mp hpair
    obtain ⟨proxy, hproxy, rfl⟩ := Option.map_eq_some_iff.mp hpair
    obtain ⟨raw, -, hraw⟩ := Option.bind_eq_some_iff.mp hproxy
    exact bar_not_mem_host_of_parseProxyUrl hsafe hraw
  · exact Or.inl fun route hm => absurd hm List.not_mem_nil
  · exact Or.inl fun route hm => absurd hm List.not_mem_nil

/-- The finding that lists a route decides something exactly when the route's attempt does. -/
lemma Run.severity_cluster_iff (hsafe : Proxy.DelimiterSafe ext) {route : Proxy.ProxyRoute}
    {members : Proxy.ProxyCluster} (hroute : route ∈ run.routes) (hmembers : members ∈ run.clusters)
    (htarget : route.target ∈ members.targets) :
    (Proxy.connectVerdictFinding members).severity = .unknown ↔
      Proxy.Undecided (run.connect route.proxy route.target).attempt := by
  rw [Proxy.severity_connectVerdictFinding_iff, Proxy.undecided_iff,
    Proxy.verdict_of_mem_targets hsafe (Run.hostsSafe hsafe) Run.nodup_targets hroute hmembers
      htarget]

/-- An endpoint a script sends through a proxy is a route of the run. -/
lemma Run.route_of_pacVerdict {scriptText : String} {endpoint : Endpoint} {via : HostPort}
    (hleg : run.leg = .script scriptText) (hendpoint : endpoint ∈ run.routed)
    (hvia : Proxy.pacVerdict run.proxyContext scriptText endpoint = .proxy via) :
    ⟨via, Proxy.targetOf endpoint, endpoint.required⟩ ∈ run.routes := by
  rw [Run.routes_eq_map, List.mem_map]
  refine ⟨(via, endpoint), ?_, rfl⟩
  unfold Run.pairs
  rw [hleg]
  exact List.mem_filterMap.mpr ⟨endpoint, hendpoint, by rw [hvia]; rfl⟩

/-- Some cluster of a run lists each of its routes. -/
lemma Run.exists_cluster {route : Proxy.ProxyRoute} (hroute : route ∈ run.routes) :
    ∃ members ∈ run.clusters, route.target ∈ members.targets :=
  Proxy.mem_targets_iff.mpr ⟨_, List.mem_map_of_mem hroute, by rw [Proxy.route_probeRoute]⟩

end Routes

section Heard

/-- Whatever is derived from an outcome the run's clock ended is `unknown`. -/
def OnlyUnknown (run : Run ext) : Prop :=
  ∀ outcome finding, Derives run outcome finding → outcome.endedByRun = true →
    finding.severity = .unknown

/-- A run gets a script, from the configured URL or from the `wpad` name. -/
def ObtainsScript (run : Run ext) (script : String) : Prop :=
  (∃ url elapsedMs, run.profile.pacUrl = some url ∧ run.pacFetcher url = .ok script elapsedMs) ∨
    run.profile.pacUrl = none ∧ Proxy.envProxyConfigured ext run.proxyContext = false ∧
      ∃ elapsedMs, run.pacFetcher Proxy.wpadUrl = .ok script elapsedMs

/-- Every outcome the run's clock ended reaches a consumer that asks whose clock it was, or one
whose finding is undecided all the same. -/
structure SignalHeard (run : Run ext) : Prop where
  configured : ∀ url, run.profile.pacUrl = some url → (run.pacFetcher url).endedByRun = false
  wpad : run.profile.pacUrl = none → Proxy.envProxyConfigured ext run.proxyContext = false →
    ∀ outcome, run.pacFetcher Proxy.wpadUrl = .failed outcome → outcome.phase = .dns →
      outcome.abortedBy ≠ some .runSignal
  lookup : ∀ script, ObtainsScript run script → ∀ endpoint ∈ run.routed,
    (run.pacResolver endpoint.host).endedByRun = true →
      Proxy.pacVerdict run.proxyContext script endpoint ≠ .direct ∧
        ∀ via, Proxy.pacVerdict run.proxyContext script endpoint = .proxy via →
          Proxy.Undecided (run.connect via (Proxy.targetOf endpoint)).attempt

lemma leg_eq_script_iff {script : String} : run.leg = .script script ↔ ObtainsScript run script := by
  unfold Run.leg Proxy.discoveryLeg ObtainsScript Run.proxyContext
  cases run.profile.pacUrl with
  | some url => cases hf : run.pacFetcher url <;> simp [hf]
  | none =>
    by_cases henv : Proxy.envProxyConfigured ext run.proxyContext = true
    · unfold Run.proxyContext at henv
      simp [henv]
    · unfold Run.proxyContext at henv
      cases hf : run.pacFetcher Proxy.wpadUrl <;> simp [henv, hf]

lemma leg_of_configured {url : String} {outcome : FailedFetch}
    (hurl : run.profile.pacUrl = some url) (hfetch : run.pacFetcher url = .failed outcome) :
    run.leg = .pacFetchFailed url outcome := by
  unfold Run.leg Proxy.discoveryLeg Run.proxyContext
  simp only [hurl, hfetch]

lemma leg_of_wpad {outcome : FailedFetch} (hurl : run.profile.pacUrl = none)
    (henv : Proxy.envProxyConfigured ext run.proxyContext = false)
    (hfetch : run.pacFetcher Proxy.wpadUrl = .failed outcome) : run.leg = .wpadFailed outcome := by
  unfold Run.proxyContext at henv
  unfold Run.leg Proxy.discoveryLeg Run.proxyContext
  simp [hurl, hfetch, henv]

lemma OnlyUnknown.configured (h : OnlyUnknown run) {url : String}
    (hurl : run.profile.pacUrl = some url) : (run.pacFetcher url).endedByRun = false := by
  by_contra hended
  rw [Bool.not_eq_false] at hended
  cases hfetch : run.pacFetcher url with
  | ok script elapsedMs =>
    rw [hfetch] at hended
    cases hended
  | failed outcome =>
    have hfinding : Proxy.pacFetchFailedFinding url outcome ∈
        Proxy.legFindings ext run.proxyContext run.profile run.leg := by
      rw [leg_of_configured hurl hfetch]
      exact List.mem_singleton_self _
    cases h _ _ (.configuredFetch hurl hfinding) hended

lemma OnlyUnknown.wpad (h : OnlyUnknown run) {outcome : FailedFetch}
    (hurl : run.profile.pacUrl = none)
    (henv : Proxy.envProxyConfigured ext run.proxyContext = false)
    (hfetch : run.pacFetcher Proxy.wpadUrl = .failed outcome) (hphase : outcome.phase = .dns) :
    outcome.abortedBy ≠ some .runSignal := by
  intro hsignal
  have hended : (run.pacFetcher Proxy.wpadUrl).endedByRun = true := by
    rw [hfetch]
    exact decide_eq_true hsignal
  have hfinding : Proxy.noneConfiguredFinding ∈
      Proxy.legFindings ext run.proxyContext run.profile run.leg := by
    rw [leg_of_wpad hurl henv hfetch, Proxy.legFindings, if_pos hphase]
    exact List.mem_singleton_self _
  cases h _ _ (.wpadFetch hurl henv hfinding) hended

lemma OnlyUnknown.lookup (hsafe : Proxy.DelimiterSafe ext) (h : OnlyUnknown run) {script : String}
    {endpoint : Endpoint} (hscript : ObtainsScript run script) (hendpoint : endpoint ∈ run.routed)
    (hended : (run.pacResolver endpoint.host).endedByRun = true) :
    Proxy.pacVerdict run.proxyContext script endpoint ≠ .direct ∧
      ∀ via, Proxy.pacVerdict run.proxyContext script endpoint = .proxy via →
        Proxy.Undecided (run.connect via (Proxy.targetOf endpoint)).attempt := by
  have hleg := leg_eq_script_iff.mpr hscript
  constructor
  · intro hdirect
    have hfinding : Proxy.directFinding? endpoint
        (Proxy.pacVerdict run.proxyContext script endpoint) =
          some (Proxy.pacDirectFinding endpoint) := by
      rw [hdirect]
      rfl
    cases h _ _ (.pacDirect hleg hendpoint hfinding) hended
  · intro via hvia
    have hroute := Run.route_of_pacVerdict hleg hendpoint hvia
    obtain ⟨members, hmembers, htarget⟩ := Run.exists_cluster hroute
    exact (Run.severity_cluster_iff hsafe hroute hmembers htarget).mp
      (h _ _ (.pacRoute hleg hendpoint hvia hmembers htarget) hended)

lemma severity_inconclusiveFinding? {endpoint : Endpoint} {verdict : Proxy.PacVerdict}
    {finding : Finding} (h : Proxy.inconclusiveFinding? endpoint verdict = some finding) :
    finding.severity = .unknown := by
  cases verdict <;> cases h <;> rfl

lemma direct_of_directFinding? {endpoint : Endpoint} {verdict : Proxy.PacVerdict}
    {finding : Finding} (h : Proxy.directFinding? endpoint verdict = some finding) :
    verdict = .direct := by
  cases verdict <;> cases h
  rfl

/-- A `wpad` fetch that the clock ended outside its lookup is reported as undecided. -/
lemma SignalHeard.severity_wpad (h : SignalHeard run) {finding : Finding}
    (hurl : run.profile.pacUrl = none)
    (henv : Proxy.envProxyConfigured ext run.proxyContext = false)
    (hended : (run.pacFetcher Proxy.wpadUrl).endedByRun = true)
    (hfinding : finding ∈ Proxy.legFindings ext run.proxyContext run.profile run.leg) :
    finding.severity = .unknown := by
  cases hfetch : run.pacFetcher Proxy.wpadUrl with
  | ok script elapsedMs =>
    rw [hfetch] at hended
    cases hended
  | failed outcome =>
    rw [hfetch] at hended
    have hphase : outcome.phase ≠ .dns := fun hphase =>
      h.wpad hurl henv outcome hfetch hphase (of_decide_eq_true hended)
    rw [leg_of_wpad hurl henv hfetch, Proxy.legFindings, if_neg hphase] at hfinding
    rw [List.mem_singleton.mp hfinding]
    rfl

/-- Where every aborted outcome is heard, no consumer decides anything by one. -/
lemma SignalHeard.severity_of_derives (hsafe : Proxy.DelimiterSafe ext) (h : SignalHeard run)
    {outcome : SeamOutcome} {finding : Finding} (hderives : Derives run outcome finding)
    (hended : outcome.endedByRun = true) : finding.severity = .unknown := by
  cases hderives with
  | lookup _ hfinding => exact severity_checkHost hended hfinding
  | doh _ => exact severity_dohFinding hended
  | egress _ => exact severity_judge hended
  | configuredFetch hurl _ =>
    exact absurd hended (by simp [SeamOutcome.endedByRun, h.configured _ hurl])
  | wpadFetch hurl henv hfinding => exact h.severity_wpad hurl henv hended hfinding
  | pacDirect hleg hendpoint hfinding =>
    have hnot := (h.lookup _ (leg_eq_script_iff.mp hleg) _ hendpoint hended).1
    exact absurd (direct_of_directFinding? hfinding) hnot
  | pacInconclusive _ _ hfinding => exact severity_inconclusiveFinding? hfinding
  | pacRoute hleg hendpoint hvia hmembers htarget =>
    have hroute := Run.route_of_pacVerdict hleg hendpoint hvia
    exact (Run.severity_cluster_iff hsafe hroute hmembers htarget).mpr
      ((h.lookup _ (leg_eq_script_iff.mp hleg) _ hendpoint hended).2 _ hvia)
  | connect hroute hmembers htarget =>
    exact (Run.severity_cluster_iff hsafe hroute hmembers htarget).mpr (Or.inl hended)
  | direct _ _ hresult hfinding => exact (checkPath_of_endedByRun hended hresult).1 _ hfinding
  | proxied _ _ _ hresult hfinding => exact (checkPath_of_endedByRun hended hresult).1 _ hfinding
  | compared _ _ _ hdirect hproxied houtcome hfinding =>
    have hnone : _ = none ∨ _ = none := houtcome.imp
      (fun he => (checkPath_of_endedByRun (he ▸ hended) hdirect).2)
      (fun he => (checkPath_of_endedByRun (he ▸ hended) hproxied).2)
    rw [compareChains_eq_nil hnone] at hfinding
    exact absurd hfinding List.not_mem_nil

/-- Of every outcome the run's clock ended, nothing but `unknown` is said, exactly when no fetch of
a configured script and no lookup of `wpad` was ended so, and no lookup made for a script was ended
so that the script nevertheless answers for. -/
theorem onlyUnknown_iff (hsafe : Proxy.DelimiterSafe ext) (run : Run ext) :
    OnlyUnknown run ↔ SignalHeard run := by
  constructor
  · intro h
    exact
      { configured := fun _ hurl => h.configured hurl
        wpad := fun hurl henv _ hfetch hphase => h.wpad hurl henv hfetch hphase
        lookup := fun _ hscript _ hendpoint hended => h.lookup hsafe hscript hendpoint hended }
  · intro h outcome finding hderives hended
    exact h.severity_of_derives hsafe hderives hended

end Heard

section Cancelled

/-- The parsers outside, on the one URL these runs configure. -/
def pacExternals : Externals where
  x509 _ := none
  x509Der _ := none
  parseUrl text :=
    if text = "http://pac.example.com/proxy.pac" then some ⟨"pac.example.com", "", "http:"⟩
    else none
  pathJoin _ parts := Text.join "/" parts
  unicodeLower := id

lemma delimiterSafe_pacExternals : Proxy.DelimiterSafe pacExternals where
  lower _ _ _ hm := hm
  hostname text url h := by
    unfold pacExternals at h
    dsimp only at h
    split_ifs at h
    cases h
    decide

/-- A profile of one endpoint and no script. -/
def plainProfile : LoadedProfile pacExternals where
  id := "plain"
  source := .file
  profile :=
    { name := "plain"
      endpoints := [⟨"api.example.com", 443, "api", true⟩]
      runtimes := [.node] }
  schema := by decide
  distinct := by decide

/-- The same profile, with a script configured. -/
def pacProfile : LoadedProfile pacExternals where
  id := "pac"
  source := .file
  profile := { plainProfile.profile with pacUrl := some "http://pac.example.com/proxy.pac" }
  schema := by decide
  distinct := by decide

/-- A script that sends everything directly. -/
def directScript : String := "function FindProxyForURL(url, host) \x7b return \"DIRECT\"; \x7d"

/-- A run on a machine without proxy variables whose clock ends every attempt; a script, when one
is fetched, sends everything directly. -/
def cancelledRun (loaded : LoadedProfile pacExternals) (fetch : PacFetchOutcome) :
    Run pacExternals where
  loaded
  env _ := none
  dnsResolver _ := .failed ⟨none, some .runSignal, 5⟩
  dohProber _ := .failed { phase := .dns, code := none, abortedBy := some .runSignal }
  egressProber _ := .failed { phase := .dns, code := none, abortedBy := some .runSignal }
  pacResolver _ := .failed ⟨none, some .runSignal, 5⟩
  pacFetcher _ := fetch
  connect _ _ := ⟨.failed ⟨.attempt .connect, none, none, some .runSignal, {}⟩, none⟩
  engine _ := some (some "DIRECT")
  myAddress := "127.0.0.1"
  clock _ := 0
  capturer _ _ := .failed ⟨.connect, none, some .runSignal⟩
  publicRootPems := []
  now := 0

/-- A run cancelled once `wpad` had resolved says `unknown` of all it was cancelled in. -/
theorem onlyUnknown_wpadResolved :
    OnlyUnknown (cancelledRun plainProfile (.failed ⟨.connect, none, some .runSignal, 5⟩)) :=
  (onlyUnknown_iff delimiterSafe_pacExternals _).mpr
    { configured := by
        intro url hurl
        cases hurl
      wpad := by
        intro _ _ outcome hfetch hphase
        cases hfetch
        cases hphase
      lookup := by
        rintro script (⟨url, _, hurl, -⟩ | ⟨-, -, _, hfetch⟩)
        · cases hurl
        · cases hfetch }

/-- A run cancelled while the configured script is fetched reports a degradation; one cancelled in
the lookup of `wpad`, that no proxy is configured; and one cancelled in a lookup made for a script,
what the script says without it. -/
theorem cancelled_runs_report :
    ¬OnlyUnknown (cancelledRun pacProfile (.failed ⟨.dns, none, some .runSignal, 5⟩)) ∧
      ¬OnlyUnknown (cancelledRun plainProfile (.failed ⟨.dns, none, some .runSignal, 5⟩)) ∧
      ¬OnlyUnknown (cancelledRun pacProfile (.ok directScript 5)) := by
  refine ⟨fun h => ?_, fun h => ?_, fun h => ?_⟩
  · have hderives : Derives (cancelledRun pacProfile (.failed ⟨.dns, none, some .runSignal, 5⟩))
        (.fetch (.failed ⟨.dns, none, some .runSignal, 5⟩))
        (Proxy.pacFetchFailedFinding "http://pac.example.com/proxy.pac"
          ⟨.dns, none, some .runSignal, 5⟩) := .configuredFetch rfl (List.mem_singleton_self _)
    cases h _ _ hderives rfl
  · have hderives : Derives (cancelledRun plainProfile (.failed ⟨.dns, none, some .runSignal, 5⟩))
        (.fetch (.failed ⟨.dns, none, some .runSignal, 5⟩)) Proxy.noneConfiguredFinding :=
      .wpadFetch rfl (by decide) (by
        rw [leg_of_wpad rfl (by decide) rfl]
        exact List.mem_singleton_self _)
    cases h _ _ hderives rfl
  · have hrouted : ⟨"api.example.com", 443, "api", true⟩ ∈
        (cancelledRun pacProfile (.ok directScript 5)).routed := by decide
    have hderives : Derives (cancelledRun pacProfile (.ok directScript 5))
        (.dns (.failed ⟨none, some .runSignal, 5⟩))
        (Proxy.pacDirectFinding ⟨"api.example.com", 443, "api", true⟩) :=
      .pacDirect (leg_eq_script_iff.mpr (Or.inl ⟨_, _, rfl, rfl⟩)) hrouted (by decide)
    cases h _ _ hderives rfl

end Cancelled
end Portcall
