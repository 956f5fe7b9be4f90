import Portcall.Proxy.Partition
import Portcall.Run.Conduct

/-! The `proxy` probe while it runs: it asks for a script once, for a host's addresses once, and then
the script and the proxies one after the other. -/
namespace Portcall.Concurrent
open Threads Net
variable {ext : NetExternals} {machine : Machine} {loaded : LoadedProfile ext.toExternals}

section Script
variable {scriptText : String}

lemma evaluatePac_eq {engine engine' : Proxy.PacEngine} {call call' : Proxy.PacCall}
    (hscript : call.scriptText = call'.scriptText) (hengine : engine call = engine' call') :
    Proxy.evaluatePac engine call = Proxy.evaluatePac engine' call' := by
  rw [Proxy.evaluatePac, Proxy.evaluatePac, hscript, hengine]

lemma namedProxy_eq {call : Proxy.PacCall} {answer : Option (Option String)} {via : HostPort}
    (h : Proxy.evaluatePac (fun _ => answer) call = .proxy via) :
    namedProxy call answer = some via := by
  rw [namedProxy, h]

/-- A verdict some answer of the script gives, to a question asked with these lookups. -/
def AnsweredBy (machine : Machine) (scriptText : String) (resolver : DnsResolver) (s : NetState)
    (endpoint : Endpoint) (verdict : Proxy.PacVerdict) : Prop :=
  (∃ now answer, verdict = Proxy.evaluatePac (fun _ => answer) (pacCall machine scriptText endpoint
    (resolvedTarget endpoint.host (resolver endpoint.host)) now)) ∧
    ∀ via, verdict = .proxy via → via ∈ s.named

/-- Answers to questions that are told apart by the clock make a script. -/
lemma exists_engine {resolver : DnsResolver} {s : NetState} {endpoints : List Endpoint}
    {verdicts : List Proxy.PacVerdict}
    (h : List.Forall₂ (AnsweredBy machine scriptText resolver s) endpoints verdicts)
    (hnodup : endpoints.Nodup) :
    ∃ (engine : Proxy.PacEngine) (clock : Endpoint → ℤ), verdicts = endpoints.map fun endpoint =>
      Proxy.evaluatePac engine (pacCall machine scriptText endpoint
        (resolvedTarget endpoint.host (resolver endpoint.host)) (clock endpoint)) := by
  let verdictOf (endpoint : Endpoint) (answer : Option (Option String)) : Proxy.PacVerdict :=
    Proxy.evaluatePac (fun _ => answer) (pacCall machine scriptText endpoint
      (resolvedTarget endpoint.host (resolver endpoint.host)) 0)
  have hverdicts : List.Forall₂ (fun endpoint verdict => ∃ answer : Option (Option String),
      verdict = verdictOf endpoint answer ∧ True) endpoints verdicts :=
    h.imp fun endpoint verdict hverdict => by
      obtain ⟨⟨now, answer, rfl⟩, -⟩ := hverdict
      exact ⟨answer, evaluatePac_eq rfl rfl, trivial⟩
  obtain ⟨answers, rfl, -⟩ := @exists_answers _ _ _ _ id verdictOf (fun _ _ => True) _ _ hverdicts
    (by rwa [List.map_id]) fun _ => ⟨none, trivial⟩
  refine ⟨fun call => (endpoints[call.now.toNat]?).bind answers, fun endpoint =>
    (endpoints.idxOf endpoint : ℕ), List.map_congr_left fun endpoint hm => ?_⟩
  refine evaluatePac_eq rfl ?_
  change answers endpoint = (endpoints[((endpoints.idxOf endpoint : ℕ) : ℤ).toNat]?).bind answers
  rw [Int.toNat_natCast, List.getElem?_eq_getElem (List.idxOf_lt_length_of_mem hm),
    List.getElem_idxOf]
  rfl

end Script

section Rules
variable {halted : Prop} {stopped : Bool} {s : NetState} {scriptText : String}
  (hhalted : halted → s.stopped = true) (hstopped : stopped = true → s.stopped = true)
  (hadmitted : Admitted ext loaded.profile s)

section Lookups

/-- What a cache holds was answered. -/
def Remembers (ext : NetExternals) (stopped : Bool) (s : NetState) (cache : ResolvedCache) : Prop :=
  ∀ host resolved, cache.get? host = some resolved →
    ∃ outcome, resolved = resolvedTarget host outcome ∧ MetLookup ext stopped s host outcome

lemma Remembers.mono {cache : ResolvedCache} {s' : NetState} (h : Remembers ext stopped s cache)
    (hle : s ≤ s') : Remembers ext stopped s' cache := by
  intro host resolved hget
  obtain ⟨outcome, hresolved, hmet⟩ := h host resolved hget
  exact ⟨outcome, hresolved, hmet.1.mono hle, hmet.2⟩

include hstopped

lemma holds_resolveForPac {cache : ResolvedCache} {host : String}
    (h : s.guard.isHostAllowed ext.toExternals host = true)
    (hcache : Remembers ext stopped s cache) :
    Holds (network ext) (Conduct ext (Discovered ext machine loaded.profile) halted)
      (resolveForPac ext cache host) (fun found s' => Remembers ext stopped s' found.2 ∧
        found.2.get? host = some found.1 ∧
        ∀ other resolved, cache.get? other = some resolved → found.2.get? other = some resolved) s := by
  unfold resolveForPac
  cases hget : cache.get? host with
  | some resolved => exact holds_pure fun t ht => ⟨hcache.mono ht, hget, fun _ _ => id⟩
  | none =>
    refine (holds_resolveWithin h).bind network_grows fun outcome s₁ h₁ houtcome =>
      holds_pure fun t ht => ⟨?_, by simp, fun other resolved hother => ?_⟩
    · intro other resolved hother
      rw [InsertionMap.get?_upsert] at hother
      split_ifs at hother with heq
      · cases hother
        subst heq
        refine ⟨outcome, rfl, (houtcome t ht).1, fun hstop => ?_⟩
        obtain ⟨elapsedMs, rfl⟩ := (houtcome t ht).2 (hstopped hstop)
        rfl
      · exact hcache.mono (h₁.trans ht) other resolved hother
    · rw [InsertionMap.get?_upsert, if_neg fun heq => by rw [heq, hget] at hother; cases hother]
      exact hother

/-- Every endpoint has a verdict of its own, by lookups that answer each host once. -/
lemma holds_askScript {endpoints : List Endpoint}
    (h : ∀ endpoint ∈ endpoints, s.guard.isHostAllowed ext.toExternals endpoint.host = true)
    {cache : ResolvedCache} (hcache : Remembers ext stopped s cache) :
    Holds (network ext) (Conduct ext (Discovered ext machine loaded.profile) halted)
      (askScript ext machine scriptText cache endpoints) (fun verdicts s' =>
        ∃ resolver : DnsResolver, (∀ host, MetLookup ext stopped s' host (resolver host)) ∧
          (∀ host resolved, cache.get? host = some resolved →
            resolved = resolvedTarget host (resolver host)) ∧
          List.Forall₂ (AnsweredBy machine scriptText resolver s') endpoints verdicts) s := by
  induction endpoints generalizing cache s with
  | nil =>
    refine holds_pure fun t ht => ?_
    have hsilent := @met_silent ext stopped t fun hstop => ht.2.1 (hstopped hstop)
    have hall : ∀ host, ∃ outcome, MetLookup ext stopped t host outcome ∧
        ∀ resolved, cache.get? host = some resolved → resolved = resolvedTarget host outcome := by
      intro host
      cases hget : cache.get? host with
      | none => exact ⟨_, hsilent.dns host, fun _ hsome => by cases hsome⟩
      | some resolved =>
        obtain ⟨outcome, hresolved, hmet⟩ := hcache.mono ht host resolved hget
        exact ⟨outcome, hmet, fun _ hsome => by cases hsome; exact hresolved⟩
    choose resolver hmet hresolved using hall
    exact ⟨resolver, hmet, hresolved, .nil⟩
  | cons endpoint endpoints ih =>
    rw [List.forall_mem_cons] at h
    refine (holds_resolveForPac hstopped h.1 hcache).bind network_grows fun found s₁ h₁ hfound => ?_
    obtain ⟨hremembers, hget, hkept⟩ := hfound s₁ le_rfl
    refine holds_call_bind fun s₂ h₂ => ⟨trivial, fun now s₃ hreply => ?_⟩
    have h₃ := h₂.trans (network_grows.step hreply)
    refine holds_call_bind fun s₄ h₄ => ⟨trivial, fun answer s₅ hreply => ?_⟩
    have h₅ := (h₃.trans h₄).trans (network_grows.step hreply)
    have hallowed := fun other hm => NetworkGuard.isHostAllowed_of_le (h₁.trans h₅).1 (h.2 other hm)
    refine (ih (fun hstop => (h₁.trans h₅).2.1 (hstopped hstop)) hallowed
      (hremembers.mono h₅)).bind network_grows fun verdicts s₆ h₆ hverdicts => holds_pure fun t ht => ?_
    obtain ⟨resolver, hmet, hresolved, hall⟩ := hverdicts t ht
    refine ⟨resolver, hmet, fun host resolved hhost => hresolved _ _ (hkept _ _ hhost),
      .cons ⟨⟨now, answer, ?_⟩, fun via hvia => ?_⟩ hall⟩
    · rw [← hresolved _ _ hget]
    · obtain rfl : s₅ = _ := hreply
      refine NetState.named_mono (h₆.trans ht) (List.mem_append_right _ ?_)
      rw [namedProxy_eq hvia]
      exact List.mem_singleton_self via

end Lookups

section Routes
include hhalted hstopped

lemma holds_probeRoute {route : Proxy.ProxyRoute}
    (h : Discovered ext machine loaded.profile s route.proxy) :
    Holds (network ext) (Conduct ext (Discovered ext machine loaded.profile) halted)
      (probeRoute ext route) (fun outcome s' => ∃ detail,
        outcome = Proxy.probeRoute (fun _ _ => detail) route ∧
          MetConnect ext stopped s' route.proxy detail) s := by
  refine (holds_connectProxy hhalted fun s' hle => h.mono hle).bind network_grows
    fun detail s₁ _ hdetail => holds_pure fun t ht => ⟨detail, rfl, (hdetail t ht).1, fun hstop => ?_⟩
  obtain ⟨failed, hfailed, -, hby⟩ := (hdetail t ht).2 (hstopped hstop)
  rw [hfailed, ProxyConnectAttempt.endedByRun, hby]
  rfl

/-- The routes are asked for one after the other, each once. -/
lemma holds_probeRoutes {routes : List Proxy.ProxyRoute}
    (h : ∀ route ∈ routes, Discovered ext machine loaded.profile s route.proxy)
    (hnodup : (routes.map Proxy.ProxyRoute.target).Nodup) :
    Holds (network ext) (Conduct ext (Discovered ext machine loaded.profile) halted)
      (probeRoutes ext routes) (fun findings s' => ∃ connect : ProxyConnect,
        (∀ proxy target, MetConnect ext stopped s' proxy (connect proxy target)) ∧
          findings = Proxy.probeRoutes ext.toExternals connect routes) s := by
  have hroutes := fun route hm s' (hle : s ≤ s') => @holds_probeRoute ext machine loaded halted
    stopped s' (fun hhalt => hle.2.1 (hhalted hhalt)) (fun hstop => hle.2.1 (hstopped hstop)) route
    ((h route hm).mono hle)
  refine (holds_inOrder network_grows hroutes).bind network_grows fun outcomes s₁ h₁ houtcomes =>
    holds_pure fun t ht => ?_
  have hsilent := @met_silent ext stopped t fun hstop => ((h₁.trans ht).2.1 (hstopped hstop))
  let pairOf (route : Proxy.ProxyRoute) : HostPort × HostPort := (route.proxy, route.target)
  have hpairs : (routes.map pairOf).Nodup := by
    refine List.Nodup.of_map Prod.snd ?_
    rw [List.map_map]
    exact hnodup
  obtain ⟨details, rfl, hdetails⟩ := @exists_answers _ _ _ _ pairOf
    (fun route detail => Proxy.probeRoute (fun _ _ => detail) route)
    (fun pair detail => MetConnect ext stopped t pair.1 detail) _ _ (houtcomes t ht) hpairs
    fun pair => ⟨_, hsilent.connect pair.1 pair.2⟩
  exact ⟨fun proxy target => details (proxy, target), fun proxy target => hdetails (proxy, target),
    rfl⟩

end Routes

end Rules

section Targets

lemma nodup_routed : (Proxy.routedEndpoints ext.toExternals (offline machine)
    loaded.profile).Nodup := by
  have hall : loaded.profile.endpoints.Nodup := List.Nodup.of_map _ loaded.keys_nodup
  unfold Proxy.routedEndpoints
  exact hall.filter _

/-- The pairs of some endpoints of a profile make routes to as many targets. -/
lemma nodup_targets {pairs : List (HostPort × Endpoint)} {endpoints : List Endpoint}
    (hpairs : (pairs.map Prod.snd).Sublist endpoints)
    (hendpoints : endpoints.Sublist loaded.profile.endpoints) :
    ((Proxy.addRoutes ext.toExternals pairs).map Proxy.ProxyRoute.target).Nodup := by
  have hseparate := ((Proxy.separate_of_loaded loaded).sublist hendpoints).sublist hpairs
  rw [Proxy.addRoutes_eq_map hseparate, List.map_map]
  refine List.Nodup.of_map (Proxy.targetKey ext.toExternals) ?_
  rw [List.map_map]
  have hnodup := hseparate.nodup
  rwa [List.map_map] at hnodup

lemma eq_proxy_of_proxyPair? {endpoint : Endpoint} {verdict : Proxy.PacVerdict}
    {pair : HostPort × Endpoint} (h : Proxy.proxyPair? endpoint verdict = some pair) :
    verdict = .proxy pair.1 := by
  cases verdict <;> cases h
  rfl

lemma filterMap_zip_map {β : Type} {endpoints : List Endpoint}
    {verdictOf : Endpoint → Proxy.PacVerdict} (f : Endpoint → Proxy.PacVerdict → Option β) :
    (endpoints.zip (endpoints.map verdictOf)).filterMap (fun pair => f pair.1 pair.2) =
      endpoints.filterMap fun endpoint => f endpoint (verdictOf endpoint) := by
  induction endpoints with
  | nil => rfl
  | cons endpoint endpoints ih =>
    rw [List.map_cons, List.zip_cons_cons, List.filterMap_cons, List.filterMap_cons, ih]

end Targets

section Legs
variable {halted : Prop} {stopped : Bool} {s : NetState} {scriptText : String}
  (hhalted : halted → s.stopped = true) (hstopped : stopped = true → s.stopped = true)
include hhalted hstopped

/-- The leg of a script, which names the proxies of its routes. -/
lemma holds_scriptLeg (hadmitted : Admitted ext loaded.profile s) : Holds (network ext)
    (Conduct ext (Discovered ext machine loaded.profile) halted)
    (scriptLeg ext machine loaded.profile scriptText)
    (fun findings s' => ∃ answers : Answers, answers.Met ext stopped s' ∧
      findings = Proxy.legFindings ext.toExternals (answers.run loaded machine).proxyContext
        loaded.profile (.script scriptText)) s := by
  set endpoints := Proxy.routedEndpoints ext.toExternals (offline machine) loaded.profile
    with hendpoints
  have hhosts : ∀ endpoint ∈ endpoints,
      s.guard.isHostAllowed ext.toExternals endpoint.host = true := fun endpoint hm =>
    NetworkGuard.isHostAllowed_of_isAllowed (hadmitted.endpoint (List.mem_of_mem_filter hm))
  have hcache : Remembers ext stopped s .empty := fun host resolved hget => by cases hget
  refine (holds_askScript hstopped hhosts hcache).bind network_grows fun verdicts s₁ h₁ hverdicts => ?_
  obtain ⟨resolver, hresolver, -, hall⟩ := hverdicts s₁ le_rfl
  obtain ⟨engine, clock, rfl⟩ := exists_engine hall nodup_routed
  set verdictOf := fun endpoint => Proxy.evaluatePac engine (pacCall machine scriptText endpoint
    (resolvedTarget endpoint.host (resolver endpoint.host)) (clock endpoint)) with hverdictOf
  have hnamed : ∀ endpoint ∈ endpoints, ∀ via, verdictOf endpoint = .proxy via → via ∈ s₁.named := by
    intro endpoint hm
    have hanswered := List.forall₂_map_right_iff.mp hall
    exact (List.forall₂_same.mp hanswered endpoint hm).2
  dsimp only
  rw [filterMap_zip_map Proxy.proxyPair?]
  have hdiscovered : ∀ route ∈ Proxy.addRoutes ext.toExternals (endpoints.filterMap fun endpoint =>
      Proxy.proxyPair? endpoint (verdictOf endpoint)),
      Discovered ext machine loaded.profile s₁ route.proxy := by
    intro route hroute
    obtain ⟨pair, hpair, hvia⟩ := Proxy.proxy_of_mem_addRoutes hroute
    obtain ⟨endpoint, hm, hverdict⟩ := List.mem_filterMap.mp hpair
    rw [hvia]
    exact .named (hnamed endpoint hm _ (eq_proxy_of_proxyPair? hverdict))
  have htargets := @nodup_targets ext loaded _ endpoints
    (Proxy.map_snd_filterMap_sublist (f := fun endpoint => Proxy.proxyPair? endpoint
      (verdictOf endpoint)) (fun _ _ => Proxy.snd_of_proxyPair?) endpoints) List.filter_sublist
  refine (holds_probeRoutes (fun hhalt => h₁.2.1 (hhalted hhalt)) (fun hstop => h₁.2.1
    (hstopped hstop)) hdiscovered htargets).bind network_grows fun findings s₂ h₂ hfindings =>
      holds_pure fun t ht => ?_
  obtain ⟨connect, hconnect, rfl⟩ := hfindings t ht
  have hsilent := @met_silent ext stopped t fun hstop => ((h₁.trans (h₂.trans ht)).2.1
    (hstopped hstop))
  refine ⟨{ silent stopped with
      pacResolver := resolver, engine := engine, clock := clock, connect := connect },
    { hsilent with
      pacDns := fun host => ⟨(hresolver host).1.mono (h₂.trans ht), (hresolver host).2⟩
      connect := hconnect }, ?_⟩
  rw [filterMap_zip_map Proxy.directFinding?, filterMap_zip_map Proxy.inconclusiveFinding?]
  rfl

lemma holds_envLeg : Holds (network ext)
    (Conduct ext (Discovered ext machine loaded.profile) halted)
    (legFindings ext machine loaded.profile .env)
    (fun findings s' => ∃ answers : Answers, answers.Met ext stopped s' ∧
      findings = Proxy.legFindings ext.toExternals (answers.run loaded machine).proxyContext
        loaded.profile .env) s := by
  set endpoints := Proxy.routedEndpoints ext.toExternals (offline machine) loaded.profile
    with hendpoints
  have hdiscovered : ∀ route ∈ Proxy.envRoutes ext.toExternals (offline machine) endpoints,
      Discovered ext machine loaded.profile s route.proxy := by
    intro route hroute
    obtain ⟨pair, hpair, hvia⟩ := Proxy.proxy_of_mem_addRoutes hroute
    obtain ⟨endpoint, -, hfound⟩ := List.mem_filterMap.mp hpair
    obtain ⟨proxy, hproxy, rfl⟩ := Option.map_eq_some_iff.mp hfound
    rw [hvia]
    exact .routed hproxy
  have htargets := @nodup_targets ext loaded _ endpoints (@Proxy.envPairs_snd_sublist
    ext.toExternals (offline machine) endpoints) List.filter_sublist
  refine (holds_probeRoutes hhalted hstopped hdiscovered htargets).bind network_grows
    fun findings s₁ h₁ hfindings => holds_pure fun t ht => ?_
  obtain ⟨connect, hconnect, rfl⟩ := hfindings t ht
  have hsilent := @met_silent ext stopped t fun hstop => ((h₁.trans ht).2.1 (hstopped hstop))
  exact ⟨{ silent stopped with connect := connect }, { hsilent with connect := hconnect }, rfl⟩

/-- Whatever leg the routes come from. -/
lemma holds_legFindings {leg : Proxy.DiscoveryLeg} (hadmitted : Admitted ext loaded.profile s) :
    Holds (network ext) (Conduct ext (Discovered ext machine loaded.profile) halted)
      (legFindings ext machine loaded.profile leg)
      (fun findings s' => ∃ answers : Answers, answers.Met ext stopped s' ∧
        findings = Proxy.legFindings ext.toExternals (answers.run loaded machine).proxyContext
          loaded.profile leg) s := by
  have hsilent : ∀ t, s ≤ t → (silent stopped).Met ext stopped t := fun t ht =>
    met_silent fun hstop => ht.2.1 (hstopped hstop)
  cases leg with
  | script scriptText => exact holds_scriptLeg hhalted hstopped hadmitted
  | env => exact holds_envLeg hhalted hstopped
  | pacFetchFailed url outcome => exact holds_pure fun t ht => ⟨_, hsilent t ht, rfl⟩
  | wpadFailed outcome =>
    unfold legFindings
    dsimp only
    split_ifs with hphase
    · exact holds_pure fun t ht => ⟨_, hsilent t ht, (if_pos hphase).symm⟩
    · exact holds_pure fun t ht => ⟨_, hsilent t ht, (if_neg hphase).symm⟩

/-- One URL at most is asked for. -/
lemma holds_metFetch {url : String} (hadmits : ∀ source, pacSource ext url = some source →
    Discovered ext machine loaded.profile s source.endpoint) :
    Holds (network ext) (Conduct ext (Discovered ext machine loaded.profile) halted)
      (fetch ext url Proxy.maxScriptBytes) (fun outcome s' => ∃ fetcher : PacFetcher,
        (∀ url, MetFetch ext stopped s' url (fetcher url)) ∧ fetcher url = outcome) s := by
  classical
  refine Holds.weaken network_grows (holds_fetch hhalted fun source hsource s' hle =>
    (hadmits source hsource).mono hle) fun outcome t ht houtcome => ?_
  have hsilent := @met_silent ext stopped t fun hstop => ht.2.1 (hstopped hstop)
  refine ⟨Function.update (silent stopped).pacFetcher url outcome, fun other => ?_,
    Function.update_self ..⟩
  by_cases hother : other = url
  · subst hother
    rw [Function.update_self]
    refine ⟨houtcome.1, fun hstop hsource => ?_⟩
    obtain ⟨failed, hfailed, -, hby⟩ := houtcome.2 (hstopped hstop)
    rw [hfailed, PacFetchOutcome.endedByRun, hby hsource]
    rfl
  · rw [Function.update_of_ne hother]
    exact hsilent.fetch other

lemma holds_discover : Holds (network ext)
    (Conduct ext (Discovered ext machine loaded.profile) halted)
    (discover ext machine loaded.profile) (fun leg s' => ∃ fetcher : PacFetcher,
      (∀ url, MetFetch ext stopped s' url (fetcher url)) ∧
        leg = Proxy.discoveryLeg ext.toExternals { offline machine with fetcher := fetcher }
          loaded.profile) s := by
  unfold discover
  cases hurl : loaded.profile.pacUrl with
  | some url =>
    refine (holds_metFetch hhalted hstopped fun source hsource =>
      .configured hurl hsource).bind network_grows fun outcome s₁ _ houtcome => ?_
    cases outcome <;> refine holds_pure fun t ht => ?_
    all_goals
      obtain ⟨fetcher, hfetcher, hfound⟩ := houtcome t ht
      refine ⟨fetcher, hfetcher, ?_⟩
      rw [Proxy.discoveryLeg, hurl]
      dsimp only
      rw [hfound]
  | none =>
    dsimp only
    split_ifs with hconfigured
    · refine holds_pure fun t ht => ⟨_, (met_silent fun hstop => ht.2.1 (hstopped hstop)).fetch, ?_⟩
      rw [Proxy.discoveryLeg, hurl]
      exact (if_pos hconfigured).symm
    · refine (holds_metFetch hhalted hstopped fun source hsource =>
        .wpad hurl hsource).bind network_grows fun outcome s₁ _ houtcome => ?_
      cases outcome <;> refine holds_pure fun t ht => ?_
      all_goals
        obtain ⟨fetcher, hfetcher, hfound⟩ := houtcome t ht
        refine ⟨fetcher, hfetcher, ?_⟩
        rw [Proxy.discoveryLeg, hurl]
        refine Eq.trans ?_ (if_neg hconfigured).symm
        dsimp only
        rw [hfound]

/-- The script, the lookups it needs and the routes it names, one after the other. -/
theorem holds_proxy (hadmitted : Admitted ext loaded.profile s) : Holds (network ext)
    (Conduct ext (Discovered ext machine loaded.profile) halted)
    (NetworkProbe.proxy.program ext machine loaded.profile)
    (fun result s' => Explained ext machine loaded stopped .proxy result s') s := by
  have hproxy : Holds (network ext) (Conduct ext (Discovered ext machine loaded.profile) halted)
      (runProxy ext machine loaded.profile) (fun findings s' => ∃ answers : Answers,
        answers.Met ext stopped s' ∧ findings = Proxy.runProxy ext.toExternals
          (answers.run loaded machine).proxyContext loaded.profile) s := by
    unfold runProxy
    split_ifs with hempty
    · refine holds_pure fun t ht =>
        ⟨silent stopped, met_silent fun hstop => ht.2.1 (hstopped hstop), ?_⟩
      rw [Proxy.runProxy, if_pos hempty]
    · refine (holds_discover hhalted hstopped).bind network_grows fun leg s₁ h₁ hleg => ?_
      refine (holds_legFindings (fun hhalt => h₁.2.1 (hhalted hhalt)) (fun hstop => h₁.2.1
        (hstopped hstop)) (hadmitted.mono h₁)).bind network_grows fun findings s₂ h₂ hfindings =>
          holds_pure fun t ht => ?_
      obtain ⟨fetcher, hfetcher, hdiscovered⟩ := hleg t (h₂.trans ht)
      obtain ⟨answers, hmet, rfl⟩ := hfindings t ht
      refine ⟨{ answers with pacFetcher := fetcher }, { hmet with fetch := hfetcher }, ?_⟩
      rw [Proxy.runProxy, if_neg hempty, hdiscovered]
      refine congrArg _ ?_
      change _ = Proxy.legFindings ext.toExternals _ loaded.profile
        (Proxy.discoveryLeg ext.toExternals { offline machine with fetcher := fetcher }
          loaded.profile)
      cases Proxy.discoveryLeg ext.toExternals { offline machine with fetcher := fetcher }
        loaded.profile <;> rfl
  refine hproxy.bind network_grows fun findings s₁ _ hfindings => holds_pure fun t ht => ?_
  obtain ⟨answers, hmet, rfl⟩ := hfindings t ht
  exact explained_of_answers hmet rfl

end Legs
end Portcall.Concurrent
