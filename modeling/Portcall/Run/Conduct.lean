import Portcall.Run.Answers

/-! What each probe does while it runs, whatever runs beside it: it keeps to what it may do, and what
it reports is what it makes of answers that keep to the promises of the seams. -/
namespace Portcall.Concurrent
open Threads Net
variable {ext : NetExternals} {machine : Machine} {loaded : LoadedProfile ext.toExternals}

/-- The hosts that are admitted though no profile declares them. -/
inductive Discovered (ext : NetExternals) (machine : Machine) (profile : Profile) (s : NetState) :
    HostPort → Prop where
  | configured {url : String} {source : PacSource} (hurl : profile.pacUrl = some url)
      (hsource : pacSource ext url = some source) : Discovered ext machine profile s source.endpoint
  | wpad {source : PacSource} (hurl : profile.pacUrl = none)
      (hsource : pacSource ext Proxy.wpadUrl = some source) :
      Discovered ext machine profile s source.endpoint
  | routed {endpoint : Endpoint} {proxy : HostPort}
      (hproxy : Proxy.envProxyFor ext.toExternals (offline machine) endpoint = some proxy) :
      Discovered ext machine profile s proxy
  | captured {proxy : HostPort}
      (hproxy : Tls.discoverEnvProxy ext.toExternals machine.env = some proxy) :
      Discovered ext machine profile s proxy
  | named {proxy : HostPort} (hnamed : proxy ∈ s.named) : Discovered ext machine profile s proxy

lemma Discovered.mono {profile : Profile} {s s' : NetState} {endpoint : HostPort}
    (h : Discovered ext machine profile s endpoint) (hle : s ≤ s') :
    Discovered ext machine profile s' endpoint := by
  cases h with
  | configured hurl hsource => exact .configured hurl hsource
  | wpad hurl hsource => exact .wpad hurl hsource
  | routed hproxy => exact .routed hproxy
  | captured hproxy => exact .captured hproxy
  | named hnamed => exact .named (NetState.named_mono hle hnamed)

/-- All that the profile declares is admitted. -/
def Admitted (ext : NetExternals) (profile : Profile) (s : NetState) : Prop :=
  ∀ host port, NetworkGuard.Declares ext.toExternals profile host port →
    s.guard.isAllowed ext.toExternals host port = true

lemma Admitted.mono {profile : Profile} {s s' : NetState} (h : Admitted ext profile s)
    (hle : s ≤ s') : Admitted ext profile s' :=
  fun host port hdeclares => NetworkGuard.isAllowed_of_le hle.1 (h host port hdeclares)

section Declared
variable {profile : Profile} {s : NetState}

lemma Admitted.endpoint (h : Admitted ext profile s) {endpoint : Endpoint}
    (hm : endpoint ∈ profile.endpoints) :
    s.guard.isAllowed ext.toExternals endpoint.host endpoint.port = true :=
  h _ _ (Or.inl ⟨endpoint, hm, rfl, rfl⟩)

lemma Admitted.resolver (h : Admitted ext profile s) {resolver : String}
    (hm : resolver ∈ profile.dohResolvers) :
    s.guard.isAllowed ext.toExternals resolver Dns.dohPort = true :=
  h _ _ (Or.inr ⟨resolver, hm, rfl, rfl⟩)

lemma exists_endpoint_of_distinctHosts {endpoints : List Endpoint} {target : Dns.ProfileHost}
    (h : target ∈ Dns.distinctHosts endpoints) :
    ∃ endpoint ∈ endpoints, target.host = endpoint.host := by
  unfold Dns.distinctHosts at h
  exact InsertionMap.exists_of_feature _ _ _ h (fun _ => rfl) fun _ _ => rfl

lemma nodup_distinctHosts (endpoints : List Endpoint) :
    ((Dns.distinctHosts endpoints).map Dns.ProfileHost.host).Nodup := by
  unfold Dns.distinctHosts
  apply InsertionMap.nodup_map_values_group
  · exact fun _ => rfl
  · exact fun _ _ => rfl

def dialled (target : Tls.TlsTarget) : HostPort := ⟨target.host, target.port⟩

lemma exists_endpoint_of_tlsTargets {endpoints : List Endpoint} {target : Tls.TlsTarget}
    (h : target ∈ Tls.tlsTargets endpoints) :
    ∃ endpoint ∈ endpoints, target.host = endpoint.host ∧ target.port = endpoint.port := by
  unfold Tls.tlsTargets at h
  have hfeature : ∃ endpoint ∈ endpoints.filter fun endpoint => endpoint.port = Tls.tlsPort,
      dialled target = ⟨endpoint.host, endpoint.port⟩ :=
    InsertionMap.exists_of_feature _ _ _ h (fun _ => rfl) fun _ _ => rfl
  obtain ⟨endpoint, hm, hdialled⟩ := hfeature
  exact ⟨endpoint, (List.mem_filter.mp hm).1, congrArg HostPort.host hdialled,
    congrArg HostPort.port hdialled⟩

lemma nodup_tlsTargets (endpoints : List Endpoint) :
    ((Tls.tlsTargets endpoints).map dialled).Nodup := by
  refine List.Nodup.of_map (fun dialled : HostPort => dialled.host ++ ":" ++ toString dialled.port) ?_
  rw [List.map_map]
  unfold Tls.tlsTargets
  apply InsertionMap.nodup_map_values_group
  · exact fun _ => rfl
  · exact fun _ _ => rfl

lemma nodup_egressTargets : (loaded.profile.endpoints.map Egress.targetOf).Nodup := by
  refine List.Nodup.of_map
    (fun target : EndpointTarget => hostPortKey ext.toExternals target.host target.port) ?_
  rw [List.map_map]
  exact loaded.keys_nodup

end Declared

section Rules
variable {halted : Prop} {stopped : Bool} {s : NetState}
  (hhalted : halted → s.stopped = true) (hstopped : stopped = true → s.stopped = true)
  (hadmitted : Admitted ext loaded.profile s)

section Dns
include hstopped

lemma holds_checkHost {target : Dns.ProfileHost}
    (h : s.guard.isHostAllowed ext.toExternals target.host = true) :
    Holds (network ext) (Conduct ext (Discovered ext machine loaded.profile) halted)
      (checkHost ext target) (fun findings s' => ∃ outcome,
        findings = Dns.checkHost target outcome ∧ MetLookup ext stopped s' target.host outcome) s := by
  refine (holds_resolveWithin h).bind network_grows fun outcome s₁ _ houtcome =>
    holds_pure fun t ht => ⟨outcome, rfl, (houtcome t ht).1, fun hstop => ?_⟩
  obtain ⟨elapsedMs, rfl⟩ := (houtcome t ht).2 (hstopped hstop)
  rfl

include hhalted

lemma holds_metAttempt {options : AttemptOptions} {target : EndpointTarget}
    (h : s.guard.isAllowed ext.toExternals target.host target.port = true) :
    Holds (network ext) (Conduct ext (Discovered ext machine loaded.profile) halted)
      (attempt ext options target) (fun attempt s' => MetAttempt ext stopped s' target attempt) s := by
  refine Holds.weaken network_grows (holds_attempt hhalted h) fun attempt t _ hattempt =>
    ⟨hattempt.1, fun hstop => ?_⟩
  obtain ⟨failed, hfailed, -, hby⟩ := hattempt.2 (hstopped hstop)
  rw [hfailed, EndpointAttempt.endedByRun, hby]
  rfl

lemma holds_checkDoh {resolver : String}
    (h : s.guard.isAllowed ext.toExternals resolver Dns.dohPort = true) :
    Holds (network ext) (Conduct ext (Discovered ext machine loaded.profile) halted)
      (checkDoh ext resolver) (fun finding s' => ∃ attempt,
        finding = Dns.dohFinding resolver attempt ∧
          MetAttempt ext stopped s' ⟨resolver, Dns.dohPort, true⟩ attempt) s := by
  have hmet := @holds_metAttempt ext machine loaded halted stopped s hhalted hstopped dohOptions
    ⟨resolver, Dns.dohPort, true⟩ h
  exact hmet.bind network_grows fun attempt _ _ hattempt =>
    holds_pure fun t ht => ⟨attempt, rfl, hattempt t ht⟩

include hadmitted

lemma holds_runDns : Holds (network ext)
    (Conduct ext (Discovered ext machine loaded.profile) halted) (runDns ext loaded.profile)
    (fun findings s' => ∃ hosts resolvers, findings = List.flatten hosts ++ resolvers ∧
      List.Forall₂ (fun target findings => ∃ outcome, findings = Dns.checkHost target outcome ∧
        MetLookup ext stopped s' target.host outcome)
        (Dns.distinctHosts loaded.profile.endpoints) hosts ∧
      List.Forall₂ (fun resolver finding => ∃ attempt, finding = Dns.dohFinding resolver attempt ∧
        MetAttempt ext stopped s' ⟨resolver, Dns.dohPort, true⟩ attempt)
        loaded.profile.dohResolvers resolvers) s := by
  have hhosts := fun target hm => @holds_checkHost ext machine loaded halted stopped s hstopped
    target (by
      obtain ⟨endpoint, hendpoint, hhost⟩ := exists_endpoint_of_distinctHosts hm
      rw [hhost]
      exact NetworkGuard.isHostAllowed_of_isAllowed (hadmitted.endpoint hendpoint))
  have hresolvers := fun resolver hm => @holds_checkDoh ext machine loaded halted stopped s hhalted
    hstopped resolver (hadmitted.resolver hm)
  refine (holds_both network_grows (holds_concurrently network_grows hhosts)
    (holds_concurrently network_grows hresolvers)).bind network_grows fun values s₁ _ hvalues => ?_
  exact holds_pure fun t ht => ⟨values.1, values.2, rfl, hvalues t ht⟩

/-- Hosts and resolvers are asked side by side; no host is asked twice. -/
theorem holds_dns : Holds (network ext)
    (Conduct ext (Discovered ext machine loaded.profile) halted)
    (NetworkProbe.dns.program ext machine loaded.profile)
    (fun result s' => Explained ext machine loaded stopped .dns result s') s := by
  refine (holds_runDns hhalted hstopped hadmitted).bind network_grows fun findings s₁ h₁ hfindings =>
    holds_pure fun t ht => ?_
  obtain ⟨hosts, resolvers, rfl, hhosts, hresolvers⟩ := hfindings t ht
  have hsilent := @met_silent ext stopped t fun hstop => ((h₁.trans ht).2.1 (hstopped hstop))
  obtain ⟨resolver, rfl, hresolver⟩ := exists_answers hhosts (nodup_distinctHosts _)
    fun host => ⟨_, hsilent.dns host⟩
  rw [← List.flatMap_def]
  refine ⟨?_, ?_, fun _ => rfl⟩
  · intro hnodup
    have hinjective : Function.Injective fun host : String =>
        (⟨host, Dns.dohPort, true⟩ : EndpointTarget) := fun _ _ he => by cases he; rfl
    have hanswers : ∃ prober : EndpointProber, resolvers = loaded.profile.dohResolvers.map
        (fun host => Dns.dohFinding host (prober ⟨host, Dns.dohPort, true⟩)) ∧
          ∀ target, MetAttempt ext stopped t target (prober target) :=
      exists_answers hresolvers (hnodup.map hinjective) fun target => ⟨_, hsilent.doh target⟩
    obtain ⟨prober, rfl, hprober⟩ := hanswers
    exact ⟨{ silent stopped with dnsResolver := resolver, dohProber := prober },
      { hsilent with dns := hresolver, doh := hprober }, rfl⟩
  · rintro findings hfindings finding hm
    cases hfindings
    rcases List.mem_append.mp hm with hm | hm
    · exact ⟨{ silent stopped with dnsResolver := resolver }, { hsilent with dns := hresolver }, _,
        rfl, List.mem_append_left _ hm⟩
    · obtain ⟨host, hhost, attempt, rfl, hattempt⟩ := exists_of_mem_values hresolvers hm
      set asked : EndpointTarget := ⟨host, Dns.dohPort, true⟩
      set prober := Function.update (silent stopped).dohProber asked attempt with hupdate
      have hself : prober asked = attempt := Function.update_self ..
      have hprober : ∀ target, MetAttempt ext stopped t target (prober target) := by
        intro target
        by_cases htarget : target = asked
        · rw [htarget, hself]
          exact hattempt
        · rw [hupdate, Function.update_of_ne htarget]
          exact hsilent.doh target
      refine ⟨{ silent stopped with dohProber := prober }, { hsilent with doh := hprober }, _, rfl,
        List.mem_append_right _ (List.mem_map.mpr ⟨host, hhost, ?_⟩)⟩
      exact congrArg (Dns.dohFinding host) hself

end Dns

section Egress
include hhalted hstopped hadmitted

/-- Every endpoint is attempted, all side by side. -/
theorem holds_egress : Holds (network ext)
    (Conduct ext (Discovered ext machine loaded.profile) halted)
    (NetworkProbe.egress.program ext machine loaded.profile)
    (fun result s' => Explained ext machine loaded stopped .egress result s') s := by
  have hreach : ∀ endpoint ∈ loaded.profile.endpoints, Holds (network ext)
      (Conduct ext (Discovered ext machine loaded.profile) halted) (reach ext endpoint)
      (fun finding s' => ∃ attempt, finding = Egress.judge endpoint attempt ∧
        MetAttempt ext stopped s' (Egress.targetOf endpoint) attempt) s := by
    intro endpoint hm
    have hmet := @holds_metAttempt ext machine loaded halted stopped s hhalted hstopped
      egressOptions (Egress.targetOf endpoint) (hadmitted.endpoint hm)
    exact hmet.bind network_grows fun attempt _ _ hattempt =>
      holds_pure fun t ht => ⟨attempt, rfl, hattempt t ht⟩
  refine (holds_concurrently network_grows hreach).bind network_grows fun findings s₁ h₁ hfindings =>
    holds_pure fun t ht => ?_
  have hsilent := @met_silent ext stopped t fun hstop => ((h₁.trans ht).2.1 (hstopped hstop))
  obtain ⟨prober, rfl, hprober⟩ := exists_answers (hfindings t ht) nodup_egressTargets
    fun target => ⟨_, hsilent.egress target⟩
  exact explained_of_answers
    (show Answers.Met ext stopped t { silent stopped with egressProber := prober } from
      { hsilent with egress := hprober }) rfl

end Egress

section Tls
include hhalted hstopped

lemma holds_metCapture {target : HostPort} {viaProxy : Option HostPort}
    (h : s.guard.isAllowed ext.toExternals target.host target.port = true)
    (hproxy : ∀ proxy, viaProxy = some proxy →
      Tls.discoverEnvProxy ext.toExternals machine.env = some proxy) :
    Holds (network ext) (Conduct ext (Discovered ext machine loaded.profile) halted)
      (capture ext captureOptions target viaProxy)
      (fun outcome s' => MetCapture ext stopped s' target viaProxy outcome) s := by
  refine Holds.weaken network_grows (holds_capture hhalted h fun proxy hvia s' _ =>
    .captured (hproxy proxy hvia)) fun outcome t _ houtcome => ⟨houtcome.1, fun hstop => ?_⟩
  obtain ⟨failed, hfailed, -, hby⟩ := houtcome.2 (hstopped hstop)
  rw [hfailed, TlsChainOutcome.endedByRun, hby]
  rfl

/-- What a target answers over each path keeps to the promises of a capture. -/
def MetPaths (ext : NetExternals) (stopped : Bool) (s : NetState) (target : HostPort)
    (answer : Option HostPort → TlsChainOutcome) : Prop :=
  ∀ viaProxy, MetCapture ext stopped s target viaProxy (answer viaProxy)

/-- The captures of a target that answers so over each path. -/
def Captures.answered (proxy : Option HostPort) (answer : Option HostPort → TlsChainOutcome) :
    Captures :=
  ⟨answer none, proxy.map fun via => answer (some via)⟩

lemma holds_captureBoth {target : Tls.TlsTarget}
    (h : s.guard.isAllowed ext.toExternals target.host target.port = true) :
    Holds (network ext) (Conduct ext (Discovered ext machine loaded.profile) halted)
      (captureBoth ext (Tls.discoverEnvProxy ext.toExternals machine.env) target)
      (fun captures s' => ∃ answer : Option HostPort → TlsChainOutcome,
        captures = .answered (Tls.discoverEnvProxy ext.toExternals machine.env) answer ∧
        MetPaths ext stopped s' (dialled target) answer) s := by
  have hdirect := @holds_metCapture ext machine loaded halted stopped s hhalted hstopped
    (dialled target) none h fun _ hvia => by cases hvia
  set proxy := Tls.discoverEnvProxy ext.toExternals machine.env with hproxy
  have hproxied : ∀ via, proxy = some via →
      Holds (network ext) (Conduct ext (Discovered ext machine loaded.profile) halted)
        (capture ext captureOptions (dialled target) (some via))
        (fun outcome s' => MetCapture ext stopped s' (dialled target) (some via) outcome) s :=
    fun via hvia => @holds_metCapture ext machine loaded halted stopped s hhalted hstopped
      (dialled target) (some via) h fun _ he => by rw [← hproxy, hvia, he]
  refine (holds_both network_grows hdirect
    (?viaProxy : Holds _ _ _ (fun viaProxy s' => ∃ outcome, viaProxy = proxy.map (fun _ => outcome) ∧
      ∀ via, proxy = some via → MetCapture ext stopped s' (dialled target) (some via) outcome)
        s)).bind network_grows fun outcomes s₁ h₁ houtcomes => holds_pure fun t ht => ?_
  case viaProxy =>
    cases hvia : proxy with
    | none => exact holds_pure fun _ _ => ⟨.failed ⟨.dns, none, none⟩, rfl, fun _ h => by cases h⟩
    | some via =>
      refine (hproxied via hvia).bind network_grows fun outcome s₁ _ houtcome =>
        holds_pure fun t ht => ⟨outcome, rfl, fun _ he => ?_⟩
      cases he
      exact houtcome t ht
  obtain ⟨hmet, outcome, hoff, hvia⟩ := houtcomes t ht
  have hsilent := @met_silent ext stopped t fun hstop => ((h₁.trans ht).2.1 (hstopped hstop))
  refine ⟨fun viaProxy => viaProxy.elim outcomes.1 fun via => if proxy = some via then outcome else
    (silent stopped).capturer (dialled target) (some via), ?_, fun viaProxy => ?_⟩
  · have hmap : outcomes.2 = proxy.map fun via => if proxy = some via then outcome else
        (silent stopped).capturer (dialled target) (some via) := by
      rw [hoff]
      cases proxy <;> simp
    exact congrArg (Captures.mk outcomes.1) hmap
  · cases viaProxy with
    | none => exact hmet
    | some via =>
      simp only [Option.elim_some]
      split_ifs with hproxy
      · exact hvia via hproxy
      · exact hsilent.capture _ _

omit hhalted hstopped in
/-- Each target is checked against its own captures as it is against the answers they are of. -/
lemma mapM_checkTarget {policy : TlsPolicy} {proxy : Option HostPort}
    {options : Tls.ChainEvaluationOptions} (capturer : Tls.TlsCapture) (targets : List Tls.TlsTarget) :
    ((targets.zip (targets.map fun target =>
        Captures.answered proxy (capturer (dialled target)))).mapM fun (target, captures) =>
      Tls.checkTarget ext.toExternals captures.capturer policy proxy options target) =
      targets.mapM (Tls.checkTarget ext.toExternals capturer policy proxy options) := by
  induction targets with
  | nil => rfl
  | cons target targets ih =>
    rw [List.map_cons, List.zip_cons_cons, List.mapM_cons, List.mapM_cons, ih]
    have hcheck : Tls.checkTarget ext.toExternals
        (Captures.answered proxy (capturer (dialled target))).capturer policy proxy options target =
          Tls.checkTarget ext.toExternals capturer policy proxy options target := by
      cases proxy <;> rfl
    dsimp only
    rw [hcheck]

include hadmitted

lemma holds_runTls : Holds (network ext)
    (Conduct ext (Discovered ext machine loaded.profile) halted) (runTls ext machine loaded.profile)
    (fun result s' => ∃ answers : Answers, answers.Met ext stopped s' ∧
      result = Tls.runTls ext.toExternals loaded.profile machine.publicRootPems answers.capturer
        machine.env answers.now) s := by
  refine holds_call_bind fun s₁ h₁ => ⟨trivial, fun now s₂ hreply => ?_⟩
  have h₂ := h₁.trans (network_grows.step hreply)
  have hsilent : ∀ t, s₂ ≤ t → (silent stopped).Met ext stopped t := fun t ht =>
    met_silent fun hstop => (h₂.trans ht).2.1 (hstopped hstop)
  dsimp only
  by_cases hempty : (Tls.tlsTargets loaded.profile.endpoints).isEmpty = true
  · rw [if_pos hempty]
    refine holds_pure fun t ht => ⟨silent stopped, hsilent t ht, ?_⟩
    rw [Tls.runTls, if_pos hempty]
  · rw [if_neg hempty]
    cases hroots : certificateIndex ext.toExternals machine.publicRootPems with
    | none =>
      refine holds_pure fun t ht => ⟨silent stopped, hsilent t ht, ?_⟩
      rw [Tls.runTls, if_neg hempty, hroots]
      rfl
    | some roots =>
      have hcaptures := fun target hm => @holds_captureBoth ext machine loaded halted stopped s₂
        (fun hhalt => h₂.2.1 (hhalted hhalt)) (fun hstop => h₂.2.1 (hstopped hstop)) target (by
          obtain ⟨endpoint, hendpoint, hhost, hport⟩ := exists_endpoint_of_tlsTargets hm
          rw [hhost, hport]
          exact (hadmitted.mono h₂).endpoint hendpoint)
      refine (holds_concurrently network_grows hcaptures).bind network_grows
        fun captures s₃ h₃ hanswered => holds_pure fun t ht => ?_
      have hmet := hsilent t (h₃.trans ht)
      have hanswers : ∃ capturer : Tls.TlsCapture,
          captures = (Tls.tlsTargets loaded.profile.endpoints).map (fun target =>
            Captures.answered (Tls.discoverEnvProxy ext.toExternals machine.env)
              (capturer (dialled target))) ∧
          ∀ target, MetPaths ext stopped t target (capturer target) :=
        exists_answers (hanswered t ht) (nodup_tlsTargets _)
          fun target => ⟨_, hmet.capture target⟩
      obtain ⟨capturer, rfl, hcapturer⟩ := hanswers
      refine ⟨{ silent stopped with capturer := capturer, now := now },
        { hmet with capture := hcapturer }, ?_⟩
      rw [Tls.runTls, if_neg hempty, hroots, mapM_checkTarget, Option.map_eq_bind]
      rfl

/-- Every target is captured over both paths, all side by side. -/
theorem holds_tls : Holds (network ext)
    (Conduct ext (Discovered ext machine loaded.profile) halted)
    (NetworkProbe.tls.program ext machine loaded.profile)
    (fun result s' => Explained ext machine loaded stopped .tls result s') s := by
  refine (holds_runTls hhalted hstopped hadmitted).bind network_grows fun result s₁ _ hresult =>
    holds_pure fun t ht => ?_
  obtain ⟨answers, hmet, rfl⟩ := hresult t ht
  exact explained_of_answers hmet rfl

end Tls
end Rules

end Portcall.Concurrent
