import Portcall.Run.ProxyConduct

/-! Whole runs of the network probes, in every order of their steps and whatever the network answers:
whom they contact, what they send, what they leave open, and what their reports are made of. -/
namespace Portcall.Concurrent
open Threads Net
variable {ext : NetExternals} {machine : Machine} {loaded : LoadedProfile ext.toExternals}
  {thrown : Thrown} {probes : List NetworkProbe}

/-- A run before its first step. -/
def start (loaded : LoadedProfile ext.toExternals) : NetState where
  guard := .ofProfile ext.toExternals loaded.profile
  honest _ hm := absurd hm List.not_mem_nil

/-- What a probe's promise comes to, when it is not denied a host. -/
def outcomeOf (thrown : Thrown) : Throwing (List Finding) → ProbeOutcome
  | some findings => .returned findings
  | none => .threw thrown.value

lemma admitted_start : Admitted ext loaded.profile (start loaded) :=
  fun _ _ hdeclares => NetworkGuard.isAllowed_ofProfile.mpr hdeclares

section Probes
variable {halted : Prop} {stopped : Bool} {s : NetState}
  (hhalted : halted → s.stopped = true) (hstopped : stopped = true → s.stopped = true)
  (hadmitted : Admitted ext loaded.profile s)
include hhalted hstopped hadmitted

lemma holds_program (probe : NetworkProbe) : Holds (network ext)
    (Conduct ext (Discovered ext machine loaded.profile) halted)
    (probe.program ext machine loaded.profile)
    (fun result s' => Explained ext machine loaded stopped probe result s') s := by
  cases probe with
  | dns => exact holds_dns hhalted hstopped hadmitted
  | egress => exact holds_egress hhalted hstopped hadmitted
  | proxy => exact holds_proxy hhalted hstopped hadmitted
  | tls => exact holds_tls hhalted hstopped hadmitted

/-- What an explained result comes to. -/
def Reported (ext : NetExternals) (machine : Machine) (loaded : LoadedProfile ext.toExternals)
    (thrown : Thrown) (stopped : Bool) (s : NetState) (probe : NetworkProbe)
    (outcome : ProbeOutcome) : Prop :=
  ∃ result, outcome = outcomeOf thrown result ∧ Explained ext machine loaded stopped probe result s

lemma safe_runProbe (probe : NetworkProbe) : Safe (network ext)
    (Conduct ext (Discovered ext machine loaded.profile) halted)
    (runProbe ext machine loaded.profile thrown probe)
    (fun outcome s' => Reported ext machine loaded thrown stopped s' probe outcome) s := by
  refine Safe.bind network_grows (holds_program hhalted hstopped hadmitted probe)
    fun result s₁ _ hresult => ?_
  obtain ⟨result, rfl, -⟩ := hresult s₁ le_rfl
  have hexplained : ∀ t, s₁ ≤ t → Explained ext machine loaded stopped probe result t := by
    intro t ht
    obtain ⟨_, hvalue, hexplained⟩ := hresult t ht
    cases hvalue
    exact hexplained
  cases result with
  | none => exact safe_done fun t ht => ⟨none, rfl, hexplained t ht⟩
  | some findings => exact safe_done fun t ht => ⟨some findings, rfl, hexplained t ht⟩

/-- One probe after the other: what one has grown the state into, the next may begin in. -/
lemma safe_runEach (probes : List NetworkProbe) : Safe (network ext)
    (Conduct ext (Discovered ext machine loaded.profile) halted)
    (runEach ext machine loaded.profile thrown probes) (fun outcomes s' =>
      List.Forall₂ (Reported ext machine loaded thrown stopped s') probes outcomes) s := by
  induction probes generalizing s with
  | nil => exact safe_done fun _ _ => .nil
  | cons probe probes ih =>
    refine Safe.bind network_grows (safe_runProbe hhalted hstopped hadmitted probe)
      fun outcome s₁ h₁ houtcome => ?_
    refine Safe.bind network_grows (ih (fun hhalt => h₁.2.1 (hhalted hhalt))
      (fun hstop => h₁.2.1 (hstopped hstop)) (hadmitted.mono h₁)) fun outcomes s₂ h₂ houtcomes => ?_
    exact safe_done fun t ht => .cons (houtcome t (h₂.trans ht)) (houtcomes t ht)

end Probes

section Policy

/-- A host and a port that the profile declares, or that were discovered. -/
def Contactable (ext : NetExternals) (machine : Machine) (profile : Profile) (s : NetState)
    (host : String) (port : ℕ) : Prop :=
  NetworkGuard.Declares ext.toExternals profile host port ∨
    ∃ found : HostPort, Discovered ext machine profile s found ∧
      guardKey ext.toExternals host = guardKey ext.toExternals found.host ∧ port = found.port

/-- The guard lets through what may be contacted, and nothing else. -/
def Guarded (ext : NetExternals) (machine : Machine) (profile : Profile) (s : NetState) : Prop :=
  ∀ host port, s.guard.isAllowed ext.toExternals host port = true →
    Contactable ext machine profile s host port

variable {profile : Profile} {s s' : NetState}

lemma Contactable.mono {host : String} {port : ℕ} (h : Contactable ext machine profile s host port)
    (hle : s ≤ s') : Contactable ext machine profile s' host port :=
  h.imp id fun ⟨found, hfound, hhost, hport⟩ => ⟨found, hfound.mono hle, hhost, hport⟩

lemma Guarded.of_guard (h : Guarded ext machine profile s) (hle : s ≤ s')
    (hguard : s'.guard = s.guard) : Guarded ext machine profile s' := by
  intro host port hallowed
  rw [hguard] at hallowed
  exact (h host port hallowed).mono hle

/-- Only an admission changes the guard. -/
lemma guard_of_replies {β : Type} {op : NetOp β} {reply : β} (h : Replies ext s op reply s') :
    s'.guard = match op with
      | .permit host port reason => s.guard.permit ext.toExternals host port reason
      | _ => s.guard := by
  cases op with
  | permit | elapsed | now | session | destroy | runScript => exact (show s' = _ from h) ▸ rfl
  | isAllowed | isHostAllowed | aborted | runAborted | phaseSignal | netConnect | tlsConnect =>
    exact h.2 ▸ rfl
  | fetchBody => exact h.1 ▸ rfl
  | lookup | connected | secured | request => cases reply with
    | done value => exact h.2 ▸ rfl
    | threw error => exact (show s' = s from h) ▸ rfl

lemma kept_guarded {halted : Prop} :
    Kept (network ext) (Conduct ext (Discovered ext machine profile) halted)
      (Guarded ext machine profile) where
  step {β s s' op reply} hok hguarded hstep := by
    have hle := network_grows.step hstep
    have hguard := guard_of_replies hstep
    cases op with
    | permit host port reason =>
      intro host' port' hallowed
      rw [hguard] at hallowed
      rcases NetworkGuard.isAllowed_permit.mp hallowed with ⟨hhost, hport⟩ | hbefore
      · exact Or.inr ⟨_, Discovered.mono hok hle, hhost, hport⟩
      · exact (hguarded host' port' hbefore).mono hle
    | _ => exact hguarded.of_guard hle hguard
  drift hguarded hdrift := by
    refine hguarded.of_guard (drifts_le hdrift) ?_
    cases hdrift <;> rfl

lemma guarded_start : Guarded ext machine loaded.profile (start loaded) :=
  fun _ _ hallowed => Or.inl (NetworkGuard.isAllowed_ofProfile.mp hallowed)

section Runs
variable {left : Prog NetOp (List ProbeOutcome)}
  (hrun : Reaches (network ext) (start loaded) (runEach ext machine loaded.profile thrown probes)
    s left)

include hrun in
lemma safe_left : Safe (network ext) (Conduct ext (Discovered ext machine loaded.profile) False) left
    (fun outcomes s' => List.Forall₂ (Reported ext machine loaded thrown false s') probes outcomes)
    s := by
  have hsafe := @safe_runEach ext machine loaded thrown False false (start loaded)
    (fun hhalt => hhalt.elim) (fun hstop => by cases hstop) admitted_start probes
  exact (hsafe.run network_grows hrun).2

include hrun in
lemma guarded_left : Guarded ext machine loaded.profile s := by
  have hsafe := @safe_runEach ext machine loaded thrown False false (start loaded)
    (fun hhalt => hhalt.elim) (fun hstop => by cases hstop) admitted_start probes
  exact hsafe.kept network_grows kept_guarded guarded_start hrun

include hrun in
/-- Whatever the probes are in the middle of, a host is looked up only if it may be contacted on
some port, and a connection is only made to an address that was answered for such a host, on such a
port. -/
theorem contacts_contactable :
    (∀ host signal, Poised (.lookup host signal) left →
        ∃ port, Contactable ext machine loaded.profile s host port) ∧
      ∀ address port, Poised (.netConnect address port) left → ext.isIp address = true ∧
        ∃ host, (host, address) ∈ s.answered ∧
          Contactable ext machine loaded.profile s host port := by
  have hguarded := guarded_left hrun
  constructor
  · intro host signal hop
    obtain ⟨port, hport⟩ := NetworkGuard.isHostAllowed_iff.mp ((safe_left hrun).poised hop)
    exact ⟨port, hguarded host port hport⟩
  · intro address port hop
    obtain ⟨-, hip, host, hanswered, hallowed⟩ := (safe_left hrun).poised hop
    exact ⟨hip, host, hanswered, hguarded host port hallowed⟩

/-- The same parsers outside, and the one address there is. -/
def plainNet : NetExternals where
  toExternals := pacExternals
  isIp text := text = "192.0.2.1"
  urlPath _ := "/proxy.pac"
  utf8 _ := ""

def plainLoaded : LoadedProfile plainNet.toExternals := plainProfile

def plainEndpoint : Endpoint := ⟨"api.example.com", 443, "api", true⟩

/-- A machine without proxy variables and without bundled roots. -/
def plainMachine : Machine := ⟨fun _ => none, "127.0.0.1", []⟩

def plainThrown : Thrown := { thrownClass := .error, name := "Error" }

lemma isAllowed_plain : (start plainLoaded).guard.isAllowed plainNet.toExternals
    plainEndpoint.host plainEndpoint.port = true :=
  Admitted.endpoint (@admitted_start plainNet plainLoaded) (List.mem_singleton_self _)

/-- A step of the only thread there is. -/
lemma exists_poised_egress {β : Type} {op : NetOp β}
    (h : ∃ s left, Reaches (network plainNet) (start plainLoaded)
      (reach plainNet plainEndpoint).run s left ∧ Poised op left) :
    ∃ s left, Reaches (network plainNet) (start plainLoaded)
      (runEach plainNet plainMachine plainLoaded.profile plainThrown [.egress]) s left ∧
        Poised op left := by
  obtain ⟨s, left, hrun, hpoised⟩ := h
  exact ⟨s, _, Reaches.thread (0 : Fin 1) hrun, poised_update hpoised⟩

include hrun in
/-- Whatever the guard is about to be asked, it allows: nobody is asked about who was not declared or
admitted before. So no probe is denied a host, and each returns its findings if the bundled roots
parse. -/
theorem never_denied :
    (∀ host port, Poised (.isAllowed host port) left →
        s.guard.isAllowed ext.toExternals host port = true) ∧
      (∀ host, Poised (.isHostAllowed host) left →
        s.guard.isHostAllowed ext.toExternals host = true) ∧
      ((certificateIndex ext.toExternals machine.publicRootPems).isSome → ∀ outcomes,
        left = .done outcomes → ∀ outcome ∈ outcomes, ∃ findings, outcome = .returned findings) := by
  refine ⟨fun _ _ hop => (safe_left hrun).poised hop, fun _ hop => (safe_left hrun).poised hop, ?_⟩
  rintro hroots outcomes rfl outcome hm
  obtain ⟨probe, -, result, rfl, hexplained⟩ :=
    exists_of_mem_values (safe_left hrun s le_rfl) hm
  obtain ⟨findings, rfl⟩ := Option.isSome_iff_exists.mp (hexplained.returns hroots)
  exact ⟨findings, rfl⟩

/-- An attempt on an endpoint whose name has an address. -/
lemma exists_dialling : ∃ s left, Reaches (network plainNet) (start plainLoaded)
    (reach plainNet plainEndpoint).run s left ∧ Poised (.netConnect "192.0.2.1" 443) left := by
  have hallowed := isAllowed_plain
  have hhost := NetworkGuard.isHostAllowed_of_isAllowed hallowed
  unfold start at *
  generalize NetworkGuard.ofProfile plainNet.toExternals plainLoaded.profile = guard at *
  refine exists_poised_act true ⟨hallowed.symm, rfl⟩ ?_
  refine exists_poised_act (0 : ℕ) ⟨rfl, rfl⟩ ?_
  refine exists_poised_act true ⟨hhost.symm, rfl⟩ ?_
  refine exists_poised_act (.done ["192.0.2.1"]) ⟨rfl, rfl⟩ ?_
  refine exists_poised_act (0 : ℕ) rfl ?_
  refine exists_poised_act (1 : ℕ) ⟨rfl, rfl⟩ ?_
  exact ⟨_, _, .refl, .act⟩

theorem contacts_contactable_plain : ∃ s left, Reaches (network plainNet) (start plainLoaded)
    (runEach plainNet plainMachine plainLoaded.profile plainThrown [.egress]) s left ∧
      Poised (.netConnect "192.0.2.1" 443) left ∧ ∃ host, (host, "192.0.2.1") ∈ s.answered ∧
        Contactable plainNet plainMachine plainLoaded.profile s host 443 := by
  obtain ⟨s, left, hrun, hpoised⟩ := exists_poised_egress exists_dialling
  exact ⟨s, left, hrun, hpoised, ((contacts_contactable hrun).2 _ _ hpoised).2⟩

theorem never_denied_plain :
    (∃ s left, Reaches (network plainNet) (start plainLoaded)
        (runEach plainNet plainMachine plainLoaded.profile plainThrown [.egress]) s left ∧
      Poised (.isAllowed "api.example.com" 443) left ∧
      s.guard.isAllowed plainNet.toExternals "api.example.com" 443 = true) ∧
    ∃ s outcomes, Reaches (network plainNet) (start plainLoaded)
        (runEach plainNet plainMachine plainLoaded.profile plainThrown networkProbes) s
        (.done outcomes) ∧ ∀ outcome ∈ outcomes, ∃ findings, outcome = .returned findings := by
  constructor
  · obtain ⟨s, left, hrun, hpoised⟩ := exists_poised_egress ⟨_, _, .refl, .act⟩
    exact ⟨s, left, hrun, hpoised, (never_denied hrun).1 _ _ hpoised⟩
  · obtain ⟨outcomes, s, hrun⟩ := exists_value (fun _ => @exists_answer plainNet _)
      (runEach plainNet plainMachine plainLoaded.profile plainThrown networkProbes)
      (start plainLoaded)
    exact ⟨s, outcomes, hrun, (never_denied hrun).2.2 rfl outcomes rfl⟩

include hrun in
/-- Nothing but its own target is told to whoever is asked, and nothing at all after a handshake
that took any certificate. -/
theorem sends_bare :
    (∀ stream request signal, Poised (.request stream request signal) left →
        Bare request ∧ s.unverified stream = some false) ∧
      ∀ stream request maxBytes signal, Poised (.fetchBody stream request maxBytes signal) left →
        Bare request ∧ s.unverified stream = some false :=
  ⟨fun _ _ _ hop => (safe_left hrun).poised hop, fun _ _ _ _ hop => (safe_left hrun).poised hop⟩

/-- One whose peer then shows a certificate that is verified. -/
lemma exists_requesting : ∃ s left, Reaches (network plainNet) (start plainLoaded)
    (reach plainNet plainEndpoint).run s left ∧
      Poised (.request 1 ⟨"GET", "/", [("connection", "close")]⟩ 3) left := by
  have hallowed := isAllowed_plain
  have hhost := NetworkGuard.isHostAllowed_of_isAllowed hallowed
  unfold start at *
  generalize NetworkGuard.ofProfile plainNet.toExternals plainLoaded.profile = guard at *
  refine exists_poised_act true ⟨hallowed.symm, rfl⟩ ?_
  refine exists_poised_act (0 : ℕ) ⟨rfl, rfl⟩ ?_
  refine exists_poised_act true ⟨hhost.symm, rfl⟩ ?_
  refine exists_poised_act (.done ["192.0.2.1"]) ⟨rfl, rfl⟩ ?_
  refine exists_poised_act (0 : ℕ) rfl ?_
  refine exists_poised_act (1 : ℕ) ⟨rfl, rfl⟩ ?_
  refine exists_poised_act (0 : ℕ) ⟨rfl, rfl⟩ ?_
  refine exists_poised_act (.done ()) ⟨rfl, rfl⟩ ?_
  refine exists_poised_act (0 : ℕ) rfl ?_
  refine exists_poised_act (2 : ℕ) ⟨rfl, rfl⟩ ?_
  refine exists_poised_act (1 : ℕ) ⟨rfl, rfl⟩ ?_
  refine exists_poised_act (.done ()) ⟨rfl, rfl⟩ ?_
  refine exists_poised_act (0 : ℕ) rfl ?_
  refine exists_poised_act (⟨some "TLSv1.3", none, none, [], none⟩ : TlsSession) rfl ?_
  refine exists_poised_act (3 : ℕ) ⟨rfl, rfl⟩ ?_
  exact ⟨_, _, .refl, .act⟩

theorem sends_bare_plain : ∃ s left, Reaches (network plainNet) (start plainLoaded)
    (runEach plainNet plainMachine plainLoaded.profile plainThrown [.egress]) s left ∧
      Poised (.request 1 ⟨"GET", "/", [("connection", "close")]⟩ 3) left ∧
        s.unverified 1 = some false := by
  obtain ⟨s, left, hrun, hpoised⟩ := exists_poised_egress exists_requesting
  exact ⟨s, left, hrun, hpoised, ((sends_bare hrun).1 _ _ _ hpoised).2⟩

end Runs
end Policy
section Sockets
variable {profile : Profile} {s : NetState}

lemma closes_askScript {scriptText : String} {cache : ResolvedCache} {endpoints : List Endpoint} :
    Closes socketLedger (askScript ext machine scriptText cache endpoints) := by
  induction endpoints generalizing cache with
  | nil => exact closes_pure _
  | cons endpoint endpoints ih =>
    have hresolve : Closes socketLedger (resolveForPac ext cache endpoint.host) := by
      unfold resolveForPac
      cases cache.get? endpoint.host with
      | some resolved => exact closes_pure _
      | none => exact closes_resolveWithin.bind fun outcome => closes_pure _
    refine hresolve.bind fun found => ?_
    refine closes_idle (fun _ => rfl) rfl (Set.empty_subset _) fun now => ?_
    refine closes_idle (fun _ => rfl) rfl (Set.empty_subset _) fun answer => ?_
    exact ih.bind fun verdicts => closes_pure _

lemma closes_probeRoutes {routes : List Proxy.ProxyRoute} :
    Closes socketLedger (probeRoutes ext routes) := by
  have hroute := fun route (_ : route ∈ routes) =>
    Closes.bind (@closes_connectProxy ext proxyOptions route.proxy route.target)
      fun detail => closes_pure (Proxy.probeRoute (fun _ _ => detail) route)
  exact (closes_inOrder hroute).bind fun outcomes => closes_pure _

lemma closes_discover : Closes socketLedger (discover ext machine profile) := by
  unfold discover
  cases profile.pacUrl with
  | some url => exact closes_fetch.bind fun outcome => by cases outcome <;> exact closes_pure _
  | none =>
    dsimp only
    split_ifs
    · exact closes_pure _
    · exact closes_fetch.bind fun outcome => by cases outcome <;> exact closes_pure _

lemma closes_legFindings {leg : Proxy.DiscoveryLeg} :
    Closes socketLedger (legFindings ext machine profile leg) := by
  cases leg with
  | pacFetchFailed url outcome => exact closes_pure _
  | script scriptText =>
    exact closes_askScript.bind fun verdicts => closes_probeRoutes.bind fun _ => closes_pure _
  | env => exact closes_probeRoutes.bind fun _ => closes_pure _
  | wpadFailed outcome =>
    unfold legFindings
    dsimp only
    split_ifs <;> exact closes_pure _

lemma closes_captureBoth {proxy : Option HostPort} {target : Tls.TlsTarget} :
    Closes socketLedger (captureBoth ext proxy target) := by
  refine Closes.bind (closes_both closes_capture ?_) fun outcomes => closes_pure _
  cases proxy with
  | none => exact closes_pure _
  | some via => exact closes_capture.bind fun outcome => closes_pure _

lemma closes_program (probe : NetworkProbe) :
    Closes socketLedger (probe.program ext machine profile) := by
  cases probe with
  | dns =>
    refine Closes.bind ?_ fun findings => closes_pure _
    refine Closes.bind (closes_both ?_ ?_) fun values => closes_pure _
    · exact closes_concurrently fun target _ => closes_resolveWithin.bind fun _ => closes_pure _
    · exact closes_concurrently fun resolver _ => closes_attempt.bind fun _ => closes_pure _
  | egress =>
    refine Closes.bind ?_ fun findings => closes_pure _
    exact closes_concurrently fun endpoint _ => closes_attempt.bind fun _ => closes_pure _
  | proxy =>
    refine Closes.bind ?_ fun findings => closes_pure _
    unfold runProxy
    split_ifs
    · exact closes_pure _
    · exact closes_discover.bind fun leg => closes_legFindings.bind fun _ => closes_pure _
  | tls =>
    refine Closes.bind ?_ fun result => closes_pure _
    refine closes_idle (fun _ => rfl) rfl (Set.empty_subset _) fun now => ?_
    dsimp only
    split_ifs
    · exact closes_pure _
    · cases certificateIndex ext.toExternals machine.publicRootPems with
      | none => exact closes_pure _
      | some roots =>
        exact (closes_concurrently fun target _ => closes_captureBoth).bind fun _ => closes_pure _

lemma owns_runEach (probes : List NetworkProbe) :
    Owns socketLedger (runEach ext machine profile thrown probes) ∅ fun _ left => left = ∅ := by
  induction probes with
  | nil => exact rfl
  | cons probe probes ih =>
    have hprobe : Owns socketLedger (runProbe ext machine profile thrown probe) ∅
        fun _ left => left = ∅ := by
      refine Owns.bind (closes_program probe) fun result left hleft => ?_
      subst hleft
      match result with
      | .ok (some findings) => exact rfl
      | .ok none => exact rfl
      | .error error => exact rfl
    refine hprobe.bind fun outcome left hleft => ?_
    subst hleft
    exact ih.bind fun outcomes left hleft => hleft

/-- A socket is only used while it is open, and once a run has ended none is. -/
theorem sockets_closed {left : Prog NetOp (List ProbeOutcome)} (hrun : Reaches (network ext)
    (start loaded) (runEach ext machine loaded.profile thrown probes) s left) :
    (∀ (β : Type) (op : NetOp β), Poised op left → socketLedger.used op ⊆ s.live) ∧
      ∀ outcomes, left = .done outcomes → s.live = ∅ := by
  have hlive : (start loaded).live = ∅ := by simp [NetState.live, start]
  have howns := (owns_runEach probes).run network_accounts hlive hrun
  refine ⟨fun β op hop => howns.poised hop, ?_⟩
  rintro outcomes rfl
  exact howns

theorem sockets_closed_plain :
    (∃ s left, Reaches (network plainNet) (start plainLoaded)
        (runEach plainNet plainMachine plainLoaded.profile plainThrown [.egress]) s left ∧
      Poised (.request 1 ⟨"GET", "/", [("connection", "close")]⟩ 3) left ∧ 1 ∈ s.live) ∧
    ∃ s outcomes, Reaches (network plainNet) (start plainLoaded)
        (runEach plainNet plainMachine plainLoaded.profile plainThrown networkProbes) s
        (.done outcomes) ∧ s.live = ∅ := by
  constructor
  · obtain ⟨s, left, hrun, hpoised⟩ := exists_poised_egress exists_requesting
    exact ⟨s, left, hrun, hpoised, (sockets_closed hrun).1 _ _ hpoised rfl⟩
  · obtain ⟨outcomes, s, hrun⟩ := exists_value (fun _ => @exists_answer plainNet _)
      (runEach plainNet plainMachine plainLoaded.profile plainThrown networkProbes)
      (start plainLoaded)
    exact ⟨s, outcomes, hrun, (sockets_closed hrun).2 outcomes rfl⟩

end Sockets

end Portcall.Concurrent
