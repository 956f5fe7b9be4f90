import Portcall.Library.ThreadExceptions
import Portcall.Net.Wire

/-! How the network code behaves: what it may do at all, what a failure of it may say, and the name
lookup every other seam begins with. -/
namespace Portcall.Net
open Threads

/-- A program of the network code; all it throws itself is the denial of a host. -/
abbrev NetM := Throws NetOp NetworkPolicyError

section Conduct
variable (ext : NetExternals) (admits : NetState → HostPort → Prop) (halted : Prop)

/-- A request without a credential: it says where it is for and that it is the last. -/
def Bare (request : HttpRequest) : Prop :=
  (request.method = "GET" ∨ request.method = "CONNECT") ∧
    ∀ header ∈ request.headers, header.1 ∈ ["host", "connection"]

/-- What may be done: hosts are admitted for a reason, only admitted hosts are asked about and looked
up, and the only connections are to an address that was answered for a host, on a port that host is
admitted on. Where `halted` there are none. Nothing is sent after a handshake that takes any
certificate. -/
def Conduct : Allowed NetState NetOp := fun _ s op =>
  match op with
  | .isAllowed host port => s.guard.isAllowed ext.toExternals host port = true
  | .isHostAllowed host => s.guard.isHostAllowed ext.toExternals host = true
  | .permit host port _ => admits s ⟨host, port⟩
  | .lookup host _ => s.guard.isHostAllowed ext.toExternals host = true
  | .netConnect address port => ¬halted ∧ ext.isIp address = true ∧
    ∃ host, (host, address) ∈ s.answered ∧ s.guard.isAllowed ext.toExternals host port = true
  | .request stream request _ | .fetchBody stream request _ _ =>
    Bare request ∧ s.unverified stream = some false
  | _ => True

end Conduct

/-- What a failure may say: a machine code, or whose clock it was and then no code. The run's clock
is blamed only once the run has stopped. -/
structure Blames (code : Option String) (abortedBy : Option AbortedBy) (s : NetState) : Prop where
  machine : ∀ found, code = some found → isMachineCode found = true
  exclusive : abortedBy ≠ none → code = none
  honest : abortedBy = some .runSignal → s.stopped = true

section Blames
variable {code : Option String} {s s' : NetState}

lemma Blames.mono {abortedBy : Option AbortedBy} (h : Blames code abortedBy s) (hle : s ≤ s') :
    Blames code abortedBy s' :=
  ⟨h.machine, h.exclusive, fun hrun => hle.2.1 (h.honest hrun)⟩

lemma blames_code (h : ∀ found, code = some found → isMachineCode found = true) :
    Blames code none s where
  machine := h
  exclusive hne := absurd rfl hne
  honest hrun := by cases hrun

lemma blames_clock {source : AbortedBy} (h : source = .runSignal → s.stopped = true) :
    Blames none (some source) s where
  machine found hfound := by cases hfound
  exclusive _ := rfl
  honest hrun := h (Option.some.inj hrun)

lemma blames_error (error : Thrown) : Blames (extractCode error) none s :=
  blames_code fun _ => isMachineCode_of_extractCode

end Blames

section Programs

def assertAllowed (host : String) (port : ℕ) : NetM Unit := do
  let allowed ← Throws.call (.isAllowed host port)
  if allowed then return else throw ⟨host, some port⟩

def assertHostAllowed (host : String) : NetM Unit := do
  let allowed ← Throws.call (.isHostAllowed host)
  if allowed then return else throw ⟨host, none⟩

/-- Which half of a composed signal fired: the run's own signal is asked directly. -/
def abortSource : Prog NetOp AbortedBy := do
  let stopped ← Prog.call .runAborted
  return if stopped then .runSignal else .phaseTimeout

/-- The code of an error and the clock to blame: the clock, once the phase's signal has fired. -/
def failure (error : Thrown) (signal : ℕ) : Prog NetOp (Option String × Option AbortedBy) := do
  let fired ← Prog.call (.aborted signal)
  match fired with
  | some _ =>
    let source ← abortSource
    return (none, some source)
  | none => return (extractCode error, none)

/-- Whose clock a lookup that was aborted is blamed on. -/
def lookupSource (outcome : FailedLookup) : Prog NetOp (Option AbortedBy) :=
  match outcome.abortedBy with
  | none => return none
  | some _ => do
    let source ← abortSource
    return some source

/-- What is done over a socket, which is closed after it whatever came of it. -/
def overSocket (socket : ℕ) {α : Type} (body : Prog NetOp α) : Prog NetOp α := do
  let value ← body
  Prog.call (.destroy socket)
  return value

/-- `systemResolver.resolve`: an answer that is no address is dropped. -/
def resolve (ext : NetExternals) (host : String) (signal : ℕ) : NetM DnsOutcome := do
  assertHostAllowed host
  let answers ← Throws.call (.lookup host signal)
  match answers with
  | .done addresses =>
    let elapsedMs ← Throws.call .elapsed
    return .ok (addresses.filter ext.isIp) elapsedMs
  | .threw error =>
    let fired ← Throws.call (.aborted signal)
    let elapsedMs ← Throws.call .elapsed
    match fired with
    | some source => return .failed { code := none, abortedBy := some source, elapsedMs }
    | none => return .failed { code := extractCode error, abortedBy := none, elapsedMs }

/-- A lookup with a signal of its own: the run's, or this budget. -/
def resolveWithin (ext : NetExternals) (budgetMs : ℕ) (host : String) : NetM DnsOutcome := do
  let signal ← Throws.call (.phaseSignal budgetMs)
  resolve ext host signal

end Programs

/-- What a lookup of a host may come back with. -/
def Looked (ext : NetExternals) (host : String) (outcome : DnsOutcome) (s : NetState) : Prop :=
  match outcome with
  | .ok addresses _ => ∀ address ∈ addresses,
    ext.isIp address = true ∧ (host, address) ∈ s.answered
  | .failed failed => Blames failed.code failed.abortedBy s

section Rules
variable {ext : NetExternals} {admits : NetState → HostPort → Prop} {halted : Prop} {s s' : NetState}
  {α : Type}

lemma Looked.mono {host : String} {outcome : DnsOutcome} (h : Looked ext host outcome s)
    (hle : s ≤ s') : Looked ext host outcome s' := by
  cases outcome with
  | ok addresses elapsedMs =>
    exact fun address hm => ⟨(h address hm).1, NetState.answered_mono hle (h address hm).2⟩
  | failed failed => exact Blames.mono h hle

lemma holds_assertAllowed {host : String} {port : ℕ}
    (h : s.guard.isAllowed ext.toExternals host port = true) :
    Holds (network ext) (Conduct ext admits halted) (assertAllowed host port) (fun _ _ => True) s := by
  refine holds_call_bind fun s₁ h₁ =>
    ⟨NetworkGuard.isAllowed_of_le h₁.1 h, fun reply s₂ hreply => ?_⟩
  obtain ⟨rfl, rfl⟩ := hreply
  rw [NetworkGuard.isAllowed_of_le h₁.1 h]
  exact holds_pure fun _ _ => trivial

lemma holds_assertHostAllowed {host : String}
    (h : s.guard.isHostAllowed ext.toExternals host = true) :
    Holds (network ext) (Conduct ext admits halted) (assertHostAllowed host)
      (fun _ _ => True) s := by
  refine holds_call_bind fun s₁ h₁ =>
    ⟨NetworkGuard.isHostAllowed_of_le h₁.1 h, fun reply s₂ hreply => ?_⟩
  obtain ⟨rfl, rfl⟩ := hreply
  rw [NetworkGuard.isHostAllowed_of_le h₁.1 h]
  exact holds_pure fun _ _ => trivial

lemma safe_abortSource : Safe (network ext) (Conduct ext admits halted) abortSource
    (fun source s' => (source = .runSignal → s'.stopped = true) ∧
      (s.stopped = true → source = .runSignal)) s := by
  refine safe_call_bind fun s₁ h₁ => ⟨trivial, fun reply s₂ hreply => ?_⟩
  obtain ⟨rfl, rfl⟩ := hreply
  refine safe_done fun t ht => ⟨fun hsource => ht.2.1 ?_, fun hstopped => ?_⟩
  · by_contra hne
    rw [if_neg hne] at hsource
    cases hsource
  · rw [if_pos (h₁.2.1 hstopped)]

/-- A failure blames a clock only when its phase's signal had fired. -/
lemma safe_failure {error : Thrown} {signal : ℕ} :
    Safe (network ext) (Conduct ext admits halted) (failure error signal)
      (fun blame s' => Blames blame.1 blame.2 s') s := by
  refine safe_call_bind fun s₁ _ => ⟨trivial, fun reply s₂ hreply => ?_⟩
  obtain ⟨rfl, rfl⟩ := hreply
  cases s₂.firedBy signal with
  | none => exact safe_done fun t _ => blames_error error
  | some source =>
    change Safe _ _ (abortSource >>= fun source => .done (none, some source)) _ s₂
    refine Safe.bind network_grows safe_abortSource fun source s₃ _ hsource => ?_
    exact safe_done fun t ht => blames_clock (hsource t ht).1

lemma safe_lookupSource {outcome : FailedLookup} (h : Blames outcome.code outcome.abortedBy s) :
    Safe (network ext) (Conduct ext admits halted) (lookupSource outcome)
      (fun abortedBy s' => Blames outcome.code abortedBy s' ∧
        (∃ source, abortedBy = outcome.abortedBy.map fun _ => source) ∧
        (s.stopped = true → outcome.abortedBy ≠ none → abortedBy = some .runSignal)) s := by
  rw [lookupSource]
  cases hby : outcome.abortedBy with
  | none =>
    exact safe_done fun t _ => ⟨blames_code h.machine, ⟨.phaseTimeout, rfl⟩,
      fun _ hne => absurd rfl hne⟩
  | some source =>
    have hcode : outcome.code = none := h.exclusive (by simp [hby])
    refine Safe.bind network_grows safe_abortSource fun source s₁ _ hsource => ?_
    refine safe_done fun t ht => ⟨?_, ⟨source, rfl⟩, fun hstopped _ => ?_⟩
    · rw [hcode]
      exact blames_clock (hsource t ht).1
    · rw [(hsource t ht).2 hstopped]

lemma safe_overSocket {socket : ℕ} {body : Prog NetOp α} {post : α → NetState → Prop}
    (h : Safe (network ext) (Conduct ext admits halted) body post s) :
    Safe (network ext) (Conduct ext admits halted) (overSocket socket body) post s := by
  refine Safe.bind network_grows h fun value s₁ _ hvalue => ?_
  refine safe_call_bind fun s₂ h₂ => ⟨trivial, fun reply s₃ hreply => ?_⟩
  exact safe_done fun t ht => hvalue t (h₂.trans ((network_grows.step hreply).trans ht))

/-- A lookup of an admitted host; a signal that has fired is what ends it. -/
theorem holds_resolve {host : String} {signal : ℕ}
    (h : s.guard.isHostAllowed ext.toExternals host = true) :
    Holds (network ext) (Conduct ext admits halted) (resolve ext host signal)
      (fun outcome s' => Looked ext host outcome s' ∧ ∀ source, s.firedBy signal = some source →
        ∃ elapsedMs, outcome = .failed ⟨none, some source, elapsedMs⟩) s := by
  refine (holds_assertHostAllowed h).bind network_grows fun _ s₁ h₁ _ => ?_
  refine holds_call_bind fun s₂ h₂ =>
    ⟨NetworkGuard.isHostAllowed_of_le (h₁.1.trans h₂.1) h, fun reply s₃ hreply => ?_⟩
  have hfired : ∀ source, s.firedBy signal = some source → s₂.firedBy signal = some source :=
    fun source hs => h₂.2.2.1 _ _ (h₁.2.2.1 _ _ hs)
  cases reply with
  | done addresses =>
    obtain ⟨hnone, rfl⟩ := hreply
    refine holds_call_bind fun s₄ h₄ => ⟨trivial, fun elapsedMs s₅ hreply => ?_⟩
    obtain rfl : s₅ = s₄ := hreply
    refine holds_pure fun t ht => ⟨fun address hm => ?_, fun source hs => ?_⟩
    · obtain ⟨haddress, hip⟩ := List.mem_filter.mp hm
      have hanswered : (host, address) ∈ s₂.answered ++ addresses.map fun address =>
          (host, address) := List.mem_append_right _ (List.mem_map_of_mem haddress)
      exact ⟨hip, NetState.answered_mono (h₄.trans ht) hanswered⟩
    · rw [hfired source hs] at hnone
      cases hnone
  | threw error =>
    obtain rfl : s₃ = s₂ := hreply
    refine holds_call_bind fun s₄ h₄ => ⟨trivial, fun reply s₅ hreply => ?_⟩
    obtain ⟨rfl, rfl⟩ := hreply
    refine holds_call_bind fun s₆ h₆ => ⟨trivial, fun elapsedMs s₇ hreply => ?_⟩
    obtain rfl : s₇ = s₆ := hreply
    cases hby : s₅.firedBy signal with
    | none =>
      refine holds_pure fun t _ => ⟨blames_error error, fun source hs => ?_⟩
      rw [h₄.2.2.1 _ _ (hfired source hs)] at hby
      cases hby
    | some source =>
      refine holds_pure fun t ht => ⟨blames_clock ?_, fun source' hs => ?_⟩
      · rintro rfl
        exact (h₆.trans ht).2.1 (NetState.honest_firedBy hby)
      · rw [h₄.2.2.1 _ _ (hfired source' hs)] at hby
        cases hby
        exact ⟨elapsedMs, rfl⟩

/-- A lookup that begins once the run has stopped is ended by the run. -/
theorem holds_resolveWithin {host : String} {budgetMs : ℕ}
    (h : s.guard.isHostAllowed ext.toExternals host = true) :
    Holds (network ext) (Conduct ext admits halted) (resolveWithin ext budgetMs host)
      (fun outcome s' => Looked ext host outcome s' ∧ (s.stopped = true →
        ∃ elapsedMs, outcome = .failed ⟨none, some .runSignal, elapsedMs⟩)) s := by
  refine holds_call_bind fun s₁ h₁ => ⟨trivial, fun signal s₂ hreply => ?_⟩
  have h₂ := h₁.trans (network_grows.step hreply)
  obtain ⟨rfl, rfl⟩ := hreply
  refine Holds.weaken network_grows (holds_resolve (NetworkGuard.isHostAllowed_of_le h₂.1 h))
    fun outcome t _ houtcome => ⟨houtcome.1, fun hstop => ?_⟩
  exact houtcome.2 .runSignal (firedBy_begin_self (h₁.2.1 hstop))

end Rules

section Sockets
variable {α : Type} {held : Set ℕ} {post : α → Set ℕ → Prop}

lemma owns_idle {β : Type} {op : NetOp β} {next : β → Prog NetOp α}
    (hopened : ∀ reply, socketLedger.opened op reply = none)
    (hclosed : socketLedger.closed op = none) (hused : socketLedger.used op ⊆ held)
    (h : ∀ reply, Owns socketLedger (next reply) held post) :
    Owns socketLedger (Prog.call op >>= next) held post := by
  refine ⟨hused, fun reply _ => ?_⟩
  have hafter : socketLedger.after op reply held = held := by
    ext socket
    simp [Ledger.after, hopened reply, hclosed]
  rw [hafter]
  exact h reply

lemma owns_run_idle {β : Type} {op : NetOp β} {next : β → NetM α}
    {post : Except NetworkPolicyError α → Set ℕ → Prop}
    (hopened : ∀ reply, socketLedger.opened op reply = none)
    (hclosed : socketLedger.closed op = none) (hused : socketLedger.used op ⊆ held)
    (h : ∀ reply, Owns socketLedger (next reply).run held post) :
    Owns socketLedger (Throws.call op >>= next).run held post :=
  owns_idle hopened hclosed hused h

lemma closes_idle {β : Type} {op : NetOp β} {next : β → NetM α}
    (hopened : ∀ reply, socketLedger.opened op reply = none)
    (hclosed : socketLedger.closed op = none) (hused : socketLedger.used op ⊆ ∅)
    (h : ∀ reply, Closes socketLedger (next reply)) :
    Closes socketLedger (Throws.call op >>= next) :=
  owns_idle hopened hclosed hused h

lemma owns_abortSource : Owns socketLedger abortSource held fun _ left => left = held :=
  owns_idle (fun _ => rfl) rfl (Set.empty_subset _) fun _ => rfl

lemma owns_failure {error : Thrown} {signal : ℕ} :
    Owns socketLedger (failure error signal) held fun _ left => left = held := by
  refine owns_idle (fun _ => rfl) rfl (Set.empty_subset _) fun fired => ?_
  cases fired with
  | none => rfl
  | some source =>
    refine owns_abortSource.bind fun source left hleft => ?_
    exact hleft

lemma owns_lookupSource {outcome : FailedLookup} :
    Owns socketLedger (lookupSource outcome) ∅ fun _ left => left = ∅ := by
  rw [lookupSource]
  split
  · exact rfl
  · exact owns_abortSource.bind fun _ _ hleft => hleft

/-- What is done over a socket closes all it opens itself, and then the socket is closed. -/
lemma owns_overSocket {socket : ℕ} {body : Prog NetOp α} (hsocket : socket ∉ held)
    (h : Owns socketLedger body (insert socket held) fun _ left => left = insert socket held) :
    Owns socketLedger (overSocket socket body) (insert socket held) fun _ left => left = held := by
  refine h.bind fun value left hleft => ?_
  subst hleft
  refine ⟨Set.singleton_subset_iff.mpr (Set.mem_insert _ _), fun reply _ => ?_⟩
  ext other
  simp only [Ledger.after, socketLedger, Set.mem_ofPred_eq, Set.mem_insert_iff, reduceCtorEq,
    or_false]
  constructor
  · rintro ⟨rfl | hm, hne⟩
    · exact absurd rfl hne
    · exact hm
  · rintro hm
    exact ⟨Or.inr hm, fun he => hsocket (Option.some.inj he ▸ hm)⟩

/-- A socket that was just opened is held besides the others. -/
lemma owns_opening {op : NetOp ℕ} {next : ℕ → Prog NetOp α}
    (hopened : ∀ reply, socketLedger.opened op reply = some reply)
    (hclosed : socketLedger.closed op = none) (hused : socketLedger.used op ⊆ held)
    (h : ∀ socket ∉ held, Owns socketLedger (next socket) (insert socket held) post) :
    Owns socketLedger (Prog.call op >>= next) held post := by
  refine ⟨hused, fun socket hfresh => ?_⟩
  have hafter : socketLedger.after op socket held = insert socket held := by
    ext other
    simp [Ledger.after, hopened socket, hclosed, or_comm, eq_comm]
  rw [hafter]
  exact h socket (hfresh socket (hopened socket))

lemma closes_assertAllowed {host : String} {port : ℕ} :
    Closes socketLedger (assertAllowed host port) := by
  refine closes_idle (fun _ => rfl) rfl (Set.empty_subset _) fun allowed => ?_
  cases allowed <;> exact rfl

lemma closes_resolve {ext : NetExternals} {host : String} {signal : ℕ} :
    Closes socketLedger (resolve ext host signal) := by
  refine Closes.bind ?_ fun _ => ?_
  · refine closes_idle (fun _ => rfl) rfl (Set.empty_subset _) fun allowed => ?_
    cases allowed <;> exact rfl
  · refine closes_idle (fun _ => rfl) rfl (Set.empty_subset _) fun answers => ?_
    cases answers with
    | done addresses =>
      exact closes_idle (fun _ => rfl) rfl (Set.empty_subset _) fun elapsedMs => rfl
    | threw error =>
      refine closes_idle (fun _ => rfl) rfl (Set.empty_subset _) fun fired => ?_
      refine closes_idle (fun _ => rfl) rfl (Set.empty_subset _) fun elapsedMs => ?_
      cases fired <;> exact rfl

lemma closes_resolveWithin {ext : NetExternals} {budgetMs : ℕ} {host : String} :
    Closes socketLedger (resolveWithin ext budgetMs host) :=
  closes_idle (fun _ => rfl) rfl (Set.empty_subset _) fun _ => closes_resolve

end Sockets
end Portcall.Net
