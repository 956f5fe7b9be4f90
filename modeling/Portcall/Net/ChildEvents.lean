import Mathlib.Data.List.Induction
import Portcall.Net.StoreChild

/-! Every order of the child's events: the promise is resolved by the first `error` or `close`, with
what came before it, and by nothing else. -/
namespace Portcall.Net

/-- Whether the handler of this event resolves the promise. -/
def ChildEvent.Settles : ChildEvent → Prop
  | .error _ | .close _ _ => True
  | .data _ | .timer | .abort => False

instance : DecidablePred ChildEvent.Settles
  | .error _ | .close _ _ => isTrue trivial
  | .data _ | .timer | .abort => isFalse id

def ChildEvent.bytes : ChildEvent → List UInt8
  | .data chunk => chunk
  | .timer | .abort | .error _ | .close _ _ => []

/-- All the bytes the events bring. -/
def bytesOf (events : List (ℕ × ChildEvent)) : List UInt8 := events.flatMap fun entry => entry.2.bytes

/-- Why an event would have the child killed, after `received` bytes. -/
def ChildEvent.trigger (received : ℕ) : ChildEvent → Option Killed
  | .timer => some ⟨.timeout, "signal:SIGKILL"⟩
  | .abort => some ⟨.aborted, "run-signal"⟩
  | .data chunk =>
    if maxStoreOutputBytes < received + chunk.length then some ⟨.outputTooLarge, "signal:SIGKILL"⟩
    else none
  | .error _ | .close _ _ => none

/-- The first reason to kill the child, after `received` bytes. -/
def firstTrigger (received : ℕ) : List (ℕ × ChildEvent) → Option Killed
  | [] => none
  | (_, event) :: rest =>
    (event.trigger received).or (firstTrigger (received + event.bytes.length) rest)

/-- What holds of an outcome that answers the event `event`, fired after `before`. -/
structure Answers (utf8 : List UInt8 → String) (row : StoreRow) (timeoutMs : ℕ)
    (before : List (ℕ × ChildEvent)) (elapsed : ℕ) (event : ChildEvent)
    (outcome : TrustStoreOutcome) : Prop where
  store : outcome.kind = row.kind ∧ outcome.locator = row.locator
  budget : outcome.budgetMs = some timeoutMs ∧ outcome.readMs = some elapsed
  complete : outcome.failure = none → firstTrigger 0 before = none ∧
    (bytesOf before).length ≤ maxStoreOutputBytes ∧ event = .close (some 0) none ∧
    outcome.pems = parseStdout row.format (utf8 (bytesOf before)) ∧ outcome.pems ≠ []
  empty : outcome.failure ≠ none → outcome.pems = []
  killed : ∀ failure ∈ [TrustStoreFailure.timeout, .aborted, .outputTooLarge],
    outcome.failure = some failure →
      ∃ killed, firstTrigger 0 before = some killed ∧ killed.failure = failure ∧
        outcome.code = some killed.code
  closed : ∀ killed, firstTrigger 0 before = some killed → (∃ code signal, event = .close code signal) →
    outcome.failure = some killed.failure ∧ outcome.code = some killed.code

section Trigger
variable {received : ℕ}

lemma firstTrigger_append (before after : List (ℕ × ChildEvent)) :
    firstTrigger received (before ++ after) =
      (firstTrigger received before).or
        (firstTrigger (received + (bytesOf before).length) after) := by
  induction before generalizing received with
  | nil => rfl
  | cons entry before ih =>
    rw [List.cons_append, firstTrigger, firstTrigger, ih, Option.or_assoc, bytesOf, bytesOf,
      List.flatMap_cons, List.length_append, Nat.add_assoc]

/-- The codes a kill is reported with. -/
def killCodes : List String := ["signal:SIGKILL", "run-signal"]

lemma code_mem_of_firstTrigger {events : List (ℕ × ChildEvent)} {killed : Killed}
    (h : firstTrigger received events = some killed) : killed.code ∈ killCodes := by
  induction events generalizing received with
  | nil => cases h
  | cons entry events ih =>
    obtain ⟨elapsed, event⟩ := entry
    rw [firstTrigger, Option.or_eq_some_iff] at h
    rcases h with h | ⟨-, h⟩
    · cases event with
      | timer | abort =>
        cases h
        decide
      | data chunk =>
        rw [ChildEvent.trigger] at h
        split_ifs at h
        cases h
        decide
      | error code => cases h
      | close code signal => cases h
    · exact ih h

lemma bytesOf_append (before after : List (ℕ × ChildEvent)) :
    bytesOf (before ++ after) = bytesOf before ++ bytesOf after :=
  List.flatMap_append

end Trigger

section Step
variable {utf8 : List UInt8 → String} {row : StoreRow} {timeoutMs : ℕ} {state : ReadState}
  {before : List (ℕ × ChildEvent)}

/-- What is known while the promise is not resolved: the first reason to kill is the one kept,
and without one every byte is. -/
structure Pending (before : List (ℕ × ChildEvent)) (state : ReadState) : Prop where
  unsettled : state.settled = false
  unresolved : state.resolved = []
  killed : state.killed = firstTrigger 0 before
  kept : firstTrigger 0 before = none → state.chunks.flatten = bytesOf before ∧
    state.received = (bytesOf before).length ∧ (bytesOf before).length ≤ maxStoreOutputBytes

lemma kill_of_settled (h : state.settled = true) (reason : Killed) : state.kill reason = state := by
  rw [ReadState.kill, if_pos (by simp [h])]

lemma finish_of_settled (h : state.settled = true) (outcome : TrustStoreOutcome) :
    state.finish outcome = state := by
  rw [ReadState.finish, if_pos h]

lemma finish_of_pending (h : Pending before state) (outcome : TrustStoreOutcome) :
    (state.finish outcome).settled = true ∧ (state.finish outcome).resolved = [outcome] := by
  rw [ReadState.finish, if_neg (by simp [h.unsettled]), h.unresolved]
  exact ⟨rfl, rfl⟩

/-- Nothing touches what a settled read was resolved with. -/
lemma onEvent_of_settled (h : state.settled = true) (entry : ℕ × ChildEvent) :
    (onEvent utf8 row timeoutMs state entry).settled = true ∧
      (onEvent utf8 row timeoutMs state entry).resolved = state.resolved := by
  obtain ⟨elapsed, event⟩ := entry
  cases event with
  | timer | abort =>
    rw [onEvent, kill_of_settled h]
    exact ⟨h, rfl⟩
  | error code =>
    rw [onEvent, finish_of_settled h]
    exact ⟨h, rfl⟩
  | data chunk =>
    have hkill := @kill_of_settled { state with received := state.received + chunk.length } h
    simp only [onEvent, hkill]
    split_ifs <;> exact ⟨h, rfl⟩
  | close code signal =>
    simp only [onEvent, finish_of_settled h]
    split
    · exact ⟨h, rfl⟩
    · exact ⟨h, rfl⟩
    · split_ifs <;> exact ⟨h, rfl⟩

lemma trigger_of_pending {elapsed : ℕ} {event : ChildEvent} :
    firstTrigger 0 (before ++ [(elapsed, event)]) =
      (firstTrigger 0 before).or (event.trigger (bytesOf before).length) := by
  rw [firstTrigger_append, firstTrigger, firstTrigger, Option.or_none, Nat.zero_add]

/-- A reason to kill is kept if it is the first. -/
lemma pending_kill (hunsettled : state.settled = false) (hunresolved : state.resolved = [])
    (hkilled : state.killed = firstTrigger 0 before) {elapsed : ℕ} {event : ChildEvent}
    {reason : Killed} (htrigger : event.trigger (bytesOf before).length = some reason) :
    Pending (before ++ [(elapsed, event)]) (state.kill reason) := by
  have hfirst := @trigger_of_pending before elapsed event
  rw [htrigger] at hfirst
  have hsome : firstTrigger 0 (before ++ [(elapsed, event)]) ≠ none := by
    rw [hfirst]
    simp
  rw [ReadState.kill]
  cases hcase : state.killed with
  | some first =>
    rw [← hkilled, hcase, Option.some_or] at hfirst
    rw [Option.isSome_some, Bool.true_or, if_pos rfl]
    exact ⟨hunsettled, hunresolved, hcase.trans hfirst.symm, fun hnone => absurd hnone hsome⟩
  | none =>
    rw [← hkilled, hcase, Option.none_or] at hfirst
    rw [Option.isSome_none, hunsettled, Bool.false_or, if_neg Bool.false_ne_true]
    exact ⟨rfl, hunresolved, hfirst.symm, fun hnone => absurd hnone hsome⟩

/-- A chunk is kept while no reason to kill has come. -/
lemma pending_data (h : Pending before state) (elapsed : ℕ) (chunk : List UInt8) :
    Pending (before ++ [(elapsed, .data chunk)])
      (onEvent utf8 row timeoutMs state (elapsed, .data chunk)) := by
  have hfirst := @trigger_of_pending before elapsed (.data chunk)
  simp only [onEvent]
  cases hkilled : state.killed with
  | some first =>
    rw [← h.killed, hkilled, Option.some_or] at hfirst
    rw [Option.isSome_some, if_pos rfl]
    refine ⟨h.unsettled, h.unresolved, hkilled.trans hfirst.symm, fun hnone => ?_⟩
    rw [hfirst] at hnone
    cases hnone
  | none =>
    have hnone : firstTrigger 0 before = none := h.killed ▸ hkilled
    obtain ⟨hchunks, hreceived, hle⟩ := h.kept hnone
    rw [Option.isSome_none, if_neg Bool.false_ne_true, hreceived]
    by_cases hlarge : maxStoreOutputBytes < (bytesOf before).length + chunk.length
    · have htrigger : (ChildEvent.data chunk).trigger (bytesOf before).length =
          some ⟨.outputTooLarge, "signal:SIGKILL"⟩ := if_pos hlarge
      rw [if_pos hlarge]
      exact pending_kill (by exact h.unsettled) (by exact h.unresolved) (by exact hnone.symm) htrigger
    · rw [if_neg hlarge]
      rw [hnone, Option.none_or, ChildEvent.trigger, if_neg hlarge] at hfirst
      have hbytes : bytesOf (before ++ [(elapsed, .data chunk)]) = bytesOf before ++ chunk := by
        rw [bytesOf_append]
        simp [bytesOf, ChildEvent.bytes]
      refine ⟨h.unsettled, h.unresolved, hfirst.symm, fun _ => ?_⟩
      rw [hbytes, List.length_append]
      refine ⟨?_, rfl, by omega⟩
      simp [hchunks]

/-- One event that resolves nothing. -/
theorem Pending.step (h : Pending before state) (elapsed : ℕ) {event : ChildEvent}
    (hevent : ¬event.Settles) :
    Pending (before ++ [(elapsed, event)]) (onEvent utf8 row timeoutMs state (elapsed, event)) := by
  cases event with
  | timer => exact pending_kill h.unsettled h.unresolved h.killed rfl
  | abort => exact pending_kill h.unsettled h.unresolved h.killed rfl
  | data chunk => exact pending_data h elapsed chunk
  | error code => exact absurd trivial hevent
  | close code signal => exact absurd trivial hevent

/-- The failures only a kill is reported with. -/
def killFailures : List TrustStoreFailure := [.timeout, .aborted, .outputTooLarge]

/-- A failure of the child's own answers it, unless it closes after a kill. -/
lemma answers_failed {elapsed : ℕ} {event : ChildEvent} {failure : TrustStoreFailure}
    {code : Option String} (hown : failure ∉ killFailures)
    (hclosed : firstTrigger 0 before = none ∨ ∀ code signal, event ≠ .close code signal) :
    Answers utf8 row timeoutMs before elapsed event
      (storeOutcome row timeoutMs (some elapsed) (some failure) code []) where
  store := ⟨rfl, rfl⟩
  budget := ⟨rfl, rfl⟩
  complete h := by cases h
  empty _ := rfl
  killed failure' hm h := by
    cases h
    exact absurd hm hown
  closed killed hfirst hevent := by
    obtain ⟨code', signal, rfl⟩ := hevent
    rcases hclosed with hnone | hne
    · rw [hnone] at hfirst
      cases hfirst
    · exact absurd rfl (hne code' signal)

/-- So does the reason it was killed for, when it closes. -/
lemma answers_killed {elapsed : ℕ} {event : ChildEvent} {killed : Killed}
    (hfirst : firstTrigger 0 before = some killed) :
    Answers utf8 row timeoutMs before elapsed event
      (storeOutcome row timeoutMs (some elapsed) (some killed.failure) (some killed.code) []) where
  store := ⟨rfl, rfl⟩
  budget := ⟨rfl, rfl⟩
  complete h := by cases h
  empty _ := rfl
  killed failure _ h := by
    cases h
    exact ⟨killed, hfirst, rfl, rfl⟩
  closed killed' hfirst' _ := by
    rw [hfirst] at hfirst'
    cases hfirst'
    exact ⟨rfl, rfl⟩

/-- And what a child that was left alone wrote, when it closes well. -/
lemma answers_closed {elapsed : ℕ} (hfirst : firstTrigger 0 before = none)
    (hle : (bytesOf before).length ≤ maxStoreOutputBytes) :
    Answers utf8 row timeoutMs before elapsed (.close (some 0) none)
      (storeOutcome row timeoutMs (some elapsed)
        (if (parseStdout row.format (utf8 (bytesOf before))).isEmpty then some .noCertificates
          else none) none (parseStdout row.format (utf8 (bytesOf before)))) where
  store := ⟨rfl, rfl⟩
  budget := ⟨rfl, rfl⟩
  complete h := by
    refine ⟨hfirst, hle, rfl, rfl, fun hnil => ?_⟩
    change parseStdout row.format (utf8 (bytesOf before)) = [] at hnil
    rw [hnil] at h
    cases h
  empty h := by
    by_contra hne
    refine h (if_neg ?_)
    rw [List.isEmpty_iff]
    exact hne
  killed failure hm h := by
    change (if _ then _ else _) = _ at h
    split_ifs at h
    cases h
    exact absurd hm (by decide)
  closed killed h _ := by
    rw [hfirst] at h
    cases h

/-- The event that resolves the promise. -/
theorem Pending.settle (h : Pending before state) (elapsed : ℕ) {event : ChildEvent}
    (hevent : event.Settles) :
    ∃ outcome, (onEvent utf8 row timeoutMs state (elapsed, event)).settled = true ∧
      (onEvent utf8 row timeoutMs state (elapsed, event)).resolved = [outcome] ∧
      Answers utf8 row timeoutMs before elapsed event outcome := by
  have hfinish := finish_of_pending h
  cases event with
  | timer => exact absurd hevent id
  | abort => exact absurd hevent id
  | data chunk => exact absurd hevent id
  | error code =>
    refine ⟨_, (hfinish _).1, (hfinish _).2, answers_failed ?_ (Or.inr fun _ _ he => by cases he)⟩
    split_ifs <;> decide
  | close code signal =>
    simp only [onEvent]
    cases hkilled : state.killed with
    | some killed =>
      exact ⟨_, (hfinish _).1, (hfinish _).2, answers_killed (h.killed ▸ hkilled)⟩
    | none =>
      have hnone : firstTrigger 0 before = none := h.killed ▸ hkilled
      cases signal with
      | some signal =>
        exact ⟨_, (hfinish _).1, (hfinish _).2, answers_failed (by decide) (Or.inl hnone)⟩
      | none =>
        by_cases hcode : code = some 0
        · obtain ⟨hchunks, -, hle⟩ := h.kept hnone
          subst hcode
          simp only [hchunks, ne_eq, not_true_eq_false, if_false]
          exact ⟨_, (hfinish _).1, (hfinish _).2, answers_closed hnone hle⟩
        · simp only [ne_eq, hcode, not_false_eq_true, if_true]
          exact ⟨_, (hfinish _).1, (hfinish _).2, answers_failed (by decide) (Or.inl hnone)⟩

end Step

section Run
variable (utf8 : List UInt8 → String) (row : StoreRow) (timeoutMs : ℕ)

lemma pending_run (before : List (ℕ × ChildEvent)) (h : ∀ entry ∈ before, ¬entry.2.Settles) :
    Pending before (onEvents utf8 row timeoutMs before) := by
  induction before using List.reverseRecOn with
  | nil => exact ⟨rfl, rfl, rfl, fun _ => ⟨rfl, rfl, Nat.zero_le _⟩⟩
  | append_singleton before entry ih =>
    have ih := ih fun e he => h e (List.mem_append_left _ he)
    rw [onEvents, List.foldl_append, List.foldl_cons, List.foldl_nil]
    exact ih.step entry.1 (h entry (by simp))

lemma settled_run (after : List (ℕ × ChildEvent)) {state : ReadState} (h : state.settled = true) :
    (after.foldl (onEvent utf8 row timeoutMs) state).resolved = state.resolved := by
  induction after generalizing state with
  | nil => rfl
  | cons entry after ih =>
    obtain ⟨hsettled, hresolved⟩ := @onEvent_of_settled utf8 row timeoutMs _ h entry
    rw [List.foldl_cons, ih hsettled, hresolved]

/-- A run resolves the promise with the answer to its first `error` or `close`, whatever comes
after it. -/
lemma resolved_run {before : List (ℕ × ChildEvent)} (elapsed : ℕ) {event : ChildEvent}
    (hbefore : ∀ entry ∈ before, ¬entry.2.Settles) (hevent : event.Settles) :
    ∃ outcome, Answers utf8 row timeoutMs before elapsed event outcome ∧ ∀ after,
      (onEvents utf8 row timeoutMs (before ++ (elapsed, event) :: after)).resolved = [outcome] := by
  obtain ⟨outcome, hsettled, hresolved, hanswers⟩ :=
    @Pending.settle utf8 row timeoutMs _ _ (pending_run utf8 row timeoutMs before hbefore) elapsed
      _ hevent
  refine ⟨outcome, hanswers, fun after => ?_⟩
  rw [onEvents, List.foldl_append, List.foldl_cons]
  exact (settled_run utf8 row timeoutMs after hsettled).trans hresolved

/-- Cut at the first `error` or `close`, if there is one. -/
lemma exists_first (events : List (ℕ × ChildEvent)) :
    (∀ entry ∈ events, ¬entry.2.Settles) ∨
      ∃ before elapsed event after, events = before ++ (elapsed, event) :: after ∧
        event.Settles ∧ ∀ entry ∈ before, ¬entry.2.Settles := by
  cases hfind : events.find? fun entry => entry.2.Settles with
  | none => exact Or.inl (by simpa using hfind)
  | some entry =>
    obtain ⟨hsettles, before, after, rfl, hbefore⟩ := List.find?_eq_some_iff_append.mp hfind
    exact Or.inr ⟨before, entry.1, entry.2, after, rfl, by simpa using hsettles,
      by simpa using hbefore⟩

/-- An outcome answers the first `error` or `close`. -/
theorem answers_of_readOneStore {events : List (ℕ × ChildEvent)} {outcome : TrustStoreOutcome}
    (h : readOneStore utf8 row timeoutMs false events = some outcome) :
    ∃ before elapsed event, Answers utf8 row timeoutMs before elapsed event outcome := by
  change (onEvents utf8 row timeoutMs events).resolved.head? = some outcome at h
  obtain hnone | ⟨before, elapsed, event, after, rfl, hevent, hbefore⟩ := exists_first events
  · rw [(pending_run utf8 row timeoutMs events hnone).unresolved] at h
    cases h
  · obtain ⟨answer, hanswers, hresolved⟩ := resolved_run utf8 row timeoutMs elapsed hbefore hevent
    rw [hresolved] at h
    cases h
    exact ⟨before, elapsed, event, hanswers⟩

/-- Whatever fires after the spawn, in whatever order: the promise is resolved once at most, by the
first `error` or `close`, and with an outcome that answers it; what fires later changes
nothing. -/
theorem readOneStore_resolves (events : List (ℕ × ChildEvent)) :
    (onEvents utf8 row timeoutMs events).resolved.length ≤ 1 ∧
      (readOneStore utf8 row timeoutMs false events = none ↔
        ∀ entry ∈ events, ¬entry.2.Settles) ∧
      ∀ before elapsed event after, events = before ++ (elapsed, event) :: after →
        (∀ entry ∈ before, ¬entry.2.Settles) → event.Settles →
          readOneStore utf8 row timeoutMs false events =
              readOneStore utf8 row timeoutMs false (before ++ [(elapsed, event)]) ∧
            ∃ outcome, readOneStore utf8 row timeoutMs false events = some outcome ∧
              Answers utf8 row timeoutMs before elapsed event outcome := by
  have hunresolved : (∀ entry ∈ events, ¬entry.2.Settles) →
      (onEvents utf8 row timeoutMs events).resolved = [] :=
    fun h => (pending_run utf8 row timeoutMs events h).unresolved
  have hread : readOneStore utf8 row timeoutMs false events =
      (onEvents utf8 row timeoutMs events).resolved.head? := rfl
  refine ⟨?_, ?_, ?_⟩
  · obtain hnone | ⟨before, elapsed, event, after, rfl, hevent, hbefore⟩ := exists_first events
    · rw [hunresolved hnone]
      exact Nat.zero_le _
    · obtain ⟨outcome, -, hresolved⟩ := resolved_run utf8 row timeoutMs elapsed hbefore hevent
      rw [hresolved]
      exact Nat.le_refl _
  · rw [hread]
    refine ⟨fun h => ?_, fun h => by rw [hunresolved h]; rfl⟩
    obtain hnone | ⟨before, elapsed, event, after, rfl, hevent, hbefore⟩ := exists_first events
    · exact hnone
    · obtain ⟨outcome, -, hresolved⟩ := resolved_run utf8 row timeoutMs elapsed hbefore hevent
      rw [hresolved] at h
      cases h
  · rintro before elapsed event after rfl hbefore hevent
    obtain ⟨outcome, hanswers, hresolved⟩ := resolved_run utf8 row timeoutMs elapsed hbefore hevent
    have hfirst : ∀ after, readOneStore utf8 row timeoutMs false
        (before ++ (elapsed, event) :: after) = some outcome := by
      intro after
      change (onEvents utf8 row timeoutMs _).resolved.head? = some outcome
      rw [hresolved]
      rfl
    exact ⟨(hfirst after).trans (hfirst []).symm, outcome, hfirst after, hanswers⟩

/-- A child that was killed by the timer, for which the run's signal fires before it closes. -/
theorem readOneStore_resolves_late :
    ∃ outcome, readOneStore (fun _ => "") (osTrustStoreCommands.head (by decide)) 5000 false
        [(5000, .timer), (5001, .abort), (5002, .close none (some "SIGKILL")), (5003, .timer)] =
          some outcome ∧ outcome.failure = some .timeout ∧ outcome.readMs = some 5002 := by
  obtain ⟨-, outcome, hread, hanswers⟩ := (readOneStore_resolves (fun _ => "")
    (osTrustStoreCommands.head (by decide)) 5000
    [(5000, .timer), (5001, .abort), (5002, .close none (some "SIGKILL")), (5003, .timer)]).2.2
    [(5000, .timer), (5001, .abort)] 5002 (.close none (some "SIGKILL")) [(5003, .timer)] rfl
    (by decide) trivial
  exact ⟨outcome, hread, (hanswers.closed _ rfl ⟨_, _, rfl⟩).1, hanswers.budget.2⟩

end Run
end Portcall.Net
