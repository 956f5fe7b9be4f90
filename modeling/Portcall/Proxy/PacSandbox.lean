import Mathlib.Data.List.Induction
import Portcall.Proxy.Pac

/-! One evaluation of a script: the thread it runs on, the timer of who asked for it, and what is
on its way between the two. -/
namespace Portcall.Proxy

/-- On top of the script's own limit, in milliseconds. -/
def watchdogGraceMs : ℕ := 250

inductive PacWorker where
  /-- The request has not reached it. -/
  | listening
  | evaluating
  | gone
  deriving DecidableEq, Repr

/-- What a thread tells its owner. -/
inductive WorkerEvent where
  | message (verdict : PacVerdict)
  | error
  | exit (code : ℤ)
  deriving DecidableEq, Repr

inductive WorkerEventKind where
  | message
  | error
  | exit
  deriving DecidableEq, Repr

def WorkerEvent.kind : WorkerEvent → WorkerEventKind
  | .message _ => .message
  | .error => .error
  | .exit _ => .exit

structure PacEvaluation where
  settled : Bool := false
  /-- The timer is pending. -/
  watchdog : Bool := true
  /-- When the timer is due. -/
  due : ℕ
  /-- What `once` still listens for. -/
  listeners : List WorkerEventKind := [.message, .error, .exit]
  terminations : ℕ := 0
  /-- What the promise was resolved with. -/
  resolved : List PacVerdict := []
  worker : PacWorker := .listening
  /-- Told and not heard yet, the oldest first. -/
  events : List WorkerEvent := []
  deriving DecidableEq, Repr

/-- What can happen next. -/
inductive PacStep where
  /-- The request reaches the thread. -/
  | receive
  /-- The thread posts its verdict and exits before anything else can run on it. -/
  | reply
  /-- The thread dies of an error no one caught. -/
  | fail
  | exit (code : ℤ)
  /-- A termination takes effect. -/
  | kill
  | hear (event : WorkerEvent)
  | expire (now : ℕ)
  deriving DecidableEq, Repr

namespace PacEvaluation

def finish (verdict : PacVerdict) (s : PacEvaluation) : PacEvaluation :=
  if s.settled then s
  else { s with settled := true
                watchdog := false
                terminations := s.terminations + 1
                resolved := s.resolved ++ [verdict] }

/-- What the listener of an event does. -/
def listener (s : PacEvaluation) : WorkerEvent → PacEvaluation
  | .message verdict => s.finish verdict
  | .error => s.finish .error
  | .exit code => if code ≠ 0 then s.finish .error else s

def emit (event : WorkerEvent) (s : PacEvaluation) : PacEvaluation :=
  if event.kind ∈ s.listeners then
    { s with listeners := s.listeners.erase event.kind }.listener event
  else s

/-- The thread is gone, and has told this. -/
def leave (told : List WorkerEvent) (s : PacEvaluation) : PacEvaluation :=
  { s with worker := .gone, events := s.events ++ told }

variable (engine : PacEngine) (call : PacCall)

def step (s : PacEvaluation) : PacStep → Option PacEvaluation
  | .receive => if s.worker = .listening then some { s with worker := .evaluating } else none
  | .reply =>
    if s.worker = .evaluating then some (s.leave [.message (evaluatePac engine call), .exit 0])
    else none
  | .fail => if s.worker ≠ .gone then some (s.leave [.error, .exit 1]) else none
  | .exit code => if s.worker ≠ .gone then some (s.leave [.exit code]) else none
  | .kill =>
    if s.worker ≠ .gone ∧ 0 < s.terminations then some (s.leave [.exit 1]) else none
  | .hear event =>
    match s.events with
    | [] => none
    | first :: rest => if first = event then some ({ s with events := rest }.emit event) else none
  | .expire now =>
    if s.watchdog = true ∧ s.due ≤ now then some ({ s with watchdog := false }.finish .error)
    else none

def steps (s : PacEvaluation) (taken : List PacStep) : Option PacEvaluation :=
  taken.foldlM (fun s one => s.step engine call one) s

/-- `evaluate`, up to where it waits. -/
def evaluate (now timeoutMs : ℕ) : PacEvaluation where
  due := now + (timeoutMs + watchdogGraceMs)

/-- The same where the thread cannot be started. -/
def evaluateUnstarted (now timeoutMs : ℕ) : PacEvaluation where
  watchdog := false
  due := now + (timeoutMs + watchdogGraceMs)
  listeners := []
  resolved := [.error]
  worker := .gone

end PacEvaluation

/-- What a step decides for one who hears it first. -/
def PacStep.verdict? : PacStep → Option PacVerdict
  | .hear (.message verdict) => some verdict
  | .hear .error => some .error
  | .hear (.exit code) => if code ≠ 0 then some .error else none
  | .expire _ => some .error
  | _ => none

/-- What happens sooner or later where it can: the owner hears, the timer fires, a thread that is
terminated ends. -/
def PacStep.Owed : PacStep → Prop
  | .kill | .hear _ | .expire _ => True
  | _ => False

/-- The thread dies on its own. -/
def PacStep.Dies : PacStep → Prop
  | .fail => True
  | .exit code => code ≠ 0
  | _ => False

namespace PacEvaluation
variable {engine : PacEngine} {call : PacCall} {taken : List PacStep} {one : PacStep}
  {s s' : PacEvaluation} {due : ℕ}

section Books

/-- What was resolved is what the first deciding step decided, and all else is in step with it. -/
structure Books (taken : List PacStep) (s : PacEvaluation) : Prop where
  resolved : s.resolved = (taken.findSome? PacStep.verdict?).toList
  settled : s.settled = !s.resolved.isEmpty
  watchdog : s.watchdog = s.resolved.isEmpty
  terminations : s.terminations = s.resolved.length

lemma findSome_concat : (taken ++ [one]).findSome? PacStep.verdict? =
    (taken.findSome? PacStep.verdict?).or one.verdict? := by
  rw [List.findSome?_append]
  cases h : one.verdict? <;> simp [h]

lemma Books.undecided (h : Books taken s) (hone : one.verdict? = none) :
    Books (taken ++ [one]) s where
  resolved := by rw [findSome_concat, hone, Option.or_none, h.resolved]
  settled := h.settled
  watchdog := h.watchdog
  terminations := h.terminations

lemma Books.decided {verdict : PacVerdict} (h : Books taken s)
    (hone : one.verdict? = some verdict) : Books (taken ++ [one]) (s.finish verdict) := by
  have hresolved := h.resolved
  have hsettled := h.settled
  have hterminations := h.terminations
  unfold finish
  cases hfirst : taken.findSome? PacStep.verdict? with
  | none =>
    rw [hfirst] at hresolved
    rw [hresolved] at hsettled hterminations
    rw [if_neg (by simp [hsettled])]
    exact ⟨by simp [hfirst, hone, hresolved], by simp [hresolved],
      by simp [hresolved], by simp [hresolved, hterminations]⟩
  | some first =>
    rw [hfirst] at hresolved
    rw [if_pos (by simp [hsettled, hresolved])]
    exact ⟨by rw [findSome_concat, hfirst, hresolved]; rfl, h.settled, h.watchdog,
      h.terminations⟩

end Books

section Wire

/-- What a thread may have told by now. -/
def Honest (engine : PacEngine) (call : PacCall) (taken : List PacStep) (s : PacEvaluation) :
    WorkerEvent → Prop
  | .message verdict => verdict = evaluatePac engine call
  | .error => ∃ one ∈ taken, one.Dies
  | .exit code => code ≠ 0 → (∃ one ∈ taken, one.Dies) ∨ 0 < s.terminations

structure Wire (engine : PacEngine) (call : PacCall) (taken : List PacStep) (s : PacEvaluation) :
    Prop where
  alive : s.worker ≠ .gone → s.events = [] ∧ s.listeners = [.message, .error, .exit]
  kinds : (s.events.map WorkerEvent.kind).Nodup
  /-- Nothing is told that no one listens for, so no error goes uncaught. -/
  listened : ∀ event ∈ s.events, event.kind ∈ s.listeners
  honest : ∀ event ∈ s.events, Honest engine call taken s event

variable {event : WorkerEvent} {verdict : PacVerdict}

@[simp] lemma finish_worker : (s.finish verdict).worker = s.worker := by
  unfold finish; split_ifs <;> rfl

@[simp] lemma finish_events : (s.finish verdict).events = s.events := by
  unfold finish; split_ifs <;> rfl

@[simp] lemma finish_listeners : (s.finish verdict).listeners = s.listeners := by
  unfold finish; split_ifs <;> rfl

@[simp] lemma finish_due : (s.finish verdict).due = s.due := by
  unfold finish; split_ifs <;> rfl

lemma terminations_le_finish : s.terminations ≤ (s.finish verdict).terminations := by
  unfold finish
  split_ifs
  · exact le_rfl
  · exact Nat.le_succ _

/-- An event does to its owner what it decides. -/
lemma listener_eq : s.listener event =
    ((PacStep.hear event).verdict?).elim s fun verdict => s.finish verdict := by
  cases event with
  | message verdict => rfl
  | error => rfl
  | exit code =>
    unfold listener PacStep.verdict?
    dsimp only
    split_ifs <;> rfl

lemma Honest.mono (h : Honest engine call taken s event) (hle : s.terminations ≤ s'.terminations) :
    Honest engine call (taken ++ [one]) s' event := by
  have hmono : (∃ one ∈ taken, one.Dies) → ∃ other ∈ taken ++ [one], other.Dies := by
    rintro ⟨other, hm, hdies⟩
    exact ⟨other, List.mem_append_left _ hm, hdies⟩
  cases event with
  | message verdict => exact h
  | error => exact hmono h
  | exit code => exact fun hcode => (h hcode).imp hmono fun hpos => hpos.trans_le hle

lemma Wire.mono (h : Wire engine call taken s) (hworker : s'.worker = s.worker)
    (hevents : s'.events = s.events) (hlisteners : s'.listeners = s.listeners)
    (hle : s.terminations ≤ s'.terminations) : Wire engine call (taken ++ [one]) s' where
  alive := by rw [hworker, hevents, hlisteners]; exact h.alive
  kinds := by rw [hevents]; exact h.kinds
  listened := by rw [hevents, hlisteners]; exact h.listened
  honest := by rw [hevents]; exact fun event hm => (h.honest event hm).mono hle

lemma mem_listeners (event : WorkerEvent) :
    event.kind ∈ [WorkerEventKind.message, .error, .exit] := by
  cases event <;> simp [WorkerEvent.kind]

lemma Wire.leave (h : Wire engine call taken s) (hworker : s.worker ≠ .gone)
    {told : List WorkerEvent} (hkinds : (told.map WorkerEvent.kind).Nodup)
    (hhonest : ∀ event ∈ told, Honest engine call (taken ++ [one]) s event) :
    Wire engine call (taken ++ [one]) (s.leave told) := by
  obtain ⟨hevents, hlisteners⟩ := h.alive hworker
  have htold : (s.leave told).events = told := by simp [PacEvaluation.leave, hevents]
  refine ⟨fun hgone => absurd rfl hgone, by rwa [htold], fun event _ => ?_, ?_⟩
  · change event.kind ∈ s.listeners
    rw [hlisteners]
    exact mem_listeners event
  · rw [htold]
    intro event hm
    have htelling := hhonest event hm
    cases event <;> exact htelling

/-- The owner, about to do what its listener does. -/
def hearing (event : WorkerEvent) (rest : List WorkerEvent) (s : PacEvaluation) : PacEvaluation :=
  { s with events := rest, listeners := s.listeners.erase event.kind }

/-- Who hears an event no longer listens for its kind, and nothing else of that kind comes. -/
lemma Wire.hearing (h : Wire engine call taken s) {rest : List WorkerEvent}
    (hevents : s.events = event :: rest) : Wire engine call taken (s.hearing event rest) := by
  have hkinds := h.kinds
  rw [hevents, List.map_cons, List.nodup_cons] at hkinds
  refine ⟨fun hworker => ?_, hkinds.2, fun other hm => ?_, fun other hm => ?_⟩
  · have hnil := (h.alive hworker).1
    rw [hevents] at hnil
    cases hnil
  · refine (List.mem_erase_of_ne ?_).mpr
      (h.listened other (hevents ▸ List.mem_cons_of_mem _ hm))
    rintro hkind
    exact hkinds.1 (hkind ▸ List.mem_map_of_mem hm)
  · have hhonest := h.honest other (hevents ▸ List.mem_cons_of_mem _ hm)
    cases other <;> exact hhonest

end Wire

section Orderly

/-- How much is still to come at most: what the thread can tell, what it told, and the timer. -/
def weight (s : PacEvaluation) : ℕ :=
  (match s.worker with
    | .listening => 4
    | .evaluating => 3
    | .gone => 0) + s.events.length + s.watchdog.toNat

/-- Why the caller has a verdict: it is the script's own, or an error because the thread died or
the time was up. -/
def Explained (engine : PacEngine) (call : PacCall) (taken : List PacStep) (due : ℕ)
    (verdict : PacVerdict) : Prop :=
  verdict = evaluatePac engine call ∨ verdict = .error ∧
    ((∃ one ∈ taken, one.Dies) ∨ ∃ now, .expire now ∈ taken ∧ due ≤ now)

lemma Explained.mono {verdict : PacVerdict} (h : Explained engine call taken due verdict) :
    Explained engine call (taken ++ [one]) due verdict := by
  rcases h with h | ⟨h, ⟨other, hm, hdies⟩ | ⟨now, hm, hdue⟩⟩
  · exact Or.inl h
  · exact Or.inr ⟨h, Or.inl ⟨other, List.mem_append_left _ hm, hdies⟩⟩
  · exact Or.inr ⟨h, Or.inr ⟨now, List.mem_append_left _ hm, hdue⟩⟩

/-- What holds of an evaluation after any steps. -/
structure Orderly (engine : PacEngine) (call : PacCall) (due : ℕ) (taken : List PacStep)
    (s : PacEvaluation) : Prop where
  books : Books taken s
  wire : Wire engine call taken s
  dueAt : s.due = due
  explained : ∀ verdict ∈ s.resolved, Explained engine call taken due verdict
  bounded : taken.length + s.weight ≤ 5

lemma mem_resolved_finish {verdict verdict' : PacVerdict} (h : Books taken s)
    (hm : verdict' ∈ (s.finish verdict).resolved) :
    verdict' ∈ s.resolved ∨ s.terminations = 0 ∧ verdict' = verdict := by
  unfold finish at hm
  split_ifs at hm with hsettled
  · exact Or.inl hm
  · have hempty : s.resolved = [] := by simpa [h.settled] using hsettled
    rcases List.mem_append.mp hm with hm | hm
    · exact Or.inl hm
    · exact Or.inr ⟨by rw [h.terminations, hempty]; rfl, List.mem_singleton.mp hm⟩

lemma weight_finish_le {verdict : PacVerdict} : (s.finish verdict).weight ≤ s.weight := by
  unfold finish
  split_ifs
  · exact le_rfl
  · simp [weight]

lemma Orderly.leave (h : Orderly engine call due taken s) (hworker : s.worker ≠ .gone)
    (hone : one.verdict? = none) {told : List WorkerEvent}
    (hkinds : (told.map WorkerEvent.kind).Nodup)
    (hhonest : ∀ event ∈ told, Honest engine call (taken ++ [one]) s event)
    (htold : told.length ≤ 2) : Orderly engine call due (taken ++ [one]) (s.leave told) := by
  have hevents := (h.wire.alive hworker).1
  have hbounded := h.bounded
  have hbooks := h.books.undecided hone
  refine ⟨⟨hbooks.1, hbooks.2, hbooks.3, hbooks.4⟩, h.wire.leave hworker hkinds hhonest, h.dueAt,
    fun verdict hm => (h.explained verdict hm).mono, ?_⟩
  have hless : (s.leave told).weight < s.weight := by
    cases hs : s.worker <;> simp [weight, PacEvaluation.leave, hevents, hs] at hworker ⊢ <;> omega
  rw [List.length_append, List.length_singleton]
  omega

/-- What a thread told explains what its owner makes of it. -/
lemma Honest.explained {event : WorkerEvent} {verdict : PacVerdict}
    (h : Honest engine call taken s event) (hterminations : s.terminations = 0)
    (hverdict : (PacStep.hear event).verdict? = some verdict) :
    Explained engine call taken due verdict := by
  cases event with
  | message told =>
    cases hverdict
    exact Or.inl h
  | error =>
    cases hverdict
    exact Or.inr ⟨rfl, Or.inl h⟩
  | exit code =>
    unfold PacStep.verdict? at hverdict
    dsimp only at hverdict
    split_ifs at hverdict with hcode
    cases hverdict
    rcases h hcode with hdies | hpos
    · exact Or.inr ⟨rfl, Or.inl hdies⟩
    · omega

lemma Orderly.hear (h : Orderly engine call due taken s) {event : WorkerEvent}
    {rest : List WorkerEvent} (hevents : s.events = event :: rest) :
    Orderly engine call due (taken ++ [.hear event])
      ({ s with events := rest }.emit event) := by
  have hm : event ∈ s.events := hevents ▸ List.mem_cons_self
  have hwire := h.wire.hearing hevents
  have hbooks : Books taken (s.hearing event rest) :=
    ⟨h.books.1, h.books.2, h.books.3, h.books.4⟩
  have hweight : (s.hearing event rest).weight + 1 = s.weight := by
    simp [weight, hearing, hevents]
    omega
  have hbounded := h.bounded
  have hemit : { s with events := rest }.emit event =
      ((PacStep.hear event).verdict?).elim (s.hearing event rest) fun verdict =>
        (s.hearing event rest).finish verdict := by
    rw [← listener_eq]
    exact if_pos (h.wire.listened event hm)
  rw [hemit]
  cases hverdict : (PacStep.hear event).verdict? with
  | none =>
    refine ⟨hbooks.undecided hverdict, hwire.mono rfl rfl rfl le_rfl, h.dueAt,
      fun verdict hm => (h.explained verdict hm).mono, ?_⟩
    rw [List.length_append, List.length_singleton, Option.elim_none]
    omega
  | some verdict =>
    refine ⟨hbooks.decided hverdict, hwire.mono (by simp) (by simp) (by simp)
      terminations_le_finish, finish_due.trans h.dueAt, fun verdict' hm' => ?_, ?_⟩
    · rcases mem_resolved_finish hbooks hm' with hm' | ⟨hzero, rfl⟩
      · exact (h.explained verdict' hm').mono
      · exact ((h.wire.honest event hm).explained hzero hverdict).mono
    · have hle := @weight_finish_le (s.hearing event rest) verdict
      rw [List.length_append, List.length_singleton, Option.elim_some]
      omega

lemma Orderly.expire (h : Orderly engine call due taken s) {now : ℕ} (hwatchdog : s.watchdog = true)
    (hdue : s.due ≤ now) : Orderly engine call due (taken ++ [.expire now])
      ({ s with watchdog := false }.finish .error) := by
  have hempty : s.resolved = [] := by simpa [h.books.watchdog] using hwatchdog
  have hfinish : { s with watchdog := false }.finish .error = s.finish .error := by
    unfold finish
    simp [h.books.settled, hempty]
  have hbounded := h.bounded
  rw [hfinish]
  refine ⟨h.books.decided rfl, h.wire.mono (by simp) (by simp) (by simp) terminations_le_finish,
    by simpa using h.dueAt, fun verdict hm => ?_, ?_⟩
  · rcases mem_resolved_finish h.books hm with hm | ⟨-, rfl⟩
    · exact (h.explained verdict hm).mono
    · exact Or.inr ⟨rfl, Or.inr ⟨now, by simp, h.dueAt ▸ hdue⟩⟩
  · have hless : (s.finish .error).weight + 1 = s.weight := by
      simp [weight, finish, h.books.settled, hempty, hwatchdog]
    rw [List.length_append, List.length_singleton]
    omega

/-- Every step keeps an evaluation in order. -/
lemma orderly_step (h : Orderly engine call due taken s) (hstep : s.step engine call one = some s') :
    Orderly engine call due (taken ++ [one]) s' := by
  have hdies : one.Dies → ∃ other ∈ taken ++ [one], other.Dies := fun hdies =>
    ⟨one, by simp, hdies⟩
  cases one with
  | receive =>
    obtain ⟨hworker, hs'⟩ := Option.ite_none_right_eq_some.mp hstep
    cases hs'
    have hbounded := h.bounded
    have hbooks := @Books.undecided _ .receive _ h.books rfl
    have hwire := @Wire.mono _ _ _ .receive _ s h.wire rfl rfl rfl le_rfl
    refine ⟨⟨hbooks.1, hbooks.2, hbooks.3, hbooks.4⟩,
      ⟨fun _ => h.wire.alive (by simp [hworker]), hwire.2, hwire.3, fun event hm => ?_⟩, h.dueAt,
      fun verdict hm => (h.explained verdict hm).mono, ?_⟩
    · have hhonest := hwire.honest event hm
      cases event <;> exact hhonest
    · have hweight : PacEvaluation.weight { s with worker := .evaluating } + 1 = s.weight := by
        simp [weight, hworker]
        omega
      rw [List.length_append, List.length_singleton]
      omega
  | reply =>
    obtain ⟨hworker, hs'⟩ := Option.ite_none_right_eq_some.mp hstep
    cases hs'
    refine h.leave (by simp [hworker]) rfl (by simp [WorkerEvent.kind]) (fun event hm => ?_) le_rfl
    rcases List.mem_pair.mp hm with rfl | rfl
    · rfl
    · exact fun hcode => absurd rfl hcode
  | fail =>
    obtain ⟨hworker, hs'⟩ := Option.ite_none_right_eq_some.mp hstep
    cases hs'
    refine h.leave hworker rfl (by decide) (fun event hm => ?_) le_rfl
    rcases List.mem_pair.mp hm with rfl | rfl
    · exact hdies trivial
    · exact fun _ => Or.inl (hdies trivial)
  | exit code =>
    obtain ⟨hworker, hs'⟩ := Option.ite_none_right_eq_some.mp hstep
    cases hs'
    refine h.leave hworker rfl (List.nodup_singleton _) (fun event hm => ?_) (by simp)
    rw [List.mem_singleton.mp hm]
    exact fun hcode => Or.inl (hdies hcode)
  | kill =>
    obtain ⟨⟨hworker, hpos⟩, hs'⟩ := Option.ite_none_right_eq_some.mp hstep
    cases hs'
    refine h.leave hworker rfl (List.nodup_singleton _) (fun event hm => ?_) (by simp)
    rw [List.mem_singleton.mp hm]
    exact fun _ => Or.inr hpos
  | hear event =>
    unfold step at hstep
    cases hevents : s.events with
    | nil => simp [hevents] at hstep
    | cons first rest =>
      simp only [hevents] at hstep
      obtain ⟨rfl, hs'⟩ := Option.ite_none_right_eq_some.mp hstep
      cases hs'
      exact h.hear hevents
  | expire now =>
    obtain ⟨⟨hwatchdog, hdue⟩, hs'⟩ := Option.ite_none_right_eq_some.mp hstep
    cases hs'
    exact h.expire hwatchdog hdue

lemma orderly_evaluate (engine : PacEngine) (call : PacCall) (now timeoutMs : ℕ) :
    Orderly engine call (now + (timeoutMs + watchdogGraceMs)) [] (evaluate now timeoutMs) where
  books := ⟨rfl, rfl, rfl, rfl⟩
  wire := ⟨fun _ => ⟨rfl, rfl⟩, List.nodup_nil, fun _ hm => absurd hm List.not_mem_nil,
    fun _ hm => absurd hm List.not_mem_nil⟩
  dueAt := rfl
  explained _ hm := absurd hm List.not_mem_nil
  bounded := le_rfl

lemma orderly_steps {now timeoutMs : ℕ}
    (h : (evaluate now timeoutMs).steps engine call taken = some s) :
    Orderly engine call (now + (timeoutMs + watchdogGraceMs)) taken s := by
  induction taken using List.reverseRecOn generalizing s with
  | nil =>
    cases h
    exact orderly_evaluate engine call now timeoutMs
  | append_singleton taken one ih =>
    unfold steps at h
    rw [List.foldlM_append] at h
    obtain ⟨before, hbefore, hstep⟩ := Option.bind_eq_some_iff.mp h
    rw [List.foldlM_cons] at hstep
    obtain ⟨after, hafter, hs⟩ := Option.bind_eq_some_iff.mp hstep
    cases hs
    exact orderly_step (ih hbefore) hafter

end Orderly

section Evaluate
variable {now timeoutMs : ℕ}

/-- A thread that could not be started says nothing, and no timer is left. -/
lemma step_evaluateUnstarted (one : PacStep) :
    (evaluateUnstarted now timeoutMs).step engine call one = none := by
  cases one <;> rfl

/-- And the caller keeps the one error it was told at once, whatever comes. -/
theorem evaluateUnstarted_steps_iff :
    (evaluateUnstarted now timeoutMs).steps engine call taken = some s ↔
      taken = [] ∧ s = evaluateUnstarted now timeoutMs := by
  cases taken with
  | nil =>
    change some _ = some s ↔ _
    rw [Option.some.injEq, eq_comm, and_iff_right rfl]
  | cons one taken =>
    refine iff_of_false (fun h => ?_) (fun h => absurd h.1 (List.cons_ne_nil _ _))
    rw [steps, List.foldlM_cons, step_evaluateUnstarted] at h
    cases h

/-- What the caller is told, and what becomes of the thread and the timer. -/
structure Decided (engine : PacEngine) (call : PacCall) (due : ℕ) (taken : List PacStep)
    (s : PacEvaluation) : Prop where
  /-- The first step that decides is the only one that does. -/
  first : s.resolved = (taken.findSome? PacStep.verdict?).toList
  /-- The thread is terminated once, together with the timer, when there is a verdict. -/
  terminated : s.terminations = s.resolved.length
  pending : s.watchdog = true ↔ s.resolved = []
  explained : ∀ verdict ∈ s.resolved, Explained engine call taken due verdict
  /-- No error of the thread goes uncaught. -/
  caught : .error ∈ s.events → .error ∈ s.listeners

/-- Whatever the thread does, and however that falls together with the timer, the promise is
resolved with what was decided first: the script's own verdict, or an error that a dead thread or
the end of its time explains. -/
theorem evaluate_decided (h : (evaluate now timeoutMs).steps engine call taken = some s) :
    Decided engine call (now + (timeoutMs + watchdogGraceMs)) taken s := by
  have horderly := orderly_steps h
  exact ⟨horderly.books.resolved, horderly.books.terminations,
    by rw [horderly.books.watchdog, List.isEmpty_iff], horderly.explained,
    fun hm => horderly.wire.listened _ hm⟩

/-- A script that answers, and a call that asks it. -/
def directEngine : PacEngine := fun _ => some (some "DIRECT")

def plainCall : PacCall where
  url := "https://api.example.com/"
  host := "api.example.com"
  scriptText := ""
  resolvedTarget := none
  myAddress := "127.0.0.1"
  now := 0

def answeredSteps : List PacStep :=
  [.receive, .reply, .hear (.message .direct), .hear (.exit 0)]

def answeredEvaluation : PacEvaluation where
  settled := true
  watchdog := false
  due := 1250
  listeners := [.error]
  terminations := 1
  resolved := [.direct]
  worker := .gone

theorem evaluate_decided_direct :
    Decided directEngine plainCall 1250 answeredSteps answeredEvaluation :=
  @evaluate_decided directEngine plainCall answeredSteps answeredEvaluation 0 1000 (by decide +kernel)

/-- There are at most five steps, and then one verdict, one that some answer of the script is
parsed into; nothing is left of the thread, its events and the timer. -/
theorem evaluate_ends (h : (evaluate now timeoutMs).steps engine call taken = some s) :
    taken.length ≤ 5 ∧ ((∀ one : PacStep, one.Owed → s.step engine call one = none) →
      (∃ answer, s.resolved = [evaluatePac (fun _ => answer) call]) ∧ s.worker = .gone ∧
        s.events = [] ∧ s.watchdog = false ∧ s.terminations = 1) := by
  have horderly := orderly_steps h
  have hbooks := horderly.books
  refine ⟨(Nat.le_add_right _ _).trans horderly.bounded, fun hquiet => ?_⟩
  have hwatchdog : s.watchdog = false := by
    by_contra hpending
    have hnone := hquiet (.expire s.due) trivial
    simp [step, hpending] at hnone
  have hevents : s.events = [] := by
    cases hevents : s.events with
    | nil => rfl
    | cons event rest =>
      have hnone := hquiet (.hear event) trivial
      simp [step, hevents] at hnone
  have hone : ∃ verdict, s.resolved = [verdict] := by
    have hresolved := hbooks.resolved
    have hempty := hbooks.watchdog
    cases hfirst : taken.findSome? PacStep.verdict? with
    | none =>
      rw [hfirst] at hresolved
      rw [hwatchdog, hresolved] at hempty
      cases hempty
    | some verdict => exact ⟨verdict, by rw [hresolved, hfirst]; rfl⟩
  obtain ⟨verdict, hverdict⟩ := hone
  have hterminations : s.terminations = 1 := by rw [hbooks.terminations, hverdict]; rfl
  have hworker : s.worker = .gone := by
    by_contra halive
    have hnone := hquiet .kill trivial
    simp [step, halive, hterminations] at hnone
  refine ⟨?_, hworker, hevents, hwatchdog, hterminations⟩
  rw [hverdict]
  rcases horderly.explained verdict (by simp [hverdict]) with rfl | ⟨rfl, -⟩
  · exact ⟨engine call, rfl⟩
  · refine ⟨none, ?_⟩
    unfold evaluatePac
    split_ifs <;> rfl

theorem evaluate_ends_direct : answeredSteps.length ≤ 5 ∧
    ((∀ one : PacStep, one.Owed → answeredEvaluation.step directEngine plainCall one = none) →
      (∃ answer, answeredEvaluation.resolved = [evaluatePac (fun _ => answer) plainCall]) ∧
        answeredEvaluation.worker = .gone ∧ answeredEvaluation.events = [] ∧
        answeredEvaluation.watchdog = false ∧ answeredEvaluation.terminations = 1) :=
  @evaluate_ends directEngine plainCall answeredSteps answeredEvaluation 0 1000 (by decide +kernel)

end Evaluate

end PacEvaluation
end Portcall.Proxy
