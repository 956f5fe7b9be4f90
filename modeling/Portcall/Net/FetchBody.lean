import Mathlib.Data.List.Induction
import Portcall.Net.Codes

/-! Reading the body of a PAC script: what the handlers of the request's events do to what they
share, in whatever order the events fire. -/
namespace Portcall.Net

/-- How a promise that was awaited ended. -/
inductive Settled (α : Type) where
  | done (value : α)
  | threw (error : Thrown)
  deriving DecidableEq, Repr

/-- The status a parser read, when it is one. -/
def plausibleStatus (statusCode : Option ℕ) : Option ℕ :=
  statusCode.filter fun status => 100 ≤ status && status ≤ 599

structure Fetched where
  status : Option ℕ
  body : String
  deriving DecidableEq, Repr

/-- What fires once the request is made; the last three are the response's own. -/
inductive BodyEvent where
  | abort
  | requestError (error : Thrown)
  | response (statusCode : Option ℕ)
  | data (chunk : List UInt8)
  | finish
  | responseError (error : Thrown)
  deriving DecidableEq, Repr

/-- A response body that grew past the caller's cap. -/
def pacTooLarge : Thrown where
  thrownClass := .error
  name := "PacTooLarge"
  code := some "PAC_TOO_LARGE"

def phaseAborted : Thrown := { thrownClass := .error, name := "Error" }

/-- What the handlers share. The response's own are there once it has come. -/
structure BodyRead where
  statusCode : Option (Option ℕ) := none
  chunks : List (List UInt8) := []
  received : ℕ := 0
  overflowed : Bool := false
  settled : Option (Settled Fetched) := none
  deriving DecidableEq, Repr

/-- A promise is settled once. -/
def BodyRead.settle (read : BodyRead) (result : Settled Fetched) : BodyRead :=
  { read with settled := read.settled.or (some result) }

section Read
variable (utf8 : List UInt8 → String) (maxBytes : ℕ)

def BodyRead.on (read : BodyRead) : BodyEvent → BodyRead
  | .abort => read.settle (.threw phaseAborted)
  | .requestError error => read.settle (.threw error)
  | .response statusCode => { read with statusCode := read.statusCode.or (some statusCode) }
  | .data chunk =>
    if read.statusCode.isNone || read.overflowed then read
    else
      let received := read.received + chunk.length
      if maxBytes < received then
        { read with received, overflowed := true }.settle (.threw pacTooLarge)
      else { read with received, chunks := read.chunks ++ [chunk] }
  | .finish =>
    match read.statusCode with
    | none => read
    | some statusCode =>
      if read.overflowed then read
      else read.settle (.done ⟨plausibleStatus statusCode, utf8 read.chunks.flatten⟩)
  | .responseError error =>
    if read.statusCode.isNone || read.overflowed then read else read.settle (.threw error)

/-- The request is not made when the signal has fired already. -/
def BodyRead.start (aborted : Bool) : BodyRead :=
  if aborted then BodyRead.settle {} (.threw phaseAborted) else {}

/-- How the promise ends, if these events end it. -/
def fetchBody (aborted : Bool) (events : List BodyEvent) : Option (Settled Fetched) :=
  (events.foldl (BodyRead.on utf8 maxBytes) (.start aborted)).settled

end Read

def BodyEvent.statusCode? : BodyEvent → Option (Option ℕ)
  | .response statusCode => some statusCode
  | _ => none

def BodyEvent.bytes : BodyEvent → List UInt8
  | .data chunk => chunk
  | _ => []

/-- The status of the response, once it has come. -/
def statusOf (events : List BodyEvent) : Option (Option ℕ) :=
  events.findSome? BodyEvent.statusCode?

/-- All the bytes the response has brought. -/
def bodyOf (events : List BodyEvent) : List UInt8 :=
  (events.dropWhile fun event => event.statusCode?.isNone).flatMap BodyEvent.bytes

/-- These events leave the promise open. -/
structure Undecided (maxBytes : ℕ) (events : List BodyEvent) : Prop where
  notAborted : .abort ∉ events
  requestError : ∀ error, .requestError error ∉ events
  finish : ∀ before after, events = before ++ .finish :: after → statusOf before = none
  responseError : ∀ error before after, events = before ++ .responseError error :: after →
    statusOf before = none
  within : (bodyOf events).length ≤ maxBytes

section History
variable {events : List BodyEvent} {event : BodyEvent} {maxBytes : ℕ}

lemma statusOf_append (before after : List BodyEvent) :
    statusOf (before ++ after) = (statusOf before).or (statusOf after) := List.findSome?_append

lemma bodyOf_of_statusOf_none (h : statusOf events = none) : bodyOf events = [] := by
  have hall : events.dropWhile (fun event => event.statusCode?.isNone) = [] := by
    rw [List.dropWhile_eq_nil_iff]
    intro event hm
    rw [Option.isNone_iff_eq_none]
    exact List.findSome?_eq_none_iff.mp h event hm
  rw [bodyOf, hall, List.flatMap_nil]

lemma bodyOf_append_singleton :
    bodyOf (events ++ [event]) =
      if statusOf events = none then [] else bodyOf events ++ event.bytes := by
  by_cases h : statusOf events = none
  · rw [if_pos h, bodyOf, List.dropWhile_append_of_pos]
    · cases event <;> rfl
    · intro other hm
      rw [Option.isNone_iff_eq_none]
      exact List.findSome?_eq_none_iff.mp h other hm
  · rw [if_neg h]
    have hne : events.dropWhile (fun event => event.statusCode?.isNone) ≠ [] := by
      intro hnil
      rw [List.dropWhile_eq_nil_iff] at hnil
      refine h (List.findSome?_eq_none_iff.mpr fun other hm => ?_)
      exact Option.isNone_iff_eq_none.mp (hnil other hm)
    rw [bodyOf, List.dropWhile_append, if_neg (by simpa using hne), List.flatMap_append]
    simp [bodyOf]

lemma undecided_nil : Undecided maxBytes [] where
  notAborted := List.not_mem_nil
  requestError _ := List.not_mem_nil
  finish before after h := by simp at h
  responseError _ before after h := by simp at h
  within := Nat.zero_le _

lemma Undecided.of_append_singleton (h : Undecided maxBytes (events ++ [event])) :
    Undecided maxBytes events where
  notAborted hm := h.notAborted (List.mem_append_left _ hm)
  requestError error hm := h.requestError error (List.mem_append_left _ hm)
  finish before after he := h.finish before (after ++ [event]) (by rw [he]; simp)
  responseError error before after he :=
    h.responseError error before (after ++ [event]) (by rw [he]; simp)
  within := by
    refine le_trans ?_ h.within
    rw [bodyOf_append_singleton]
    split_ifs with hstatus
    · rw [bodyOf_of_statusOf_none hstatus]
    · simp

/-- What one more event needs to be to leave the promise open. -/
lemma undecided_append_singleton_iff : Undecided maxBytes (events ++ [event]) ↔
    Undecided maxBytes events ∧ event ≠ .abort ∧ (∀ error, event ≠ .requestError error) ∧
      (event = .finish → statusOf events = none) ∧
      (∀ error, event = .responseError error → statusOf events = none) ∧
      (statusOf events ≠ none → (bodyOf events ++ event.bytes).length ≤ maxBytes) := by
  constructor
  · intro h
    refine ⟨h.of_append_singleton, fun he => h.notAborted (by simp [he]), fun error he => ?_,
      fun he => h.finish events [] (by rw [he]),
      fun error he => h.responseError error events [] (by rw [he]), fun hstatus => ?_⟩
    · exact h.requestError error (by simp [he])
    · have hwithin := h.within
      rwa [bodyOf_append_singleton, if_neg hstatus] at hwithin
  · rintro ⟨h, habort, hrequest, hfinish, hresponse, hwithin⟩
    -- the event that would decide is an old one or the last
    have hsplit : ∀ {other : BodyEvent} {before after : List BodyEvent},
        events ++ [event] = before ++ other :: after →
        (∃ rest, events = before ++ other :: rest) ∨ (event = other ∧ events = before) := by
      intro other before after he
      rcases List.eq_nil_or_concat after with rfl | ⟨rest, last, rfl⟩
      · obtain ⟨hevents, hother⟩ := List.append_inj' he rfl
        cases hother
        exact Or.inr ⟨rfl, hevents⟩
      · rw [List.concat_eq_append, ← List.cons_append, ← List.append_assoc] at he
        exact Or.inl ⟨rest, (List.append_inj' he rfl).1⟩
    refine ⟨fun hm => ?_, fun error hm => ?_, fun before after he => ?_,
      fun error before after he => ?_, ?_⟩
    · rcases List.mem_append.mp hm with hm | hm
      · exact h.notAborted hm
      · exact habort (List.mem_singleton.mp hm).symm
    · rcases List.mem_append.mp hm with hm | hm
      · exact h.requestError error hm
      · exact hrequest error (List.mem_singleton.mp hm).symm
    · rcases hsplit he with ⟨rest, hevents⟩ | ⟨hother, rfl⟩
      · exact h.finish before rest hevents
      · exact hfinish hother
    · rcases hsplit he with ⟨rest, hevents⟩ | ⟨hother, rfl⟩
      · exact h.responseError error before rest hevents
      · exact hresponse error hother
    · rw [bodyOf_append_singleton]
      split_ifs with hstatus
      · exact Nat.zero_le _
      · exact hwithin hstatus

end History

section Run
variable {utf8 : List UInt8 → String} {maxBytes : ℕ} {read : BodyRead} {events : List BodyEvent}
  {event : BodyEvent} {result : Settled Fetched}

/-- What the handlers know while the promise is open. -/
structure Reading (events : List BodyEvent) (read : BodyRead) : Prop where
  statusCode : read.statusCode = statusOf events
  chunks : read.chunks.flatten = bodyOf events
  received : read.received = (bodyOf events).length
  overflowed : read.overflowed = false
  settled : read.settled = none

/-- What an event makes of the promise, after the events before it. -/
def decision (utf8 : List UInt8 → String) (maxBytes : ℕ) (before : List BodyEvent) :
    BodyEvent → Option (Settled Fetched)
  | .abort => some (.threw phaseAborted)
  | .requestError error => some (.threw error)
  | .response _ => none
  | .data chunk =>
    if statusOf before ≠ none ∧ maxBytes < (bodyOf before ++ chunk).length then
      some (.threw pacTooLarge)
    else none
  | .finish => (statusOf before).map fun statusCode =>
    .done ⟨plausibleStatus statusCode, utf8 (bodyOf before)⟩
  | .responseError error => (statusOf before).map fun _ => .threw error

lemma settled_settle (h : read.settled = none) (result : Settled Fetched) :
    (read.settle result).settled = some result := by
  rw [BodyRead.settle, h, Option.none_or]

/-- Before the response has come, its own events are not listened to. -/
lemma Reading.unheard (h : Reading events read) (hnone : statusOf events = none)
    (hevent : event.statusCode? = none) : Reading (events ++ [event]) read := by
  have hstatus : statusOf (events ++ [event]) = none := by
    rw [statusOf_append, hnone, Option.none_or, statusOf, List.findSome?_cons, hevent]
    rfl
  have hbody : bodyOf (events ++ [event]) = bodyOf events := by
    rw [bodyOf_append_singleton, if_pos hnone, bodyOf_of_statusOf_none hnone]
  refine ⟨?_, ?_, ?_, h.overflowed, h.settled⟩
  · rw [h.statusCode, hnone, hstatus]
  · rw [hbody, h.chunks]
  · rw [hbody, h.received]

lemma Reading.on_response (h : Reading events read) (statusCode : Option ℕ) :
    Reading (events ++ [.response statusCode]) (read.on utf8 maxBytes (.response statusCode)) := by
  have hbody : bodyOf (events ++ [.response statusCode]) = bodyOf events := by
    rw [bodyOf_append_singleton]
    split_ifs with hnone
    · exact (bodyOf_of_statusOf_none hnone).symm
    · exact List.append_nil _
  refine ⟨?_, ?_, ?_, h.overflowed, h.settled⟩
  · rw [statusOf_append, ← h.statusCode]
    rfl
  · rw [hbody, ← h.chunks]
    rfl
  · rw [hbody, ← h.received]
    rfl

lemma Reading.on_data (h : Reading events read) {statusCode : Option ℕ}
    (hstatus : statusOf events = some statusCode) {chunk : List UInt8}
    (hwithin : (bodyOf events ++ chunk).length ≤ maxBytes) :
    Reading (events ++ [.data chunk]) (read.on utf8 maxBytes (.data chunk)) := by
  have hbody : bodyOf (events ++ [.data chunk]) = bodyOf events ++ chunk := by
    rw [bodyOf_append_singleton, if_neg (by simp [hstatus])]
    rfl
  have hon : read.on utf8 maxBytes (.data chunk) =
      { read with received := read.received + chunk.length, chunks := read.chunks ++ [chunk] } := by
    rw [List.length_append, ← h.received] at hwithin
    simp [BodyRead.on, h.statusCode, hstatus, h.overflowed, hwithin]
  rw [hon]
  refine ⟨?_, ?_, ?_, h.overflowed, h.settled⟩
  · rw [statusOf_append, hstatus]
    exact h.statusCode.trans hstatus
  · rw [hbody, ← h.chunks, List.flatten_append, List.flatten_singleton]
  · rw [hbody, List.length_append, ← h.received]

/-- An event settles an open promise as its history says, or the reading goes on. -/
lemma Reading.step (h : Reading events read) (event : BodyEvent) :
    (read.on utf8 maxBytes event).settled = decision utf8 maxBytes events event ∧
      (decision utf8 maxBytes events event = none →
        Reading (events ++ [event]) (read.on utf8 maxBytes event)) := by
  cases event with
  | abort => exact ⟨settled_settle h.settled _, fun hdecision => by cases hdecision⟩
  | requestError error => exact ⟨settled_settle h.settled _, fun hdecision => by cases hdecision⟩
  | response statusCode => exact ⟨h.settled, fun _ => h.on_response statusCode⟩
  | data chunk =>
    cases hstatus : statusOf events with
    | none =>
      have hon : read.on utf8 maxBytes (.data chunk) = read := by
        simp [BodyRead.on, h.statusCode, hstatus]
      rw [hon]
      exact ⟨by simp [decision, hstatus, h.settled], fun _ => h.unheard hstatus rfl⟩
    | some statusCode =>
      rcases Nat.lt_or_ge maxBytes (bodyOf events ++ chunk).length with hover | hwithin
      · have hdecision : decision utf8 maxBytes events (.data chunk) =
            some (.threw pacTooLarge) := if_pos ⟨by simp [hstatus], hover⟩
        rw [hdecision]
        rw [List.length_append, ← h.received] at hover
        refine ⟨?_, fun hnone => by cases hnone⟩
        simp [BodyRead.on, h.statusCode, hstatus, h.overflowed, hover, BodyRead.settle, h.settled]
      · have hread := @Reading.on_data utf8 _ _ _ h _ hstatus _ hwithin
        rw [hread.settled]
        exact ⟨(if_neg fun hover => Nat.not_lt.mpr hwithin hover.2).symm, fun _ => hread⟩
  | finish =>
    cases hstatus : statusOf events with
    | none =>
      have hon : read.on utf8 maxBytes .finish = read := by
        simp [BodyRead.on, h.statusCode, hstatus]
      rw [hon]
      exact ⟨by simp [decision, hstatus, h.settled], fun _ => h.unheard hstatus rfl⟩
    | some statusCode =>
      have hon : read.on utf8 maxBytes .finish =
          read.settle (.done ⟨plausibleStatus statusCode, utf8 (bodyOf events)⟩) := by
        simp [BodyRead.on, h.statusCode, hstatus, h.overflowed, h.chunks]
      rw [hon, settled_settle h.settled, decision, hstatus]
      exact ⟨rfl, fun hnone => by cases hnone⟩
  | responseError error =>
    cases hstatus : statusOf events with
    | none =>
      have hon : read.on utf8 maxBytes (.responseError error) = read := by
        simp [BodyRead.on, h.statusCode, hstatus]
      rw [hon]
      exact ⟨by simp [decision, hstatus, h.settled], fun _ => h.unheard hstatus rfl⟩
    | some statusCode =>
      have hon : read.on utf8 maxBytes (.responseError error) = read.settle (.threw error) := by
        simp [BodyRead.on, h.statusCode, hstatus, h.overflowed]
      rw [hon, settled_settle h.settled, decision, hstatus]
      exact ⟨rfl, fun hnone => by cases hnone⟩

/-- Nothing changes how a promise ended. -/
lemma settled_foldl_of_some (h : read.settled = some result) (events : List BodyEvent) :
    (events.foldl (BodyRead.on utf8 maxBytes) read).settled = some result := by
  induction events generalizing read with
  | nil => exact h
  | cons event events ih =>
    refine ih ?_
    have hsettle : ∀ other, (read.settle other).settled = some result := fun other => by
      rw [BodyRead.settle, h, Option.some_or]
    cases event with
    | abort => exact hsettle _
    | requestError error => exact hsettle _
    | response statusCode => exact h
    | data chunk =>
      rw [BodyRead.on]
      split_ifs
      · exact h
      · simp only
        split_ifs
        · exact hsettle _
        · exact h
    | finish =>
      rw [BodyRead.on]
      split
      · exact h
      · split_ifs
        · exact h
        · exact hsettle _
    | responseError error =>
      rw [BodyRead.on]
      split_ifs
      · exact h
      · exact hsettle _

lemma decision_eq_none_iff : decision utf8 maxBytes events event = none ↔
    event ≠ .abort ∧ (∀ error, event ≠ .requestError error) ∧
      (event = .finish → statusOf events = none) ∧
      (∀ error, event = .responseError error → statusOf events = none) ∧
      (statusOf events ≠ none → ∀ chunk, event = .data chunk →
        (bodyOf events ++ chunk).length ≤ maxBytes) := by
  cases event <;> simp [decision]

lemma Undecided.append_singleton (h : Undecided maxBytes events)
    (hdecision : decision utf8 maxBytes events event = none) :
    Undecided maxBytes (events ++ [event]) := by
  obtain ⟨habort, hrequest, hfinish, hresponse, hwithin⟩ := decision_eq_none_iff.mp hdecision
  refine undecided_append_singleton_iff.mpr
    ⟨h, habort, hrequest, hfinish, hresponse, fun hstatus => ?_⟩
  cases event with
  | data chunk => exact hwithin hstatus chunk rfl
  | _ => simpa [BodyEvent.bytes] using h.within

lemma Undecided.decision_eq_none (h : Undecided maxBytes (events ++ [event])) :
    decision utf8 maxBytes events event = none := by
  obtain ⟨-, habort, hrequest, hfinish, hresponse, hwithin⟩ := undecided_append_singleton_iff.mp h
  refine decision_eq_none_iff.mpr ⟨habort, hrequest, hfinish, hresponse, ?_⟩
  rintro hstatus chunk rfl
  exact hwithin hstatus

/-- While nothing decides, the handlers read on. -/
lemma reading_of_undecided (h : Undecided maxBytes events) :
    Reading events (events.foldl (BodyRead.on utf8 maxBytes) {}) := by
  induction events using List.reverseRecOn with
  | nil => exact ⟨rfl, rfl, rfl, rfl, rfl⟩
  | append_singleton events event ih =>
    rw [List.foldl_append, List.foldl_cons, List.foldl_nil]
    exact ((ih h.of_append_singleton).step event).2 h.decision_eq_none

/-- Either nothing has decided yet, or the first event that did settled the promise. -/
lemma undecided_or_decided (utf8 : List UInt8 → String) (maxBytes : ℕ) (events : List BodyEvent) :
    Undecided maxBytes events ∨ ∃ result before event after, events = before ++ event :: after ∧
      Undecided maxBytes before ∧ decision utf8 maxBytes before event = some result := by
  induction events using List.reverseRecOn with
  | nil => exact Or.inl undecided_nil
  | append_singleton events event ih =>
    rcases ih with h | ⟨result, before, first, after, rfl, hbefore, hdecision⟩
    · cases hdecision : decision utf8 maxBytes events event with
      | none => exact Or.inl (h.append_singleton hdecision)
      | some result => exact Or.inr ⟨result, events, event, [], rfl, h, hdecision⟩
    · exact Or.inr ⟨result, before, first, after ++ [event], by simp, hbefore, hdecision⟩

lemma fetchBody_of_decided {before after : List BodyEvent} (h : Undecided maxBytes before)
    (hdecision : decision utf8 maxBytes before event = some result) :
    fetchBody utf8 maxBytes false (before ++ event :: after) = some result := by
  rw [fetchBody, List.foldl_append, List.foldl_cons]
  refine settled_foldl_of_some ?_ after
  rw [← hdecision]
  exact ((reading_of_undecided h).step event).1

/-- The promise ends as the first event that decides says. -/
theorem fetchBody_eq_some_iff : fetchBody utf8 maxBytes false events = some result ↔
    ∃ before event after, events = before ++ event :: after ∧ Undecided maxBytes before ∧
      decision utf8 maxBytes before event = some result := by
  constructor
  · intro h
    rcases undecided_or_decided utf8 maxBytes events with hopen | hdecided
    · have hsettled := (@reading_of_undecided utf8 _ _ hopen).settled
      exact absurd (h.symm.trans hsettled) (Option.some_ne_none _)
    · obtain ⟨found, before, event, after, rfl, hbefore, hdecision⟩ := hdecided
      rw [fetchBody_of_decided hbefore hdecision] at h
      cases h
      exact ⟨before, event, after, rfl, hbefore, hdecision⟩
  · rintro ⟨before, event, after, rfl, hbefore, hdecision⟩
    exact fetchBody_of_decided hbefore hdecision

lemma fetchBody_of_aborted :
    fetchBody utf8 maxBytes true events = some (.threw phaseAborted) :=
  settled_foldl_of_some rfl events

lemma decision_done_iff {before : List BodyEvent} {fetched : Fetched} :
    decision utf8 maxBytes before event = some (.done fetched) ↔ event = .finish ∧
      ∃ statusCode, statusOf before = some statusCode ∧
        fetched = ⟨plausibleStatus statusCode, utf8 (bodyOf before)⟩ := by
  cases event with
  | finish => simp [decision, eq_comm]
  | data chunk =>
    rw [decision]
    split_ifs <;> simp
  | abort | requestError error | response statusCode => simp [decision]
  | responseError error => simp [decision]

/-- A script is handed over exactly when the response ended first: before any error, any abort and
any byte over the cap, and then with every byte it brought. -/
theorem fetchBody_done_iff {aborted : Bool} {fetched : Fetched} :
    fetchBody utf8 maxBytes aborted events = some (.done fetched) ↔ aborted = false ∧
      ∃ before after statusCode, events = before ++ .finish :: after ∧
        Undecided maxBytes before ∧ statusOf before = some statusCode ∧
        fetched = ⟨plausibleStatus statusCode, utf8 (bodyOf before)⟩ := by
  cases aborted with
  | true =>
    rw [fetchBody_of_aborted]
    simp
  | false =>
    rw [fetchBody_eq_some_iff, and_iff_right rfl]
    constructor
    · rintro ⟨before, event, after, rfl, hbefore, hdecision⟩
      obtain ⟨rfl, statusCode, hstatus, hfetched⟩ := decision_done_iff.mp hdecision
      exact ⟨before, after, statusCode, rfl, hbefore, hstatus, hfetched⟩
    · rintro ⟨before, after, statusCode, rfl, hbefore, hstatus, hfetched⟩
      exact ⟨before, .finish, after, rfl, hbefore,
        decision_done_iff.mpr ⟨rfl, statusCode, hstatus, hfetched⟩⟩

/-- A script over the cap is cut off by the first byte too many, whatever the peer announced and
whatever comes later; its bytes are never handed over. -/
theorem fetchBody_tooLarge {before after : List BodyEvent} {chunk : List UInt8}
    (h : Undecided maxBytes before) (hresponse : statusOf before ≠ none)
    (hover : maxBytes < (bodyOf before ++ chunk).length) :
    fetchBody utf8 maxBytes false (before ++ .data chunk :: after) = some (.threw pacTooLarge) :=
  fetchBody_of_decided h (if_pos ⟨hresponse, hover⟩)

/-- In whatever order the events fire, the promise is open as long as none of them decides, and then
ends as the first that does says: with the whole body when the response ends, with an error on an
abort, on either error and on the first byte over the cap. -/
theorem fetchBody_first (utf8 : List UInt8 → String) (maxBytes : ℕ) (events : List BodyEvent) :
    (fetchBody utf8 maxBytes false events = none ↔ Undecided maxBytes events) ∧
      ∀ result, fetchBody utf8 maxBytes false events = some result ↔
        ∃ before event after, events = before ++ event :: after ∧ Undecided maxBytes before ∧
          decision utf8 maxBytes before event = some result := by
  refine ⟨⟨fun hnone => ?_, fun hopen => (reading_of_undecided hopen).settled⟩,
    fun result => fetchBody_eq_some_iff⟩
  rcases undecided_or_decided utf8 maxBytes events with hopen | hdecided
  · exact hopen
  · obtain ⟨found, before, event, after, rfl, hbefore, hdecision⟩ := hdecided
    rw [fetchBody_of_decided hbefore hdecision] at hnone
    cases hnone

end Run
end Portcall.Net
