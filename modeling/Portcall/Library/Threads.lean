import Mathlib.Data.Fintype.Basic
import Mathlib.Data.List.Forall2
import Mathlib.Data.List.OfFn
import Mathlib.Order.Basic

/-! Programs that act on a state they share with others: a program acts and goes on with the reply,
or runs several programs side by side and goes on with all their values. What a program needs is
stated of every state the others may have grown the present one into, so that a proof about one
thread holds of it among any others, in every order of their steps. -/
namespace Portcall.Threads

/-- A program that ends in a value; an action of type `Op β` is answered by a `β`. -/
inductive Prog (Op : Type → Type) : Type → Type 1 where
  | done {α : Type} (value : α) : Prog Op α
  | act {α β : Type} (op : Op β) (next : β → Prog Op α) : Prog Op α
  | all {α : Type} {n : ℕ} {β : Fin n → Type} (threads : (i : Fin n) → Prog Op (β i))
      (next : ((i : Fin n) → β i) → Prog Op α) : Prog Op α

namespace Prog
variable {Op : Type → Type} {α β γ : Type}

def bind : {α β : Type} → Prog Op α → (α → Prog Op β) → Prog Op β
  | _, _, .done value, f => f value
  | _, _, .act op next, f => .act op fun reply => (next reply).bind f
  | _, _, .all threads next, f => .all threads fun values => (next values).bind f

instance : Monad (Prog Op) where
  pure := .done
  bind := .bind

@[simp] lemma pure_eq (value : α) : (pure value : Prog Op α) = .done value := rfl

@[simp] lemma done_bind (value : α) (f : α → Prog Op β) : (Prog.done value >>= f) = f value := rfl

@[simp] lemma act_bind (op : Op γ) (next : γ → Prog Op α) (f : α → Prog Op β) :
    (Prog.act op next >>= f) = .act op fun reply => next reply >>= f := rfl

/-- One action and its reply. -/
def call (op : Op β) : Prog Op β := .act op .done

@[simp] lemma call_bind (op : Op α) (f : α → Prog Op β) : (call op >>= f) = .act op f := rfl

/-- One program for each item, side by side. -/
def concurrently (f : γ → Prog Op β) (items : List γ) : Prog Op (List β) :=
  .all (fun i : Fin items.length => f items[i]) fun values => .done (List.ofFn values)

/-- The types of two values. -/
def Pair (α β : Type) : Fin 2 → Type
  | 0 => α
  | 1 => β

def pairOf (first : Prog Op α) (second : Prog Op β) : (i : Fin 2) → Prog Op (Pair α β i)
  | 0 => first
  | 1 => second

/-- Two programs side by side. -/
def both (first : Prog Op α) (second : Prog Op β) : Prog Op (α × β) :=
  .all (pairOf first second) fun values => .done (values 0, values 1)

end Prog

/-- How a state answers an action, and what it turns into by itself. -/
structure World (σ : Type) (Op : Type → Type) where
  step : {β : Type} → σ → Op β → β → σ → Prop
  drift : σ → σ → Prop

/-- A state only ever grows. -/
structure World.Grows {σ : Type} [Preorder σ] {Op : Type → Type} (world : World σ Op) : Prop where
  step : ∀ {β : Type} {s s' : σ} {op : Op β} {reply : β}, world.step s op reply s' → s ≤ s'
  drift : ∀ {s s' : σ}, world.drift s s' → s ≤ s'

section Steps
variable {σ : Type} {Op : Type → Type} (world : World σ Op)

inductive Step : {α : Type} → σ → Prog Op α → σ → Prog Op α → Prop
  | act {α β : Type} {s s' : σ} {op : Op β} {reply : β} {next : β → Prog Op α}
      (h : world.step s op reply s') : Step s (.act op next) s' (next reply)
  | thread {α : Type} {n : ℕ} {β : Fin n → Type} {s s' : σ} {threads : (i : Fin n) → Prog Op (β i)}
      {next : ((i : Fin n) → β i) → Prog Op α} (i : Fin n) {thread : Prog Op (β i)}
      (h : Step s (threads i) s' thread) :
      Step s (.all threads next) s' (.all (Function.update threads i thread) next)
  | join {α : Type} {n : ℕ} {β : Fin n → Type} {s : σ} {threads : (i : Fin n) → Prog Op (β i)}
      {values : (i : Fin n) → β i} {next : ((i : Fin n) → β i) → Prog Op α}
      (h : ∀ i, threads i = .done (values i)) :
      Step s (.all threads next) s (next values)
  | drift {α : Type} {s s' : σ} {program : Prog Op α} (h : world.drift s s') :
      Step s program s' program

/-- The state and what is left of the program, after any number of steps. -/
inductive Reaches {α : Type} (s : σ) (program : Prog Op α) : σ → Prog Op α → Prop
  | refl : Reaches s program s program
  | step {s' s'' : σ} {left last : Prog Op α} (run : Reaches s program s' left)
      (h : Step world s' left s'' last) : Reaches s program s'' last

/-- The action is the next one of some thread. -/
inductive Poised {β : Type} (op : Op β) : {α : Type} → Prog Op α → Prop
  | act {α : Type} {next : β → Prog Op α} : Poised op (.act op next)
  | thread {α : Type} {n : ℕ} {γ : Fin n → Type} {threads : (i : Fin n) → Prog Op (γ i)}
      {next : ((i : Fin n) → γ i) → Prog Op α} (i : Fin n) (h : Poised op (threads i)) :
      Poised op (.all threads next)

end Steps

/-- What may be done in which state. -/
abbrev Allowed (σ : Type) (Op : Type → Type) := (β : Type) → σ → Op β → Prop

section Safe
variable {σ : Type} [Preorder σ] {Op : Type → Type} (world : World σ Op) (ok : Allowed σ Op)

/-- However the state has grown when the program goes on, what it does is allowed, and it ends in a
value for which `post` holds from then on. -/
def Safe : {α : Type} → Prog Op α → (α → σ → Prop) → σ → Prop
  | _, .done value, post, s => ∀ s', s ≤ s' → post value s'
  | _, .act op next, post, s => ∀ s', s ≤ s' →
    ok _ s' op ∧ ∀ reply s'', world.step s' op reply s'' → Safe (next reply) post s''
  | _, @Prog.all _ _ n β threads next, post, s => ∃ mid : (i : Fin n) → β i → σ → Prop,
    (∀ i, Safe (threads i) (mid i) s) ∧ ∀ values s', s ≤ s' →
      (∀ i t, s' ≤ t → mid i (values i) t) → Safe (next values) post s'

variable {world ok} {α β γ : Type} {program : Prog Op α} {post : α → σ → Prop} {s s' : σ}

lemma Safe.mono (h : Safe world ok program post s) (hle : s ≤ s') :
    Safe world ok program post s' := by
  induction program with
  | done value => exact fun s'' hle' => h s'' (hle.trans hle')
  | act op next ih => exact fun s'' hle' => h s'' (hle.trans hle')
  | all threads next ih ihnext =>
    obtain ⟨mid, hthreads, hnext⟩ := h
    exact ⟨mid, fun i => ih i (hthreads i), fun values s'' hle' => hnext values s'' (hle.trans hle')⟩

lemma safe_done {value : α} (h : ∀ s', s ≤ s' → post value s') :
    Safe world ok (.done value) post s := h

/-- An action, and what follows it. -/
lemma safe_call_bind {op : Op β} {f : β → Prog Op α} (h : ∀ s', s ≤ s' → ok _ s' op ∧
    ∀ reply s'', world.step s' op reply s'' → Safe world ok (f reply) post s'') :
    Safe world ok (Prog.call op >>= f) post s := h

variable (hgrows : world.Grows)
include hgrows

lemma Step.le {left : Prog Op α} (h : Step world s program s' left) : s ≤ s' := by
  induction h with
  | act hreply => exact hgrows.step hreply
  | thread i _ ih => exact ih
  | join _ => exact le_rfl
  | drift hdrift => exact hgrows.drift hdrift

/-- What a program goes on with is started in a grown state. -/
lemma Safe.bind {f : α → Prog Op β} {mid : α → σ → Prop} {post : β → σ → Prop}
    (h : Safe world ok program mid s)
    (hf : ∀ value s', s ≤ s' → (∀ t, s' ≤ t → mid value t) → Safe world ok (f value) post s') :
    Safe world ok (program >>= f) post s := by
  induction program generalizing s with
  | done value => exact hf value s le_rfl h
  | act op next ih =>
    intro s' hle
    refine ⟨(h s' hle).1, fun reply s'' hstep => ?_⟩
    have hle' := hle.trans (hgrows.step hstep)
    exact ih reply ((h s' hle).2 reply s'' hstep) fun value t ht => hf value t (hle'.trans ht)
  | all threads next ih ihnext =>
    obtain ⟨mid', hthreads, hnext⟩ := h
    refine ⟨mid', hthreads, fun values s' hle hvalues => ?_⟩
    exact ihnext values (hnext values s' hle hvalues) fun value t ht => hf value t (hle.trans ht)

lemma Safe.weaken {mid : α → σ → Prop} (h : Safe world ok program mid s)
    (hpost : ∀ value s', s ≤ s' → mid value s' → post value s') :
    Safe world ok program post s := by
  induction program generalizing s with
  | done value => exact fun s' hle => hpost value s' hle (h s' hle)
  | act op next ih =>
    intro s' hle
    refine ⟨(h s' hle).1, fun reply s'' hstep => ?_⟩
    have hle' := hle.trans (hgrows.step hstep)
    exact ih reply ((h s' hle).2 reply s'' hstep) fun value t ht => hpost value t (hle'.trans ht)
  | all threads next ih ihnext =>
    obtain ⟨mid', hthreads, hnext⟩ := h
    refine ⟨mid', hthreads, fun values s' hle hvalues => ?_⟩
    exact ihnext values (hnext values s' hle hvalues) fun value t ht =>
      hpost value t (hle.trans ht)

omit hgrows in
/-- Programs side by side end in values that hold what each of them would alone. -/
lemma safe_concurrently {f : γ → Prog Op β} {items : List γ} {post : γ → β → σ → Prop}
    (h : ∀ item ∈ items, Safe world ok (f item) (post item) s) :
    Safe world ok (.concurrently f items)
      (fun values s' => List.Forall₂ (fun item value => post item value s') items values) s := by
  refine ⟨fun i => post items[i], fun i => h _ (List.getElem_mem _), fun values s' _ hvalues => ?_⟩
  refine safe_done fun t ht => List.forall₂_iff_get.mpr ⟨(List.length_ofFn).symm, ?_⟩
  intro i hi hi'
  rw [List.get_ofFn]
  exact hvalues ⟨i, hi⟩ t ht

omit hgrows in
lemma safe_both {first : Prog Op α} {second : Prog Op β} {post : α → σ → Prop}
    {post' : β → σ → Prop} (h : Safe world ok first post s) (h' : Safe world ok second post' s) :
    Safe world ok (.both first second) (fun values s' => post values.1 s' ∧ post' values.2 s') s := by
  let mid : (i : Fin 2) → Prog.Pair α β i → σ → Prop
    | 0 => post
    | 1 => post'
  refine ⟨mid, fun i => ?_, fun values s' _ hvalues => ?_⟩
  · match i with
    | 0 => exact h
    | 1 => exact h'
  · exact safe_done fun t ht => ⟨hvalues 0 t ht, hvalues 1 t ht⟩

/-- A step leaves what is left of a program safe. -/
theorem Safe.step {left : Prog Op α} (h : Safe world ok program post s)
    (hstep : Step world s program s' left) : Safe world ok left post s' := by
  induction hstep with
  | act hreply => exact (h _ le_rfl).2 _ _ hreply
  | thread i hstep ih =>
    obtain ⟨mid, hthreads, hnext⟩ := h
    have hle := hstep.le hgrows
    refine ⟨mid, fun j => ?_, fun values t ht => hnext values t (hle.trans ht)⟩
    by_cases hj : j = i
    · subst hj
      rw [Function.update_self]
      exact ih (hthreads j)
    · rw [Function.update_of_ne hj]
      exact (hthreads j).mono hle
  | join hdone =>
    obtain ⟨mid, hthreads, hnext⟩ := h
    refine hnext _ _ le_rfl fun i => ?_
    have hthread := hthreads i
    rw [hdone i] at hthread
    exact hthread
  | drift hdrift => exact h.mono (hgrows.drift hdrift)

omit hgrows in
/-- What is about to be done is allowed. -/
theorem Safe.poised {op : Op β} (h : Safe world ok program post s) (hop : Poised op program) :
    ok _ s op := by
  induction hop with
  | act => exact (h s le_rfl).1
  | thread i _ ih =>
    obtain ⟨mid, hthreads, -⟩ := h
    exact ih (hthreads i)

end Safe

section Runs
variable {σ : Type} [Preorder σ] {Op : Type → Type} {world : World σ Op} {ok : Allowed σ Op}
  {α β : Type} {program left : Prog Op α} {post : α → σ → Prop} {s s' : σ}

theorem Safe.run (hgrows : world.Grows) (h : Safe world ok program post s)
    (hrun : Reaches world s program s' left) : s ≤ s' ∧ Safe world ok left post s' := by
  induction hrun with
  | refl => exact ⟨le_rfl, h⟩
  | step _ hstep ih => exact ⟨ih.1.trans (hstep.le hgrows), ih.2.step hgrows hstep⟩

/-- In no order of the steps is anything done that is not allowed. -/
theorem Safe.allowed (hgrows : world.Grows) (h : Safe world ok program post s)
    (hrun : Reaches world s program s' left) {op : Op β} (hop : Poised op left) : ok _ s' op :=
  (h.run hgrows hrun).2.poised hop

theorem Safe.value {value : α} (hgrows : world.Grows) (h : Safe world ok program post s)
    (hrun : Reaches world s program s' (.done value)) : post value s' :=
  (h.run hgrows hrun).2 s' le_rfl

/-- A property of states that allowed actions keep. -/
structure Kept (world : World σ Op) (ok : Allowed σ Op) (inv : σ → Prop) : Prop where
  step : ∀ {β : Type} {s s' : σ} {op : Op β} {reply : β}, ok _ s op → inv s →
    world.step s op reply s' → inv s'
  drift : ∀ {s s' : σ}, inv s → world.drift s s' → inv s'

lemma Safe.kept_step {inv : σ → Prop} (hkept : Kept world ok inv)
    (h : Safe world ok program post s) (hinv : inv s) (hstep : Step world s program s' left) :
    inv s' := by
  induction hstep with
  | act hreply => exact hkept.step (h _ le_rfl).1 hinv hreply
  | thread i _ ih =>
    obtain ⟨mid, hthreads, -⟩ := h
    exact ih (hthreads i) hinv
  | join _ => exact hinv
  | drift hdrift => exact hkept.drift hinv hdrift

/-- What allowed actions keep holds in every state a safe program reaches. -/
theorem Safe.kept {inv : σ → Prop} (hgrows : world.Grows) (hkept : Kept world ok inv)
    (h : Safe world ok program post s) (hinv : inv s) (hrun : Reaches world s program s' left) :
    inv s' := by
  induction hrun with
  | refl => exact hinv
  | step hrun hstep ih => exact (h.run hgrows hrun).2.kept_step hkept ih hstep

end Runs

section Progress
variable {σ : Type} {Op : Type → Type} {world : World σ Op} {α β : Type} {s s' : σ}

lemma Reaches.trans {program left last : Prog Op α} {s'' : σ}
    (h : Reaches world s program s' left) (h' : Reaches world s' left s'' last) :
    Reaches world s program s'' last := by
  induction h' with
  | refl => exact h
  | step _ hstep ih => exact ih.step hstep

/-- The steps of one thread among others. -/
lemma Reaches.thread {n : ℕ} {β : Fin n → Type} {threads : (i : Fin n) → Prog Op (β i)}
    {next : ((i : Fin n) → β i) → Prog Op α} (i : Fin n) {thread : Prog Op (β i)}
    (h : Reaches world s (threads i) s' thread) :
    Reaches world s (.all threads next) s' (.all (Function.update threads i thread) next) := by
  induction h with
  | refl =>
    rw [Function.update_eq_self]
    exact .refl
  | @step s' s'' thread last _ hstep ih =>
    have hthread := @Step.thread _ _ world α n β s' s'' (Function.update threads i thread) next i
      last (by rwa [Function.update_self])
    rw [Function.update_idem] at hthread
    exact ih.step hthread

lemma poised_update {op : Op β} {n : ℕ} {γ : Fin n → Type} {threads : (i : Fin n) → Prog Op (γ i)}
    {next : ((i : Fin n) → γ i) → Prog Op α} {i : Fin n} {thread : Prog Op (γ i)}
    (h : Poised op thread) : Poised op (.all (Function.update threads i thread) next) :=
  .thread i (by rwa [Function.update_self])

/-- One step towards an action. -/
lemma exists_poised_act {γ : Type} {op : Op β} {last : Op γ} {next : β → Prog Op α} (reply : β)
    (h : world.step s op reply s')
    (hrun : ∃ s'' left, Reaches world s' (next reply) s'' left ∧ Poised last left) :
    ∃ s'' left, Reaches world s (.act op next) s'' left ∧ Poised last left := by
  obtain ⟨s'', left, hrun, hpoised⟩ := hrun
  exact ⟨s'', left, .trans (.step .refl (.act h)) hrun, hpoised⟩

/-- Threads that can each be run to its end can be, one after the other. -/
lemma exists_values {n : ℕ} {β : Fin n → Type} {threads : (i : Fin n) → Prog Op (β i)}
    (next : ((i : Fin n) → β i) → Prog Op α)
    (h : ∀ i s, ∃ value s', Reaches world s (threads i) s' (.done value)) (s : σ) :
    ∃ (values : (i : Fin n) → β i) (s' : σ),
      Reaches world s (.all threads next) s' (.all (fun i => .done (values i)) next) := by
  have hfirst : ∀ k ≤ n, ∃ values : (i : Fin n) → β i, ∃ s', Reaches world s (.all threads next) s'
      (.all (fun i => if (i : ℕ) < k then .done (values i) else threads i) next) := by
    intro k hk
    induction k with
    | zero =>
      choose values _ _ using fun i => h i s
      exact ⟨values, s, .refl⟩
    | succ k ih =>
      obtain ⟨values, s', hrun⟩ := ih (Nat.le_of_succ_le hk)
      obtain ⟨value, s'', hthread⟩ := h ⟨k, hk⟩ s'
      refine ⟨Function.update values ⟨k, hk⟩ value, s'', hrun.trans ?_⟩
      have hnext := @Reaches.thread _ _ world α s' s'' n β
        (fun i => if (i : ℕ) < k then .done (values i) else threads i) next ⟨k, hk⟩ (.done value)
        (by rwa [if_neg (Nat.lt_irrefl k)])
      convert hnext using 2
      funext i
      by_cases hi : i = ⟨k, hk⟩
      · subst hi
        simp
      · have hne : (i : ℕ) ≠ k := fun h => hi (Fin.ext h)
        simp only [Function.update_of_ne hi]
        exact if_congr (by omega) rfl rfl
  obtain ⟨values, s', hrun⟩ := hfirst n le_rfl
  refine ⟨values, s', ?_⟩
  simpa using hrun

/-- Where every action is answered, a program can be run to its end. -/
theorem exists_value (hanswers : ∀ (β : Type) (s : σ) (op : Op β), ∃ reply s',
    world.step s op reply s') (program : Prog Op α) (s : σ) :
    ∃ value s', Reaches world s program s' (.done value) := by
  induction program generalizing s with
  | done value => exact ⟨value, s, .refl⟩
  | act op next ih =>
    obtain ⟨reply, s', hstep⟩ := hanswers _ s op
    obtain ⟨value, s'', hrun⟩ := ih reply s'
    exact ⟨value, s'', .trans (.step .refl (.act hstep)) hrun⟩
  | all threads next ih ihnext =>
    obtain ⟨values, s', hrun⟩ := exists_values next ih s
    obtain ⟨value, s'', hnext⟩ := ihnext values s'
    exact ⟨value, s'', (hrun.step (.join fun _ => rfl)).trans hnext⟩

end Progress
end Portcall.Threads
