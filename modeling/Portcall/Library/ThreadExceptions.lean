import Portcall.Library.Ownership

/-! Programs that may throw. The rules here are for those that do not: a proof that a program holds
is also one that none of its assertions fails. -/
namespace Portcall.Threads

/-- A program that ends in a value, or throws. -/
abbrev Throws (Op : Type → Type) (ε : Type) := ExceptT ε (Prog Op)

namespace Throws
variable {Op : Type → Type} {ε α β γ : Type}

/-- A program that does not throw. -/
def lift (program : Prog Op α) : Throws Op ε α := ExceptT.lift program

/-- One action and its reply. -/
def call (op : Op β) : Throws Op ε β := lift (.call op)

/-- One program for each item, side by side. All of them are waited for; the first that threw, by its
place, is the one that counts. A join that fails at the first throw differs from this only where some
program throws, and of those that hold none does. -/
def concurrently (f : γ → Throws Op ε β) (items : List γ) : Throws Op ε (List β) :=
  ExceptT.mk do
    let results ← Prog.concurrently (fun item => (f item).run) items
    return results.mapM id

/-- Two programs side by side. -/
def both (first : Throws Op ε α) (second : Throws Op ε β) : Throws Op ε (α × β) :=
  ExceptT.mk do
    let (left, right) ← Prog.both first.run second.run
    return left.bind fun left => right.map fun right => (left, right)

/-- One program for each item, one after the other. -/
def inOrder (f : γ → Throws Op ε β) : List γ → Throws Op ε (List β)
  | [] => pure []
  | item :: items => do
    let value ← f item
    let values ← inOrder f items
    return value :: values

end Throws

section Holds
variable {σ : Type} [Preorder σ] {Op : Type → Type} {ε : Type} (world : World σ Op)
  (ok : Allowed σ Op)

/-- The program does what it may, does not throw, and `post` holds of its value from then on. -/
def Holds {α : Type} (program : Throws Op ε α) (post : α → σ → Prop) (s : σ) : Prop :=
  Safe world ok program.run (fun result s' => ∃ value, result = .ok value ∧ post value s') s

variable {world ok} {α β γ : Type} {program : Throws Op ε α} {post : α → σ → Prop} {s s' : σ}

lemma Holds.mono (h : Holds world ok program post s) (hle : s ≤ s') :
    Holds world ok program post s' := Safe.mono h hle

lemma holds_pure {value : α} (h : ∀ s', s ≤ s' → post value s') :
    Holds world ok (pure value : Throws Op ε α) post s := fun s' hle => ⟨value, rfl, h s' hle⟩

/-- An action, and what follows it. -/
lemma holds_call_bind {op : Op β} {f : β → Throws Op ε α} (h : ∀ s', s ≤ s' → ok _ s' op ∧
    ∀ reply s'', world.step s' op reply s'' → Holds world ok (f reply) post s'') :
    Holds world ok (Throws.call op >>= f) post s := h

variable (hgrows : world.Grows)
include hgrows

lemma Holds.weaken {mid : α → σ → Prop} (h : Holds world ok program mid s)
    (hpost : ∀ value s', s ≤ s' → mid value s' → post value s') :
    Holds world ok program post s := by
  refine Safe.weaken hgrows h fun result s' hle hresult => ?_
  obtain ⟨value, rfl, hvalue⟩ := hresult
  exact ⟨value, rfl, hpost value s' hle hvalue⟩

lemma Holds.bind {f : α → Throws Op ε β} {mid : α → σ → Prop} {post : β → σ → Prop}
    (h : Holds world ok program mid s)
    (hf : ∀ value s', s ≤ s' → (∀ t, s' ≤ t → mid value t) → Holds world ok (f value) post s') :
    Holds world ok (program >>= f) post s := by
  refine Safe.bind hgrows h fun result s' hle hresult => ?_
  obtain ⟨value, rfl, -⟩ := hresult s' le_rfl
  refine hf value s' hle fun t ht => ?_
  obtain ⟨value', hvalue, hmid⟩ := hresult t ht
  cases hvalue
  exact hmid

lemma holds_lift {prog : Prog Op α} (h : Safe world ok prog post s) :
    Holds world ok (Throws.lift prog : Throws Op ε α) post s :=
  Safe.bind hgrows h fun value _ _ hvalue => safe_done fun t ht => ⟨value, rfl, hvalue t ht⟩

omit [Preorder σ] hgrows in
lemma forall₂_of_results {P : γ → β → Prop} {items : List γ} {results : List (Except ε β)}
    (h : List.Forall₂ (fun item result => ∃ value, result = .ok value ∧ P item value) items results) :
    ∃ values, results.mapM id = .ok values ∧ List.Forall₂ P items values := by
  induction h with
  | nil => exact ⟨[], rfl, .nil⟩
  | cons hhead _ ih =>
    obtain ⟨value, rfl, hvalue⟩ := hhead
    obtain ⟨values, hvalues, hall⟩ := ih
    exact ⟨value :: values, by rw [List.mapM_cons, hvalues]; rfl, .cons hvalue hall⟩

omit [Preorder σ] hgrows in
/-- Every value is that of some thread. -/
lemma exists_of_mem_values {P : γ → β → Prop} {items : List γ} {values : List β}
    (h : List.Forall₂ P items values) {value : β} (hm : value ∈ values) :
    ∃ item ∈ items, P item value := by
  induction h with
  | nil => exact absurd hm List.not_mem_nil
  | cons hhead _ ih =>
    rcases List.mem_cons.mp hm with rfl | hm
    · exact ⟨_, List.mem_cons_self, hhead⟩
    · obtain ⟨item, hitem, hvalue⟩ := ih hm
      exact ⟨item, List.mem_cons_of_mem _ hitem, hvalue⟩

omit [Preorder σ] hgrows in
/-- What threads with keys of their own came to, as a function of the key. -/
lemma exists_answers {κ δ : Type*} {key : γ → κ} {make : γ → δ → β} {P : κ → δ → Prop}
    {items : List γ} {values : List β}
    (h : List.Forall₂ (fun item value => ∃ answer, value = make item answer ∧ P (key item) answer)
      items values)
    (hnodup : (items.map key).Nodup) (hdefault : ∀ k, ∃ answer, P k answer) :
    ∃ answers : κ → δ, values = items.map (fun item => make item (answers (key item))) ∧
      ∀ k, P k (answers k) := by
  classical
  induction h with
  | nil =>
    choose answers hanswers using hdefault
    exact ⟨answers, rfl, hanswers⟩
  | @cons item _ items _ hhead _ ih =>
    obtain ⟨answer, rfl, hanswer⟩ := hhead
    rw [List.map_cons, List.nodup_cons] at hnodup
    obtain ⟨answers, rfl, hanswers⟩ := ih hnodup.2
    refine ⟨Function.update answers (key item) answer, ?_, fun k => ?_⟩
    · rw [List.map_cons, Function.update_self]
      refine congrArg _ (List.map_congr_left fun other hm => ?_)
      have hne : key other ≠ key item := fun he => hnodup.1 (he ▸ List.mem_map_of_mem hm)
      rw [Function.update_of_ne hne]
    · by_cases hk : k = key item
      · subst hk
        rwa [Function.update_self]
      · rw [Function.update_of_ne hk]
        exact hanswers k

lemma holds_concurrently {f : γ → Throws Op ε β} {items : List γ} {post : γ → β → σ → Prop}
    (h : ∀ item ∈ items, Holds world ok (f item) (post item) s) :
    Holds world ok (Throws.concurrently f items)
      (fun values s' => List.Forall₂ (fun item value => post item value s') items values) s := by
  refine Safe.bind hgrows (safe_concurrently h) fun results s' _ hresults => safe_done ?_
  exact fun t ht => forall₂_of_results (hresults t ht)

lemma holds_both {first : Throws Op ε α} {second : Throws Op ε β} {post' : β → σ → Prop}
    (h : Holds world ok first post s) (h' : Holds world ok second post' s) :
    Holds world ok (Throws.both first second)
      (fun values s' => post values.1 s' ∧ post' values.2 s') s := by
  refine Safe.bind hgrows (safe_both h h') fun results s' _ hresults => safe_done fun t ht => ?_
  obtain ⟨⟨left, hleft, hpost⟩, ⟨right, hright, hpost'⟩⟩ := hresults t ht
  refine ⟨(left, right), ?_, hpost, hpost'⟩
  rw [hleft, hright]
  rfl

/-- What holds of a program's value still holds when those after it have ended. -/
lemma holds_inOrder {f : γ → Throws Op ε β} {items : List γ} {post : γ → β → σ → Prop}
    (h : ∀ item ∈ items, ∀ s', s ≤ s' → Holds world ok (f item) (post item) s') :
    Holds world ok (Throws.inOrder f items)
      (fun values s' => List.Forall₂ (fun item value => post item value s') items values) s := by
  induction items generalizing s with
  | nil => exact holds_pure fun _ _ => .nil
  | cons item items ih =>
    rw [List.forall_mem_cons] at h
    refine (h.1 s le_rfl).bind hgrows fun value s' hle hvalue => ?_
    have hitems := ih fun item hm s'' hle' => h.2 item hm s'' (hle.trans hle')
    refine hitems.bind hgrows fun values t ht hvalues => ?_
    exact holds_pure fun u hu => .cons (hvalue u (ht.trans hu)) (hvalues u hu)

end Holds

section Owned
variable {Op : Type → Type} {R : Type} (ledger : Ledger Op R) {ε α β γ : Type}

/-- The program holds nothing at its end, whether it throws or not. -/
def Closes (program : Throws Op ε α) : Prop :=
  Owns ledger program.run ∅ fun _ left => left = ∅

variable {ledger} {program : Throws Op ε α}

lemma closes_pure (value : α) : Closes ledger (pure value : Throws Op ε α) := rfl

lemma closes_throw (error : ε) : Closes ledger (throw error : Throws Op ε α) := rfl

lemma Closes.bind {f : α → Throws Op ε β} (h : Closes ledger program)
    (hf : ∀ value, Closes ledger (f value)) : Closes ledger (program >>= f) := by
  refine Owns.bind h fun result left hleft => ?_
  subst hleft
  cases result with
  | error error => exact closes_throw error
  | ok value => exact hf value

lemma closes_lift {prog : Prog Op α} (h : Owns ledger prog ∅ fun _ left => left = ∅) :
    Closes ledger (Throws.lift prog : Throws Op ε α) :=
  Owns.bind h fun _ _ hleft => hleft

lemma closes_concurrently {f : γ → Throws Op ε β} {items : List γ}
    (h : ∀ item ∈ items, Closes ledger (f item)) : Closes ledger (Throws.concurrently f items) :=
  (owns_concurrently h).bind fun _ _ hleft => hleft

lemma closes_both {first : Throws Op ε α} {second : Throws Op ε β} (h : Closes ledger first)
    (h' : Closes ledger second) : Closes ledger (Throws.both first second) :=
  (owns_both h h').bind fun _ _ hleft => hleft

lemma closes_inOrder {f : γ → Throws Op ε β} {items : List γ}
    (h : ∀ item ∈ items, Closes ledger (f item)) : Closes ledger (Throws.inOrder f items) := by
  induction items with
  | nil => exact closes_pure []
  | cons item items ih =>
    rw [List.forall_mem_cons] at h
    exact h.1.bind fun value => (ih h.2).bind fun values => closes_pure _

end Owned
end Portcall.Threads
