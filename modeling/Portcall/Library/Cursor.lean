import Mathlib.Algebra.Ring.Nat
import Mathlib.Data.List.Basic

/-! Walks over a stream of records: what can be read from a position, and a walk that ends with the
stream or as soon as it has collected enough. A step yields nothing at the end of the stream, and
an error where the stream does not decode. -/
namespace Portcall.Cursor
variable {σ α ε : Type*}

/-- Records read one after another, from one position to a later one. -/
inductive Reads (step : σ → Option (Except ε (α × σ))) : σ → List α → σ → Prop where
  | nil (s : σ) : Reads step s [] s
  | cons {s s' last : σ} {a : α} {items : List α} (head : step s = some (.ok (a, s')))
      (tail : Reads step s' items last) : Reads step s (a :: items) last

/-- A walk with `n` collected so far: it reads on while there is something to read and it has
collected less than the cap. -/
inductive Walk (step : σ → Option (Except ε (α × σ))) (weight : α → ℕ) (cap : ℕ) :
    ℕ → σ → List α → σ → Prop where
  | stop {n : ℕ} {s : σ} (h : step s = none ∨ cap ≤ n) : Walk step weight cap n s [] s
  | next {n : ℕ} {s s' last : σ} {a : α} {items : List α} (below : n < cap)
      (head : step s = some (.ok (a, s')))
      (tail : Walk step weight cap (n + weight a) s' items last) :
      Walk step weight cap n s (a :: items) last

variable {step : σ → Option (Except ε (α × σ))} {weight : α → ℕ} {cap n : ℕ} {s s' last last' : σ}
  {a : α} {items items' : List α}

/-- What the records of a walk weigh together. -/
def total (weight : α → ℕ) (items : List α) : ℕ := (items.map weight).sum

@[simp] lemma total_nil : total weight [] = 0 := rfl

@[simp] lemma total_cons : total weight (a :: items) = weight a + total weight items := rfl

section Steps

lemma walk_stop_iff (h : step s = none ∨ cap ≤ n) :
    Walk step weight cap n s items last ↔ items = [] ∧ last = s := by
  constructor
  · intro hwalk
    cases hwalk with
    | stop _ => exact ⟨rfl, rfl⟩
    | next below head _ =>
      rcases h with h | h
      · rw [h] at head
        cases head
      · omega
  · rintro ⟨rfl, rfl⟩
    exact .stop h

lemma walk_next_iff (below : n < cap) (head : step s = some (.ok (a, s'))) :
    Walk step weight cap n s items last ↔
      ∃ rest, items = a :: rest ∧ Walk step weight cap (n + weight a) s' rest last := by
  constructor
  · intro hwalk
    cases hwalk with
    | stop h =>
      rcases h with h | h
      · rw [h] at head
        cases head
      · omega
    | next _ head' tail =>
      rw [head] at head'
      cases head'
      exact ⟨_, rfl, tail⟩
  · rintro ⟨rest, rfl, tail⟩
    exact .next below head tail

/-- No walk gets past a record that does not decode. -/
lemma not_walk_of_error {e : ε} (below : n < cap) (head : step s = some (.error e)) :
    ¬Walk step weight cap n s items last := by
  intro hwalk
  cases hwalk with
  | stop h =>
    rcases h with h | h
    · rw [h] at head
      cases head
    · omega
  | next _ head' _ =>
    rw [head] at head'
    cases head'

/-- Nor past one after which there is no walk. -/
lemma not_walk_of_next (below : n < cap) (head : step s = some (.ok (a, s')))
    (hrest : ∀ items last, ¬Walk step weight cap (n + weight a) s' items last) :
    ¬Walk step weight cap n s items last := by
  intro hwalk
  obtain ⟨rest, -, tail⟩ := (walk_next_iff below head).mp hwalk
  exact hrest rest last tail

end Steps

section Runs

/-- One record more. -/
lemma Reads.concat (h : Reads step s items last) (head : step last = some (.ok (a, last'))) :
    Reads step s (items ++ [a]) last' := by
  induction h with
  | nil s => exact .cons head (.nil _)
  | cons first _ ih => exact .cons first (ih head)

/-- Of two stretches read from one position, one is the start of the other. -/
lemma Reads.prefix_or_prefix (h : Reads step s items last) (h' : Reads step s items' last') :
    items <+: items' ∨ items' <+: items := by
  induction h generalizing items' with
  | nil s => exact Or.inl List.nil_prefix
  | cons head _ ih =>
    cases h' with
    | nil => exact Or.inr List.nil_prefix
    | cons head' tail' =>
      rw [head] at head'
      cases head'
      exact (ih tail').imp (List.prefix_cons_inj _).mpr (List.prefix_cons_inj _).mpr

lemma Walk.reads (h : Walk step weight cap n s items last) : Reads step s items last := by
  induction h with
  | stop _ => exact .nil _
  | next _ head _ ih => exact .cons head ih

/-- A walk ends with the stream, or with enough. -/
lemma Walk.stopped (h : Walk step weight cap n s items last) :
    step last = none ∨ cap ≤ n + total weight items := by
  induction h with
  | stop h => exact h
  | next _ _ _ ih =>
    rw [total_cons]
    exact ih.imp id fun h => by omega

/-- There is at most one walk from a position. -/
theorem Walk.unique (h : Walk step weight cap n s items last)
    (h' : Walk step weight cap n s items' last') : items = items' := by
  induction h generalizing items' with
  | stop hstop => exact ((walk_stop_iff hstop).mp h').1.symm
  | next below head _ ih =>
    obtain ⟨rest, rfl, hrest⟩ := (walk_next_iff below head).mp h'
    rw [ih hrest]

/-- A walk that met the end of the stream read all that can be read. -/
theorem Walk.prefix_of_end (h : Walk step weight cap n s items last) (hend : step last = none)
    (hreads : Reads step s items' last') : items' <+: items := by
  induction h generalizing items' with
  | stop _ =>
    cases hreads with
    | nil => exact List.prefix_refl _
    | cons head _ =>
      rw [hend] at head
      cases head
  | next _ head _ ih =>
    cases hreads with
    | nil => exact List.nil_prefix
    | cons head' tail' =>
      rw [head] at head'
      cases head'
      exact (List.prefix_cons_inj _).mpr (ih hend tail')

/-- Whatever weighs enough has the whole walk before it. -/
theorem Walk.prefix_of_cap (h : Walk step weight cap n s items last)
    (hreads : Reads step s items' last') (hcap : cap ≤ n + total weight items') :
    items <+: items' := by
  induction h generalizing items' with
  | stop _ => exact List.nil_prefix
  | next below head _ ih =>
    cases hreads with
    | nil =>
      rw [total_nil] at hcap
      omega
    | cons head' tail' =>
      rw [head] at head'
      cases head'
      rw [total_cons] at hcap
      exact (List.prefix_cons_inj _).mpr (ih tail' (by omega))

/-- Where enough can be read, a walk comes to its end. -/
theorem Reads.exists_walk (h : Reads step s items' last') (hcap : cap ≤ n + total weight items') :
    ∃ items last, Walk step weight cap n s items last := by
  induction h generalizing n with
  | nil s => exact ⟨[], s, .stop (Or.inr hcap)⟩
  | cons head _ ih =>
    rename_i a _ _
    by_cases hn : cap ≤ n
    · exact ⟨[], _, .stop (Or.inr hn)⟩
    · rw [total_cons] at hcap
      obtain ⟨items, last, hwalk⟩ := @ih (n + weight a) (by omega)
      exact ⟨_, last, .next (by omega) head hwalk⟩

/-- Records that bring the position strictly down some rank are no more than the rank. -/
theorem Reads.length_add_le (Inv : σ → Prop) (rank : σ → ℕ)
    (hstep : ∀ s a s', Inv s → step s = some (.ok (a, s')) → Inv s' ∧ rank s' < rank s)
    (h : Reads step s items last) (hinv : Inv s) : items.length + rank last ≤ rank s := by
  induction h with
  | nil s => rw [List.length_nil, Nat.zero_add]
  | cons head _ ih =>
    obtain ⟨hinv', hlt⟩ := hstep _ _ _ hinv head
    have hrest := ih hinv'
    rw [List.length_cons]
    omega

/-- A walk over records of weight one at the most collects no more than the cap. -/
lemma Walk.total_le (hweight : ∀ a, weight a ≤ 1) (h : Walk step weight cap n s items last)
    (hn : n ≤ cap) : n + total weight items ≤ cap := by
  induction h with
  | stop _ => exact hn
  | next below _ _ ih =>
    rename_i a _ _ _
    have hone := hweight a
    have hrest := ih (by omega)
    rw [total_cons]
    omega

end Runs

section Restriction
variable {step' : σ → Option (Except ε (α × σ))} {Good : σ → Prop}

/-- A step that does what another does from good positions, and reads nothing from the others. -/
structure Restricts (step' step : σ → Option (Except ε (α × σ))) (Good : σ → Prop) : Prop where
  ok : ∀ s next, step' s = some (.ok next) ↔ step s = some (.ok next) ∧ Good s
  none : ∀ s, step' s = none ↔ step s = none

/-- Every position that is read from below the cap is good. -/
def Visits (step : σ → Option (Except ε (α × σ))) (weight : α → ℕ) (cap n : ℕ) (s : σ)
    (Good : σ → Prop) : Prop :=
  ∀ items s', Reads step s items s' → n + total weight items < cap → step s' ≠ none → Good s'

lemma visits_of_stop (h : step s = none ∨ cap ≤ n) : Visits step weight cap n s Good := by
  intro items s' hreads hcap hnext
  rcases h with h | h
  · cases hreads with
    | nil => exact absurd h hnext
    | cons head _ =>
      rw [h] at head
      cases head
  · omega

lemma visits_next_iff (below : n < cap) (head : step s = some (.ok (a, s'))) :
    Visits step weight cap n s Good ↔
      Good s ∧ Visits step weight cap (n + weight a) s' Good := by
  constructor
  · intro h
    refine ⟨h [] s (.nil s) below (by rw [head]; nofun), fun items s'' hreads hcap => ?_⟩
    exact h (a :: items) s'' (.cons head hreads) (by rw [total_cons]; omega)
  · rintro ⟨hgood, h⟩ items s'' hreads hcap hnext
    cases hreads with
    | nil => exact hgood
    | cons head' tail' =>
      rw [head] at head'
      cases head'
      rw [total_cons] at hcap
      exact h _ s'' tail' (by omega) hnext

/-- The walks of a restricted step are those that visit only good positions. -/
theorem Restricts.walk_iff (h : Restricts step' step Good) :
    Walk step' weight cap n s items last ↔
      Walk step weight cap n s items last ∧ Visits step weight cap n s Good := by
  constructor
  · intro hwalk
    induction hwalk with
    | stop hstop =>
      rw [h.none] at hstop
      exact ⟨.stop hstop, visits_of_stop hstop⟩
    | next below head _ ih =>
      obtain ⟨head, hgood⟩ := (h.ok _ _).mp head
      exact ⟨.next below head ih.1, (visits_next_iff below head).mpr ⟨hgood, ih.2⟩⟩
  · rintro ⟨hwalk, hvisits⟩
    induction hwalk with
    | stop hstop =>
      rw [← h.none] at hstop
      exact .stop hstop
    | next below head _ ih =>
      obtain ⟨hgood, hvisits⟩ := (visits_next_iff below head).mp hvisits
      exact .next below ((h.ok _ _).mpr ⟨head, hgood⟩) (ih hvisits)

/-- What good positions keep is kept along a walk that visits no others, and each record has what it
is read with. -/
theorem Walk.forall_mem {Inv : σ → Prop} {Q : α → Prop}
    (hstep : ∀ s a s', Inv s → Good s → step s = some (.ok (a, s')) → Inv s' ∧ Q a)
    (hwalk : Walk step weight cap n s items last) (hvisits : Visits step weight cap n s Good)
    (hinv : Inv s) : ∀ a ∈ items, Q a := by
  induction hwalk with
  | stop _ => exact fun a hm => absurd hm List.not_mem_nil
  | next below head _ ih =>
    obtain ⟨hgood, hvisits⟩ := (visits_next_iff below head).mp hvisits
    obtain ⟨hinv, hq⟩ := hstep _ _ _ hinv hgood head
    intro a hm
    rcases List.mem_cons.mp hm with rfl | hm
    · exact hq
    · exact ih hvisits hinv a hm

end Restriction
end Portcall.Cursor
