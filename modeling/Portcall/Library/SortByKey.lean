import Mathlib.Data.List.Sort

/-! Insertion sort by a comparison that looks at a key first: whatever it does between equal keys,
the result is sorted by the key. Nothing is asked of the comparison there, neither totality nor
transitivity. -/
namespace Portcall.SortByKey
variable {α κ : Type*} [LinearOrder κ] {r : α → α → Prop} [DecidableRel r] {key : α → κ}
  {l : List α}

lemma pairwise_orderedInsert (hle : ∀ a b, r a b → key a ≤ key b)
    (hge : ∀ a b, ¬r a b → key b ≤ key a) (a : α) (h : l.Pairwise fun a b => key a ≤ key b) :
    (l.orderedInsert r a).Pairwise fun a b => key a ≤ key b := by
  induction l with
  | nil => exact List.pairwise_singleton _ a
  | cons b l ih =>
    obtain ⟨hb, hl⟩ := List.pairwise_cons.mp h
    rw [List.orderedInsert_cons]
    split_ifs with hab
    · refine List.pairwise_cons.mpr ⟨?_, h⟩
      intro c hc
      rcases List.mem_cons.mp hc with rfl | hc
      · exact hle a c hab
      · exact (hle a b hab).trans (hb c hc)
    · refine List.pairwise_cons.mpr ⟨?_, ih hl⟩
      intro c hc
      rcases (List.mem_orderedInsert r).mp hc with rfl | hc
      · exact hge c b hab
      · exact hb c hc

/-- The sorted list is sorted by the key. -/
theorem pairwise_insertionSort (hle : ∀ a b, r a b → key a ≤ key b)
    (hge : ∀ a b, ¬r a b → key b ≤ key a) :
    (l.insertionSort r).Pairwise fun a b => key a ≤ key b := by
  induction l with
  | nil => exact List.Pairwise.nil
  | cons a l ih =>
    rw [List.insertionSort_cons]
    exact pairwise_orderedInsert hle hge a ih

end Portcall.SortByKey
