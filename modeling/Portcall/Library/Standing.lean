import Mathlib.Algebra.Order.Sub.Basic

/-! Spans of a sequence taken from left to right, each at the first place that no span taken before
covers. -/
namespace Portcall.Standing
variable {Spans : ℕ → ℕ → Prop} {start stop k : ℕ}

/-- What begins here is taken: it does not begin inside a span that is taken before. -/
def Stands (Spans : ℕ → ℕ → Prop) (start : ℕ) : Prop :=
  ∀ earlier stop, earlier < start → Spans earlier stop → start < stop → ¬Stands Spans earlier
termination_by start

lemma stands_zero : Stands Spans 0 := by
  rw [Stands]
  exact fun _ _ h => absurd h (Nat.not_lt_zero _)

/-- Nothing that begins inside the first span is taken. -/
lemma not_stands_of_first (h : Spans 0 stop) (hpos : 0 < start) (hlt : start < stop) :
    ¬Stands Spans start := by
  intro hstands
  rw [Stands] at hstands
  exact hstands 0 stop hpos h hlt stands_zero

/-- From a place that no taken span reaches across, the taking starts anew. -/
theorem stands_add_iff
    (hclear : ∀ earlier stop, earlier < k → Spans earlier stop → Stands Spans earlier → stop ≤ k) :
    Stands Spans (k + start) ↔ Stands (fun i j => Spans (k + i) (k + j)) start := by
  induction start using Nat.strong_induction_on with
  | h start ih =>
    rw [Stands, Stands]
    constructor
    · intro h earlier stop hlt hspan hinside
      rw [← ih earlier hlt]
      exact h (k + earlier) (k + stop) (by omega) hspan (by omega)
    · intro h earlier stop hlt hspan hinside hstands
      by_cases hbefore : earlier < k
      · have hstop := hclear earlier stop hbefore hspan hstands
        omega
      · obtain ⟨earlier, rfl⟩ := Nat.exists_eq_add_of_le (Nat.le_of_not_lt hbefore)
        obtain ⟨stop, rfl⟩ := Nat.exists_eq_add_of_le (by omega : k ≤ stop)
        have hlt' : earlier < start := by omega
        exact h earlier stop hlt' hspan (by omega) ((ih earlier hlt').mp hstands)

end Portcall.Standing
