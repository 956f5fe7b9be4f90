import Mathlib.Logic.Function.Basic
import Mathlib.Data.List.Basic

/-! Codes whose words tell their letter apart whatever follows them: a text written in such a code
has one reading. -/
namespace PrefixCode
variable {α β : Type*} {code : α → List β}

/-- Two words with anything behind them agree only when they are words of one letter. -/
def Separated (code : α → List β) : Prop :=
  ∀ ⦃a b : α⦄ ⦃left right : List β⦄, code a ++ left = code b ++ right → a = b

/-- A reader that finds the letter in front of any text of words keeps the words apart. -/
lemma separated_of_read (read : List β → Option α)
    (h : ∀ a rest, read (code a ++ rest) = some a) : Separated code := by
  intro a b left right he
  have hread := congrArg read he
  rw [h, h] at hread
  exact Option.some.inj hread

/-- A text in a separated code without empty words has one reading. -/
theorem flatMap_injective (hsep : Separated code) (hne : ∀ a, code a ≠ []) :
    Function.Injective (List.flatMap code) := by
  intro left
  induction left with
  | nil =>
    intro right h
    cases right with
    | nil => rfl
    | cons b right =>
      rw [List.flatMap_nil, List.flatMap_cons, eq_comm, List.append_eq_nil_iff] at h
      exact absurd h.1 (hne b)
  | cons a left ih =>
    intro right h
    cases right with
    | nil =>
      rw [List.flatMap_nil, List.flatMap_cons, List.append_eq_nil_iff] at h
      exact absurd h.1 (hne a)
    | cons b right =>
      rw [List.flatMap_cons, List.flatMap_cons] at h
      obtain rfl := hsep h
      rw [ih (List.append_cancel_left h)]

end PrefixCode
