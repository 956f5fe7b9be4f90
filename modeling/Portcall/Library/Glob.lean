import Mathlib.Data.List.Basic

/-! Shell globs over an alphabet, and the texts they match. -/
namespace Portcall.Glob
variable {α : Type*}

inductive Item (α : Type*) where
  | only (c : α)
  | anyOne
  | anyRun
  deriving DecidableEq, Repr

/-- The text is made of one piece for each item. -/
inductive Matches : List (Item α) → List α → Prop
  | nil : Matches [] []
  | only (c : α) {glob : List (Item α)} {text : List α} (h : Matches glob text) :
    Matches (.only c :: glob) (c :: text)
  | anyOne (c : α) {glob : List (Item α)} {text : List α} (h : Matches glob text) :
    Matches (.anyOne :: glob) (c :: text)
  | anyRun (run : List α) {glob : List (Item α)} {text : List α} (h : Matches glob text) :
    Matches (.anyRun :: glob) (run ++ text)

section Inversion
variable {glob : List (Item α)} {text : List α} {c : α}

@[simp] lemma matches_nil_iff : Matches [] text ↔ text = [] := by
  constructor
  · rintro ⟨⟩
    rfl
  · rintro rfl
    exact .nil

@[simp] lemma matches_only_iff :
    Matches (.only c :: glob) text ↔ ∃ rest, text = c :: rest ∧ Matches glob rest := by
  constructor
  · rintro ⟨⟩
    exact ⟨_, rfl, ‹_›⟩
  · rintro ⟨rest, rfl, h⟩
    exact .only c h

@[simp] lemma matches_anyOne_iff :
    Matches (.anyOne :: glob) text ↔ ∃ c rest, text = c :: rest ∧ Matches glob rest := by
  constructor
  · rintro ⟨⟩
    exact ⟨_, _, rfl, ‹_›⟩
  · rintro ⟨c, rest, rfl, h⟩
    exact .anyOne c h

/-- A run is empty, or takes one character and goes on. -/
lemma matches_anyRun_iff : Matches (.anyRun :: glob) text ↔
    Matches glob text ∨ ∃ c rest, text = c :: rest ∧ Matches (.anyRun :: glob) rest := by
  constructor
  · rintro (_ | _ | _ | @⟨run, _, rest, h⟩)
    cases run with
    | nil => exact Or.inl h
    | cons c run => exact Or.inr ⟨c, run ++ rest, rfl, .anyRun run h⟩
  · rintro (h | ⟨c, rest, rfl, h⟩)
    · exact .anyRun [] h
    · cases h with
      | anyRun run h => exact .anyRun (c :: run) h

end Inversion
end Portcall.Glob
