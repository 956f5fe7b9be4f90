import Portcall.Externals

/-! What is relied on in lower-casing outside ASCII, where the engine's own tables decide: it goes
character by character, and a mark (a character of ASCII that is no letter) comes from itself
alone. -/
namespace Portcall

/-- A character of ASCII that no letter is the lower case of, and that is no letter. -/
def IsMark (c : Char) : Prop := c.toNat < 128 ∧ ¬('a' ≤ c ∧ c ≤ 'z') ∧ ¬('A' ≤ c ∧ c ≤ 'Z')

instance (c : Char) : Decidable (IsMark c) := inferInstanceAs (Decidable (_ ∧ _))

/-- What one character may become in lower case. -/
structure Lowered (c : Char) (piece : List Char) : Prop where
  ne_nil : piece ≠ []
  of_mark : ∀ d ∈ piece, IsMark d → d = c
  mark : IsMark c → piece = [c]

/-- A text and what its characters become, in order. -/
inductive LowersTo : List Char → List Char → Prop where
  | nil : LowersTo [] []
  | cons {c : Char} {piece text lower : List Char} (first : Lowered c piece)
      (rest : LowersTo text lower) : LowersTo (c :: text) (piece ++ lower)

/-- Lower-casing goes character by character. -/
structure LowersByCharacter (ext : Externals) : Prop where
  unicode : ∀ text : String, LowersTo text.toList (ext.unicodeLower text).toList

lemma lowered_toLower (c : Char) : Lowered c [c.toLower] where
  ne_nil := List.cons_ne_nil _ _
  of_mark d hd hmark := by
    rw [List.mem_singleton] at hd
    exact (Text.eq_of_toLower hmark.2.1 hd.symm).symm
  mark hmark := by
    rw [Text.toLower_of_not_upper hmark.2.2]

variable {ext : Externals}

/-- A text in lower case is what its characters become. -/
theorem LowersByCharacter.toLowerCase (h : LowersByCharacter ext) (text : String) :
    LowersTo text.toList (ext.toLowerCase text).toList := by
  unfold Externals.toLowerCase
  split_ifs
  · rw [String.toList_ofList]
    induction text.toList with
    | nil => exact .nil
    | cons c rest ih => exact .cons (lowered_toLower c) ih
  · exact h.unicode text

namespace LowersTo
variable {text lower : List Char} {d : Char}

/-- A mark in lower case was there before. -/
theorem mem_of_mark (h : LowersTo text lower) (hmark : IsMark d) (hd : d ∈ lower) : d ∈ text := by
  induction h with
  | nil => exact hd
  | cons hc _ ih =>
    rcases List.mem_append.mp hd with hd | hd
    · rw [hc.of_mark d hd hmark]
      exact List.mem_cons_self
    · exact List.mem_cons_of_mem _ (ih hd)

lemma eq_nil_iff (h : LowersTo text lower) : lower = [] ↔ text = [] := by
  cases h with
  | nil => exact Iff.rfl
  | cons hc _ => simp [hc.ne_nil]

/-- A text in lower case starts with a mark only where the text does. -/
lemma head?_of_mark (h : LowersTo text lower) (hmark : IsMark d) (hd : lower.head? = some d) :
    text.head? = some d := by
  cases h with
  | nil => exact hd
  | cons hc _ =>
    rw [List.head?_append_of_ne_nil _ hc.ne_nil] at hd
    rw [hc.of_mark d (List.mem_of_mem_head? hd) hmark]
    rfl

lemma append_left {front back : List Char} (h : LowersTo (front ++ back) lower) :
    ∃ before after, lower = before ++ after ∧ LowersTo front before ∧ LowersTo back after := by
  induction front generalizing lower with
  | nil => exact ⟨[], lower, rfl, .nil, h⟩
  | cons c front ih =>
    cases h with
    | cons hc hrest =>
      obtain ⟨before, after, rfl, hbefore, hafter⟩ := ih hrest
      exact ⟨_, after, (List.append_assoc _ _ _).symm, .cons hc hbefore, hafter⟩

/-- The last character of a text, and what it becomes. -/
lemma append_singleton {c : Char} (h : LowersTo (text ++ [c]) lower) :
    ∃ before piece, lower = before ++ piece ∧ LowersTo text before ∧ Lowered c piece := by
  obtain ⟨before, after, rfl, hbefore, hafter⟩ := h.append_left
  cases hafter with
  | @cons _ piece _ _ hc hnil =>
    cases hnil
    exact ⟨before, piece, by rw [List.append_nil], hbefore, hc⟩

end LowersTo

lemma lowersTo_self (text : List Char) : LowersTo text text := by
  induction text with
  | nil => exact .nil
  | cons c rest ih =>
    have hc : Lowered c [c] := {
      ne_nil := List.cons_ne_nil _ _
      of_mark := fun d hd _ => List.mem_singleton.mp hd
      mark := fun _ => rfl }
    exact .cons hc ih

/-- Tables that change nothing go by character as well. -/
lemma lowersByCharacter_of_id (h : ext.unicodeLower = id) : LowersByCharacter ext where
  unicode text := by
    rw [h]
    exact lowersTo_self _

end Portcall
