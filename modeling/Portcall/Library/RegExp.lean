import Mathlib.Data.List.Basic

/-! A fragment of the regular expressions of ECMAScript, over code units and without flags:
assertions at the ends, escaped characters, the dot and the star. -/
namespace Portcall.RegExp

abbrev CodeUnit := UInt16

/-- The code unit of a character of the basic plane. -/
def unit (c : Char) : CodeUnit := UInt16.ofNat c.toNat

/-- `SyntaxCharacter` -/
def syntaxCharacters : List CodeUnit :=
  ['^', '$', '\\', '.', '*', '+', '?', '(', ')', '[', ']', '{', '}', '|'].map unit

def lineTerminators : List CodeUnit := [0x000a, 0x000d, 0x2028, 0x2029]

section Syntax

inductive Token where
  | start
  | finish
  | dot
  | star
  | only (c : CodeUnit)
  deriving DecidableEq, Repr

/-- A pattern cut into tokens; `none` for what is no pattern or not of the fragment. -/
def tokens : List CodeUnit → Option (List Token)
  | [] => some []
  | c :: rest =>
    if c = unit '\\' then
      match rest with
      | [] => none
      | d :: rest => if d ∈ syntaxCharacters then (tokens rest).map (.only d :: ·) else none
    else if c = unit '^' then (tokens rest).map (.start :: ·)
    else if c = unit '$' then (tokens rest).map (.finish :: ·)
    else if c = unit '.' then (tokens rest).map (.dot :: ·)
    else if c = unit '*' then (tokens rest).map (.star :: ·)
    else if c ∈ syntaxCharacters then none
    else (tokens rest).map (.only c :: ·)

section Tokens
variable {c : CodeUnit} (rest : List CodeUnit)

@[simp] lemma tokens_escaped (h : c ∈ syntaxCharacters) :
    tokens (unit '\\' :: c :: rest) = (tokens rest).map (.only c :: ·) := by
  rw [tokens, if_pos rfl, if_pos h]

/-- A character that is no syntax stands for itself. -/
@[simp] lemma tokens_only (h : c ∉ syntaxCharacters) :
    tokens (c :: rest) = (tokens rest).map (.only c :: ·) := by
  have hne : ∀ {d : CodeUnit}, d ∈ syntaxCharacters → c ≠ d := fun hd he => h (he ▸ hd)
  rw [tokens.eq_def]
  simp only [hne (show unit '\\' ∈ syntaxCharacters by decide),
    hne (show unit '^' ∈ syntaxCharacters by decide),
    hne (show unit '$' ∈ syntaxCharacters by decide),
    hne (show unit '.' ∈ syntaxCharacters by decide),
    hne (show unit '*' ∈ syntaxCharacters by decide), if_false, h]

@[simp] lemma tokens_start :
    tokens (unit '^' :: rest) = (tokens rest).map (.start :: ·) := by
  rw [tokens.eq_def]
  simp only [if_neg (show unit '^' ≠ unit '\\' by decide), if_true]

@[simp] lemma tokens_dot : tokens (unit '.' :: rest) = (tokens rest).map (.dot :: ·) := by
  rw [tokens.eq_def]
  simp only [if_neg (show unit '.' ≠ unit '\\' by decide),
    if_neg (show unit '.' ≠ unit '^' by decide), if_neg (show unit '.' ≠ unit '$' by decide),
    if_true]

@[simp] lemma tokens_star : tokens (unit '*' :: rest) = (tokens rest).map (.star :: ·) := by
  rw [tokens.eq_def]
  simp only [if_neg (show unit '*' ≠ unit '\\' by decide),
    if_neg (show unit '*' ≠ unit '^' by decide), if_neg (show unit '*' ≠ unit '$' by decide),
    if_neg (show unit '*' ≠ unit '.' by decide), if_true]

end Tokens

inductive Atom where
  | dot
  | only (c : CodeUnit)
  deriving DecidableEq, Repr

inductive Term where
  | start
  | finish
  | atom (atom : Atom)
  | star (atom : Atom)
  deriving DecidableEq, Repr

/-- A star belongs to the atom before it; anywhere else it is an error. -/
def terms : List Token → Option (List Term)
  | [] => some []
  | .start :: rest => (terms rest).map (.start :: ·)
  | .finish :: rest => (terms rest).map (.finish :: ·)
  | .star :: _ => none
  | .dot :: .star :: rest => (terms rest).map (.star .dot :: ·)
  | .dot :: rest => (terms rest).map (.atom .dot :: ·)
  | .only c :: .star :: rest => (terms rest).map (.star (.only c) :: ·)
  | .only c :: rest => (terms rest).map (.atom (.only c) :: ·)

/-- `new RegExp(pattern)` -/
def compile (pattern : List CodeUnit) : Option (List Term) := (tokens pattern).bind terms

end Syntax

section Matching

def Atom.accepts : Atom → CodeUnit → Bool
  | .dot, c => !lineTerminators.contains c
  | .only d, c => c = d

/-- What is still to be matched, from a position: whether it is the first one, and the text
from there. -/
abbrev Continuation := Bool → List CodeUnit → Bool

/-- As many as the atom accepts, and then fewer, until the continuation matches. -/
def matchStar (atom : Atom) (continuation : Continuation) : Continuation
  | first, [] => continuation first []
  | first, c :: rest =>
    (atom.accepts c && matchStar atom continuation false rest) || continuation first (c :: rest)

def Term.matcher (continuation : Continuation) : Term → Continuation
  | .start, first, text => first && continuation first text
  | .finish, first, text => text.isEmpty && continuation first text
  | .atom _, _, [] => false
  | .atom accepted, _, c :: rest => accepted.accepts c && continuation false rest
  | .star accepted, first, text => matchStar accepted continuation first text

/-- The terms match one after another, from this position. -/
def matchTerms : List Term → Continuation
  | [], _, _ => true
  | term :: terms, first, text => term.matcher (matchTerms terms) first text

/-- A match from this position or a later one. -/
def search (terms : List Term) : Continuation
  | first, [] => matchTerms terms first []
  | first, c :: rest => matchTerms terms first (c :: rest) || search terms false rest

/-- `regExp.test(text)` -/
def test (terms : List Term) (text : List CodeUnit) : Bool := search terms true text

end Matching

section Anchored

/-- Only the first position is a match for what begins with `^`. -/
lemma search_start_false (terms : List Term) (text : List CodeUnit) :
    search (.start :: terms) false text = false := by
  induction text with
  | nil => rfl
  | cons c rest ih => rw [search, ih]; rfl

lemma test_start (terms : List Term) (text : List CodeUnit) :
    test (.start :: terms) text = matchTerms terms true text := by
  cases text with
  | nil => rfl
  | cons c rest =>
    rw [test, search, search_start_false, Bool.or_false]
    rfl

end Anchored
end Portcall.RegExp
