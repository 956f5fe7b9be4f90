import Portcall.Externals
import Portcall.Library.Glob
import Portcall.Library.RegExp

/-! `shExpMatch`, as the sandbox of a proxy script gives it: a shell pattern rewritten into a
regular expression. -/
namespace Portcall.Proxy
open RegExp

/-- What a script may hand over. -/
inductive ScriptValue where
  | text (units : List CodeUnit)
  | other
  deriving DecidableEq, Repr

/-- `/[.+^${}()|[\]\\]/` -/
def escapedCharacters : List CodeUnit :=
  ['.', '+', '^', '$', '{', '}', '(', ')', '|', '[', ']', '\\'].map unit

/-- `replace(/[.+^${}()|[\]\\]/g, '\\$&')` -/
def escapeCharacters (text : List CodeUnit) : List CodeUnit :=
  text.flatMap fun c => if c ∈ escapedCharacters then [unit '\\', c] else [c]

/-- `replace` of every occurrence of one code unit -/
def replaceUnit (found : CodeUnit) (replacement text : List CodeUnit) : List CodeUnit :=
  text.flatMap fun c => if c = found then replacement else [c]

/-- The source of the expression a pattern is rewritten into. -/
def shellSource (pattern : List CodeUnit) : List CodeUnit :=
  unit '^' :: replaceUnit (unit '?') [unit '.']
    (replaceUnit (unit '*') [unit '.', unit '*'] (escapeCharacters pattern)) ++ [unit '$']

def shExpMatch : ScriptValue → ScriptValue → Throwing Bool
  | .text candidate, .text pattern =>
    (compile (shellSource pattern)).map fun expression => test expression candidate
  | _, _ => some false

/-- A shell pattern: a star stands for any text, a question mark for any one unit, and all else
for itself. -/
def shellGlob (pattern : List CodeUnit) : List (Glob.Item CodeUnit) :=
  pattern.map fun c =>
    if c = unit '*' then .anyRun else if c = unit '?' then .anyOne else .only c

section Source

/-- What the three replacements make of one code unit. -/
def shellUnit (c : CodeUnit) : List CodeUnit :=
  if c = unit '*' then [unit '.', unit '*']
  else if c = unit '?' then [unit '.']
  else if c ∈ escapedCharacters then [unit '\\', c]
  else [c]

def shellTokens (c : CodeUnit) : List Token :=
  if c = unit '*' then [.dot, .star] else if c = unit '?' then [.dot] else [.only c]

def shellTerm (c : CodeUnit) : Term :=
  if c = unit '*' then .star .dot else if c = unit '?' then .atom .dot else .atom (.only c)

/-- No replacement touches what an earlier one put in. -/
lemma shellSource_eq (pattern : List CodeUnit) :
    shellSource pattern = unit '^' :: pattern.flatMap shellUnit ++ [unit '$'] := by
  rw [shellSource, replaceUnit, replaceUnit, escapeCharacters, List.flatMap_assoc,
    List.flatMap_assoc]
  congr 3
  funext c
  unfold shellUnit
  by_cases hstar : c = unit '*'
  · subst hstar
    decide
  by_cases hquestion : c = unit '?'
  · subst hquestion
    decide
  have hslash : unit '\\' ≠ unit '*' ∧ unit '\\' ≠ unit '?' := by decide
  by_cases hescaped : c ∈ escapedCharacters
  · simp [hstar, hquestion, hescaped, hslash]
  · simp [hstar, hquestion, hescaped]

lemma escaped_of_syntax {c : CodeUnit} (h : c ∈ syntaxCharacters) :
    c ∈ unit '*' :: unit '?' :: escapedCharacters := by
  have hall : syntaxCharacters.all
      (fun c => (unit '*' :: unit '?' :: escapedCharacters).contains c) = true := by decide
  exact List.contains_iff_mem.mp (List.all_eq_true.mp hall c h)

lemma syntax_of_escaped {c : CodeUnit} (h : c ∈ escapedCharacters) : c ∈ syntaxCharacters := by
  have hall : escapedCharacters.all (fun c => syntaxCharacters.contains c) = true := by decide
  exact List.contains_iff_mem.mp (List.all_eq_true.mp hall c h)

lemma tokens_shellUnit (c : CodeUnit) (rest : List CodeUnit) :
    tokens (shellUnit c ++ rest) = (tokens rest).map (shellTokens c ++ ·) := by
  unfold shellUnit shellTokens
  split_ifs with hstar hquestion hescaped
  · simp [Function.comp_def]
  · simp
  · simp [syntax_of_escaped hescaped]
  · have hspecial : c ∉ syntaxCharacters := fun hm => by
      simpa [hstar, hquestion, hescaped] using escaped_of_syntax hm
    simp [hspecial]

lemma tokens_shellSource (pattern : List CodeUnit) :
    tokens (shellSource pattern) =
      some (.start :: pattern.flatMap shellTokens ++ [.finish]) := by
  have hbody : tokens (pattern.flatMap shellUnit ++ [unit '$']) =
      some (pattern.flatMap shellTokens ++ [.finish]) := by
    induction pattern with
    | nil => decide
    | cons c pattern ih =>
      rw [List.flatMap_cons, List.append_assoc, tokens_shellUnit, ih, List.flatMap_cons,
        List.append_assoc]
      rfl
  rw [shellSource_eq, List.cons_append, tokens_start, hbody]
  rfl

/-- A star stands behind a dot only. -/
lemma ne_star (pattern : List CodeUnit) (rest : List Token) :
    pattern.flatMap shellTokens ++ [.finish] ≠ .star :: rest := by
  cases pattern with
  | nil => simp
  | cons c pattern =>
    rw [List.flatMap_cons, shellTokens]
    split_ifs <;> simp

/-- Every pattern becomes an expression, term by term. -/
lemma compile_shellSource (pattern : List CodeUnit) :
    compile (shellSource pattern) = some (.start :: pattern.map shellTerm ++ [.finish]) := by
  have hbody : terms (pattern.flatMap shellTokens ++ [.finish]) =
      some (pattern.map shellTerm ++ [.finish]) := by
    induction pattern with
    | nil => rfl
    | cons c pattern ih =>
      rw [List.flatMap_cons, List.map_cons, List.append_assoc, shellTokens, shellTerm]
      split_ifs with hstar hquestion
      · exact congrArg (Option.map _) ih
      · rw [List.singleton_append, terms, ih]
        · rfl
        · exact ne_star pattern
      · rw [List.singleton_append, terms, ih]
        · rfl
        · exact ne_star pattern
  rw [compile, tokens_shellSource]
  exact congrArg (Option.map _) hbody

end Source

section Match
variable {pattern candidate : List CodeUnit}

/-- A text the dot matches all of. -/
def OneLine (text : List CodeUnit) : Prop := ∀ c ∈ text, c ∉ lineTerminators

lemma accepts_dot {c : CodeUnit} (h : c ∉ lineTerminators) : Atom.dot.accepts c = true := by
  simpa [Atom.accepts] using h

lemma matchTerms_shellTerm (first : Bool) (h : OneLine candidate) :
    matchTerms (pattern.map shellTerm ++ [.finish]) first candidate = true ↔
      Glob.Matches (shellGlob pattern) candidate := by
  induction pattern generalizing first candidate with
  | nil => simp [matchTerms, Term.matcher, shellGlob]
  | cons c pattern ih =>
    rw [List.map_cons, List.cons_append, matchTerms, shellTerm, shellGlob, List.map_cons]
    split_ifs with hstar hquestion
    · change matchStar .dot _ first candidate = true ↔ _
      induction candidate generalizing first with
      | nil =>
        rw [matchStar, ih first h, Glob.matches_anyRun_iff]
        simp [shellGlob]
      | cons d rest ihrest =>
        obtain ⟨hd, hrest⟩ := List.forall_mem_cons.mp h
        rw [matchStar, accepts_dot hd, Bool.true_and, Bool.or_eq_true, ihrest _ hrest, ih first h,
          or_comm]
        refine Iff.trans ?_ Glob.matches_anyRun_iff.symm
        simp [shellGlob]
    · cases candidate with
      | nil => simp [Term.matcher]
      | cons d rest =>
        obtain ⟨hd, hrest⟩ := List.forall_mem_cons.mp h
        simp [Term.matcher, accepts_dot hd, ih _ hrest, shellGlob]
    · cases candidate with
      | nil => simp [Term.matcher]
      | cons d rest =>
        simp [Term.matcher, Atom.accepts, ih _ (List.forall_mem_cons.mp h).2, shellGlob]

/-- Every pattern makes an expression, and on a text without line breaks the expression accepts
what the pattern does. -/
theorem shExpMatch_iff (pattern : List CodeUnit) : (compile (shellSource pattern)).isSome ∧
    ∀ candidate, OneLine candidate →
      (shExpMatch (.text candidate) (.text pattern) = some true ↔
        Glob.Matches (shellGlob pattern) candidate) := by
  refine ⟨by rw [compile_shellSource]; rfl, fun candidate h => ?_⟩
  rw [shExpMatch, compile_shellSource, Option.map_some, Option.some.injEq, List.cons_append,
    test_start]
  exact matchTerms_shellTerm true h

theorem shExpMatch_domain :
    shExpMatch (.text (['w', '.', 'a'].map unit)) (.text (['*', '.', 'a'].map unit)) =
      some true := by
  have hline : OneLine (['w', '.', 'a'].map unit) := by
    have hall : (['w', '.', 'a'].map unit).all (fun c => !lineTerminators.contains c) = true := by
      decide
    intro c hm
    simpa using List.all_eq_true.mp hall c hm
  refine ((shExpMatch_iff (['*', '.', 'a'].map unit)).2 _ hline).mpr ?_
  exact .anyRun [unit 'w'] (.only _ (.only _ .nil))

end Match

end Portcall.Proxy
