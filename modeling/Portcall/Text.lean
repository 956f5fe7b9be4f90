import Mathlib.Data.List.Sort
import Mathlib.Data.List.TakeWhile
import Portcall.Finding
import Portcall.Library.PrefixCode

/-! The string operations the source uses, on the character list of a string. -/
namespace Portcall.Text

/-- The characters `String.prototype.trim` and the class `\s` accept. -/
def isWhitespace (c : Char) : Bool :=
  let n := c.toNat
  (9 ≤ n && n ≤ 13) || n = 32 || n = 0xa0 || n = 0x1680 || (0x2000 ≤ n && n ≤ 0x200a) ||
    n = 0x2028 || n = 0x2029 || n = 0x202f || n = 0x205f || n = 0x3000 || n = 0xfeff

def trimChars (s : List Char) : List Char :=
  ((s.dropWhile isWhitespace).reverse.dropWhile isWhitespace).reverse

/-- What trimming takes away is whitespace. -/
lemma exists_trimChars (text : List Char) : ∃ lead trail, text = lead ++ trimChars text ++ trail ∧
    (∀ c ∈ lead, isWhitespace c = true) ∧ ∀ c ∈ trail, isWhitespace c = true := by
  refine ⟨text.takeWhile isWhitespace,
    ((text.dropWhile isWhitespace).reverse.takeWhile isWhitespace).reverse, ?_, ?_, ?_⟩
  · rw [trimChars, List.append_assoc, ← List.reverse_append, List.takeWhile_append_dropWhile,
      List.reverse_reverse, List.takeWhile_append_dropWhile]
  · exact fun c => List.mem_takeWhile_imp
  · exact fun c hc => List.mem_takeWhile_imp (List.mem_reverse.mp hc)

def trim (s : String) : String := String.ofList (trimChars s.toList)

/-- `replace(/\s+/g, ' ')`: every run of whitespace becomes one space. -/
def collapseChars : List Char → List Char
  | [] => []
  | c :: rest =>
    if isWhitespace c then
      match collapseChars rest with
      | ' ' :: tail => ' ' :: tail
      | tail => ' ' :: tail
    else c :: collapseChars rest

def collapse (s : String) : String := String.ofList (collapseChars s.toList)

/-- `text.split(separator)` for a one-character separator: never empty. -/
def splitChars (separator : Char) : List Char → List (List Char)
  | [] => [[]]
  | c :: rest =>
    if c = separator then [] :: splitChars separator rest
    else match splitChars separator rest with
      | [] => [[c]]
      | piece :: pieces => (c :: piece) :: pieces

/-- A character of the text is the separator or in some piece. -/
lemma mem_splitChars {separator c : Char} {text : List Char} (h : c ∈ text) :
    c = separator ∨ ∃ piece ∈ splitChars separator text, c ∈ piece := by
  induction text with
  | nil => simp at h
  | cons d rest ih =>
    rw [splitChars]
    by_cases hd : d = separator
    · rw [if_pos hd]
      rcases List.mem_cons.mp h with rfl | h
      · exact Or.inl hd
      · rcases ih h with he | ⟨piece, hp, hc⟩
        · exact Or.inl he
        · exact Or.inr ⟨piece, List.mem_cons_of_mem _ hp, hc⟩
    · rw [if_neg hd]
      cases hs : splitChars separator rest with
      | nil =>
        rw [hs] at ih
        rcases List.mem_cons.mp h with rfl | h
        · exact Or.inr ⟨[c], by simp, by simp⟩
        · exact (ih h).imp id (by simp)
      | cons piece pieces =>
        rw [hs] at ih
        rcases List.mem_cons.mp h with rfl | h
        · exact Or.inr ⟨c :: piece, List.mem_cons_self, List.mem_cons_self⟩
        · rcases ih h with he | ⟨found, hf, hc⟩
          · exact Or.inl he
          · rcases List.mem_cons.mp hf with rfl | hf
            · exact Or.inr ⟨d :: found, List.mem_cons_self, List.mem_cons_of_mem _ hc⟩
            · exact Or.inr ⟨found, List.mem_cons_of_mem _ hf, hc⟩

/-- The cut is the one of the library, whose lemmas speak of it from here on. -/
lemma splitChars_eq_splitOn (separator : Char) (text : List Char) :
    splitChars separator text = text.splitOn separator := by
  induction text with
  | nil => rfl
  | cons c rest ih =>
    rw [splitChars, ih, List.splitOn_cons_eq_if_modifyHead]
    by_cases hc : c = separator
    · simp [hc]
    · rw [if_neg hc, if_neg (by simpa using hc)]
      cases hs : rest.splitOn separator with
      | nil => exact absurd hs (List.splitOn_ne_nil _ _)
      | cons piece pieces => rfl

lemma splitChars_eq_singleton {separator : Char} {text : List Char} (h : separator ∉ text) :
    splitChars separator text = [text] := by
  rw [splitChars_eq_splitOn, List.splitOn_eq_singleton h]

lemma splitChars_append_cons {separator : Char} {piece : List Char} (h : separator ∉ piece)
    (rest : List Char) :
    splitChars separator (piece ++ separator :: rest) = piece :: splitChars separator rest := by
  rw [splitChars_eq_splitOn, splitChars_eq_splitOn, List.splitOn_append_cons_self_of_not_mem h]

lemma splitChars_append (separator : Char) (before after : List Char) :
    splitChars separator (before ++ separator :: after) =
      splitChars separator before ++ splitChars separator after := by
  induction before with
  | nil => simp [splitChars]
  | cons c before ih =>
    rw [List.cons_append, splitChars, splitChars, ih]
    by_cases hc : c = separator
    · rw [if_pos hc, if_pos hc, List.cons_append]
    · rw [if_neg hc, if_neg hc]
      cases hs : splitChars separator before with
      | nil =>
        rw [splitChars_eq_splitOn] at hs
        exact absurd hs (List.splitOn_ne_nil _ _)
      | cons piece pieces => rfl

lemma intercalate_splitChars (separator : Char) (text : List Char) :
    [separator].intercalate (splitChars separator text) = text := by
  rw [splitChars_eq_splitOn, List.intercalate_splitOn]

lemma splitChars_ne_nil (separator : Char) (text : List Char) : splitChars separator text ≠ [] := by
  rw [splitChars_eq_splitOn]
  exact List.splitOn_ne_nil _ _

/-- A piece holds no separator. -/
lemma not_mem_of_mem_splitChars {separator : Char} {text piece : List Char}
    (h : piece ∈ splitChars separator text) : separator ∉ piece := by
  induction text generalizing piece with
  | nil =>
    rw [splitChars, List.mem_singleton] at h
    rw [h]
    exact List.not_mem_nil
  | cons c rest ih =>
    rw [splitChars] at h
    by_cases hc : c = separator
    · rw [if_pos hc] at h
      rcases List.mem_cons.mp h with rfl | h
      · exact List.not_mem_nil
      · exact ih h
    · rw [if_neg hc] at h
      cases hs : splitChars separator rest with
      | nil => exact absurd hs (splitChars_ne_nil _ _)
      | cons first pieces =>
        rw [hs] at h ih
        rcases List.mem_cons.mp h with rfl | h
        · rw [List.mem_cons, not_or]
          exact ⟨fun he => hc he.symm, ih List.mem_cons_self⟩
        · exact ih (List.mem_cons_of_mem _ h)

/-- What is in a piece is in the text. -/
lemma mem_of_mem_splitChars {separator c : Char} {text piece : List Char}
    (h : piece ∈ splitChars separator text) (hc : c ∈ piece) : c ∈ text := by
  induction text generalizing piece with
  | nil =>
    rw [splitChars, List.mem_singleton] at h
    rwa [h] at hc
  | cons d rest ih =>
    rw [splitChars] at h
    by_cases hd : d = separator
    · rw [if_pos hd] at h
      rcases List.mem_cons.mp h with rfl | h
      · exact absurd hc List.not_mem_nil
      · exact List.mem_cons_of_mem _ (ih h hc)
    · rw [if_neg hd] at h
      cases hs : splitChars separator rest with
      | nil => exact absurd hs (splitChars_ne_nil _ _)
      | cons first pieces =>
        rw [hs] at h ih
        rcases List.mem_cons.mp h with rfl | h
        · rcases List.mem_cons.mp hc with rfl | hc
          · exact List.mem_cons_self
          · exact List.mem_cons_of_mem _ (ih List.mem_cons_self hc)
        · exact List.mem_cons_of_mem _ (ih (List.mem_cons_of_mem _ h) hc)

/-- The pieces of a text are the one list of texts without the separator that joins to it. -/
theorem splitChars_eq_iff {separator : Char} {text : List Char} {pieces : List (List Char)}
    (hne : pieces ≠ []) : splitChars separator text = pieces ↔
      (∀ piece ∈ pieces, separator ∉ piece) ∧ text = [separator].intercalate pieces := by
  constructor
  · rintro rfl
    exact ⟨fun piece => not_mem_of_mem_splitChars, (intercalate_splitChars _ _).symm⟩
  · rintro ⟨hmem, rfl⟩
    rw [splitChars_eq_splitOn, List.splitOn_intercalate _ hmem hne]

lemma splitChars_injective (separator : Char) : Function.Injective (splitChars separator) := by
  intro left right h
  rw [← intercalate_splitChars separator left, h, intercalate_splitChars]

def split (separator : Char) (s : String) : List String :=
  (splitChars separator s.toList).map String.ofList

/-- The text before the last `separator` and the text after it; `none` without one. -/
def splitLast (separator : Char) : List Char → Option (List Char × List Char)
  | [] => none
  | c :: rest =>
    match splitLast separator rest with
    | some (before, after) => some (c :: before, after)
    | none => if c = separator then some ([], rest) else none

lemma splitLast_eq_none {separator : Char} {text : List Char} (h : separator ∉ text) :
    splitLast separator text = none := by
  induction text with
  | nil => rfl
  | cons c rest ih =>
    rw [List.mem_cons, not_or] at h
    rw [splitLast, ih h.2]
    exact if_neg fun hc => h.1 hc.symm

lemma not_mem_of_splitLast_eq_none {separator : Char} {text : List Char}
    (h : splitLast separator text = none) : separator ∉ text := by
  induction text with
  | nil => exact List.not_mem_nil
  | cons c rest ih =>
    rw [splitLast] at h
    cases hs : splitLast separator rest with
    | some found =>
      rw [hs] at h
      cases h
    | none =>
      rw [hs] at h
      split_ifs at h with hc
      rw [List.mem_cons, not_or]
      exact ⟨fun he => hc he.symm, ih hs⟩

lemma splitLast_eq_some {separator : Char} {text before after : List Char}
    (h : splitLast separator text = some (before, after)) :
    text = before ++ separator :: after ∧ separator ∉ after := by
  induction text generalizing before with
  | nil => cases h
  | cons c rest ih =>
    rw [splitLast] at h
    cases hs : splitLast separator rest with
    | some found =>
      obtain ⟨found, after'⟩ := found
      rw [hs] at h
      cases h
      obtain ⟨rfl, hmem⟩ := ih hs
      exact ⟨rfl, hmem⟩
    | none =>
      rw [hs] at h
      split_ifs at h with hc
      cases h
      exact ⟨by rw [hc, List.nil_append], not_mem_of_splitLast_eq_none hs⟩

/-- What follows the last separator is found again. -/
lemma splitLast_append {separator : Char} (before : List Char) {after : List Char}
    (h : separator ∉ after) : splitLast separator (before ++ separator :: after) =
      some (before, after) := by
  induction before with
  | nil => simp [splitLast, splitLast_eq_none h]
  | cons c before ih => simp [splitLast, ih]

/-- Two texts cut at their first separator are equal piece by piece. -/
lemma append_cons_inj {separator : Char} {before before' after after' : List Char}
    (h : separator ∉ before) (h' : separator ∉ before')
    (he : before ++ separator :: after = before' ++ separator :: after') :
    before = before' ∧ after = after' := by
  have hcut : ∀ {before after : List Char}, separator ∉ before →
      splitLast separator (before ++ separator :: after).reverse =
        some (after.reverse, before.reverse) := by
    intro before after h
    rw [List.reverse_append, List.reverse_cons, List.append_assoc, List.singleton_append]
    exact splitLast_append _ (by simpa using h)
  have hsome := @hcut _ after h
  rw [he, hcut h', Option.some.injEq, Prod.mk.injEq, List.reverse_inj, List.reverse_inj] at hsome
  exact ⟨hsome.2.symm, hsome.1.symm⟩

/-- `parts.join(separator)`. -/
def join (separator : String) : List String → String
  | [] => ""
  | [part] => part
  | part :: rest => part ++ separator ++ join separator rest

lemma toList_join (separator : String) (parts : List String) :
    (join separator parts).toList = separator.toList.intercalate (parts.map String.toList) := by
  induction parts with
  | nil => rfl
  | cons part parts ih =>
    cases parts with
    | nil => simp [join]
    | cons next parts =>
      have hstep : join separator (part :: next :: parts) =
          part ++ separator ++ join separator (next :: parts) := rfl
      rw [hstep, String.toList_append, String.toList_append, ih]
      simp only [List.map_cons, List.intercalate_cons_cons, List.append_assoc]

lemma toList_join_empty (parts : List String) :
    (join "" parts).toList = parts.flatMap String.toList := by
  induction parts with
  | nil => rfl
  | cons part parts ih =>
    cases parts with
    | nil => simp [join]
    | cons next parts =>
      have hstep : join "" (part :: next :: parts) = part ++ "" ++ join "" (next :: parts) := rfl
      rw [hstep, String.toList_append, String.toList_append, ih, List.flatMap_cons]
      simp

def startsWith (s pre : String) : Bool := pre.toList.isPrefixOf s.toList

/-- `text.includes(piece)`: the piece starts at some position. -/
def includesChars (piece : List Char) : List Char → Bool
  | [] => piece.isEmpty
  | c :: rest => piece.isPrefixOf (c :: rest) || includesChars piece rest

/-- The UTF-16 code units of a character: what `<` and the default sort compare by. -/
def codeUnits (c : Char) : List ℕ :=
  let n := c.toNat
  if n < 0x10000 then [n]
  else [0xd800 + (n - 0x10000) / 0x400, 0xdc00 + (n - 0x10000) % 0x400]

def utf16 (s : String) : List ℕ := s.toList.flatMap codeUnits

/-- Lexicographic order on code unit sequences. -/
def unitsLe : List ℕ → List ℕ → Bool
  | [], _ => true
  | _ :: _, [] => false
  | a :: as, b :: bs => a < b || (a = b && unitsLe as bs)

/-- `left <= right` on strings. -/
def le (left right : String) : Bool := unitsLe (utf16 left) (utf16 right)

/-- `Array.prototype.sort()` with no comparator: by code units, stable. -/
def sorted (parts : List String) : List String :=
  parts.insertionSort (fun left right => le left right = true)

section Order

lemma separated_codeUnits : PrefixCode.Separated codeUnits := by
  intro a b left right h
  have hrange : ∀ c : Char, c.toNat < 0xd800 ∨ 0xdfff < c.toNat ∧ c.toNat < 0x110000 :=
    fun c => c.valid
  have ha := hrange a
  have hb := hrange b
  refine Char.toNat_inj.mp ?_
  unfold codeUnits at h
  dsimp only at h
  split_ifs at h with hlow hlow' hlow'
  · exact (List.cons.inj h).1
  · have := (List.cons.inj h).1
    omega
  · have := (List.cons.inj h).1
    omega
  · have hhigh := (List.cons.inj h).1
    have hrest := (List.cons.inj (List.cons.inj h).2).1
    omega

lemma utf16_injective : Function.Injective utf16 := by
  have hne : ∀ c, codeUnits c ≠ [] := by
    intro c
    unfold codeUnits
    dsimp only
    split_ifs <;> exact List.cons_ne_nil _ _
  exact fun _ _ h => String.toList_inj.mp (PrefixCode.flatMap_injective separated_codeUnits hne h)

lemma unitsLe_total (left right : List ℕ) :
    unitsLe left right = true ∨ unitsLe right left = true := by
  induction left generalizing right with
  | nil => exact .inl rfl
  | cons a left ih =>
    cases right with
    | nil => exact .inr rfl
    | cons b right =>
      simp only [unitsLe, Bool.or_eq_true, Bool.and_eq_true, decide_eq_true_eq]
      rcases lt_trichotomy a b with hlt | rfl | hlt
      · exact .inl (.inl hlt)
      · exact (ih right).imp (fun h => .inr ⟨rfl, h⟩) fun h => .inr ⟨rfl, h⟩
      · exact .inr (.inl hlt)

lemma unitsLe_trans {first second third : List ℕ} (h : unitsLe first second = true)
    (h' : unitsLe second third = true) : unitsLe first third = true := by
  induction first generalizing second third with
  | nil => rfl
  | cons a first ih =>
    cases second with
    | nil => cases h
    | cons b second =>
      cases third with
      | nil => cases h'
      | cons c third =>
        simp only [unitsLe, Bool.or_eq_true, Bool.and_eq_true, decide_eq_true_eq] at h h' ⊢
        rcases h with hlt | ⟨rfl, h⟩
        · rcases h' with hlt' | ⟨rfl, -⟩
          · exact .inl (hlt.trans hlt')
          · exact .inl hlt
        · exact h'.imp_right fun h' => ⟨h'.1, ih h h'.2⟩

lemma unitsLe_antisymm {left right : List ℕ} (h : unitsLe left right = true)
    (h' : unitsLe right left = true) : left = right := by
  induction left generalizing right with
  | nil =>
    cases right with
    | nil => rfl
    | cons b right => cases h'
  | cons a left ih =>
    cases right with
    | nil => cases h
    | cons b right =>
      simp only [unitsLe, Bool.or_eq_true, Bool.and_eq_true, decide_eq_true_eq] at h h'
      rcases h with hlt | ⟨rfl, h⟩
      · rcases h' with hlt' | ⟨rfl, -⟩
        · exact absurd hlt' hlt.asymm
        · exact absurd hlt (lt_irrefl _)
      · rcases h' with hlt' | ⟨-, h'⟩
        · exact absurd hlt' (lt_irrefl _)
        · rw [ih h h']

instance : Std.Total fun left right : String => le left right = true :=
  ⟨fun left right => unitsLe_total (utf16 left) (utf16 right)⟩

instance : IsTrans String fun left right => le left right = true :=
  ⟨fun _ _ _ => unitsLe_trans⟩

/-- Sorting forgets the order, and nothing else. -/
theorem sorted_eq_iff {parts parts' : List String} :
    sorted parts = sorted parts' ↔ parts.Perm parts' := by
  have hperm : ∀ parts, (sorted parts).Perm parts := fun parts => List.perm_insertionSort _ parts
  constructor
  · intro h
    exact (hperm parts).symm.trans (h ▸ hperm parts')
  · intro h
    refine List.Perm.eq_of_pairwise (fun _ _ _ _ hle hge => utf16_injective (unitsLe_antisymm hle hge))
      (List.pairwise_insertionSort (fun left right => le left right = true) parts)
      (List.pairwise_insertionSort (fun left right => le left right = true) parts') ?_
    exact ((hperm parts).trans h).trans (hperm parts').symm

end Order

def isDigit (c : Char) : Bool := '0' ≤ c && c ≤ '9'

def isAlphanumeric (c : Char) : Bool :=
  isDigit c || ('A' ≤ c && c ≤ 'Z') || ('a' ≤ c && c ≤ 'z')

lemma toNat_lt_of_isAlphanumeric {c : Char} (h : isAlphanumeric c = true) : c.toNat < 128 := by
  have hz : ('z' : Char).toNat = 122 := rfl
  have h9 : ('9' : Char).toNat = 57 := rfl
  have hZ : ('Z' : Char).toNat = 90 := rfl
  simp only [isAlphanumeric, isDigit, Bool.or_eq_true, Bool.and_eq_true, decide_eq_true_eq,
    Char.le_def, UInt32.le_iff_toNat_le] at h
  simp only [Char.toNat] at *
  omega

lemma toLower_of_not_upper {c : Char} (h : ¬('A' ≤ c ∧ c ≤ 'Z')) : c.toLower = c := dif_neg h

/-- Only a letter can be the lower case of something else. -/
lemma eq_of_toLower {c d : Char} (hd : ¬('a' ≤ d ∧ d ≤ 'z')) (h : c.toLower = d) : c = d := by
  delta Char.toLower at h
  split_ifs at h with hc
  · have hA : 'A'.val.toNat = 65 := rfl
    have hZ : 'Z'.val.toNat = 90 := rfl
    have hshift : ('a'.val - 'A'.val).toNat = 32 := rfl
    simp only [ge_iff_le, UInt32.le_iff_toNat_le] at hc
    have hadd : (c.val + ('a'.val - 'A'.val)).toNat = c.val.toNat + 32 := by
      rw [UInt32.toNat_add, hshift]
      omega
    refine absurd ?_ hd
    rw [← h, Char.le_def, Char.le_def, UInt32.le_iff_toNat_le, UInt32.le_iff_toNat_le]
    change 97 ≤ (c.val + ('a'.val - 'A'.val)).toNat ∧
      (c.val + ('a'.val - 'A'.val)).toNat ≤ 122
    omega
  · exact h

/-- Lower-casing puts no character but letters into a text. -/
lemma not_mem_map_toLower {d : Char} {text : List Char} (hd : ¬('a' ≤ d ∧ d ≤ 'z'))
    (h : d ∉ text) : d ∉ text.map Char.toLower := by
  intro hm
  obtain ⟨c, hc, hlower⟩ := List.mem_map.mp hm
  exact h (eq_of_toLower hd hlower ▸ hc)

/-- `Number(text)` of a run of decimal digits. -/
def decimal (digits : List Char) : ℕ :=
  digits.foldl (fun total c => total * 10 + (c.toNat - '0'.toNat)) 0

/-- Two numbers are not written alike. -/
lemma toString_nat_injective {m n : ℕ} (h : toString m = toString n) : m = n := by
  have hdigits : Nat.toDigits 10 m = Nat.toDigits 10 n := by
    rw [← Nat.toList_repr, ← Nat.toList_repr]
    exact congrArg String.toList h
  rw [← @Nat.ofDigitChars_toDigits 10 m (by decide) (by decide), hdigits,
    Nat.ofDigitChars_toDigits (by decide) (by decide)]

lemma not_mem_toString {c : Char} (n : ℕ) (h : c.isDigit = false) : c ∉ (toString n).toList := by
  rw [Nat.toString_eq_repr, Nat.toList_repr]
  intro hm
  have := Nat.isDigit_of_mem_toDigits (by decide) (by decide) hm
  simp [h] at this

lemma isDigit_eq_false_of_isWhitespace {c : Char} (h : isWhitespace c = true) :
    isDigit c = false := by
  by_contra hdigit
  have hcode : 48 ≤ c.toNat ∧ c.toNat ≤ 57 := by
    simpa [isDigit, Char.le_def, UInt32.le_iff_toNat_le] using hdigit
  simp only [isWhitespace, Bool.or_eq_true, Bool.and_eq_true, decide_eq_true_eq] at h
  omega

lemma trimChars_eq_self {text : List Char} (h : ∀ c ∈ text, isWhitespace c = false) :
    trimChars text = text := by
  have hkeep : ∀ {text : List Char}, (∀ c ∈ text, isWhitespace c = false) →
      text.dropWhile isWhitespace = text := by
    intro text h
    cases text with
    | nil => rfl
    | cons c rest => rw [List.dropWhile_cons, h c List.mem_cons_self, if_neg Bool.false_ne_true]
  rw [trimChars, hkeep h, hkeep fun c hc => h c (List.mem_reverse.mp hc), List.reverse_reverse]

lemma isDigit_of_mem_toString {n : ℕ} {c : Char} (h : c ∈ (toString n).toList) :
    isDigit c = true := by
  rw [Nat.toString_eq_repr, Nat.toList_repr] at h
  exact Nat.isDigit_of_mem_toDigits (by decide) (by decide) h

lemma decimal_toString (n : ℕ) : decimal (toString n).toList = n := by
  rw [Nat.toString_eq_repr, Nat.toList_repr]
  conv_rhs => rw [← @Nat.ofDigitChars_toDigits 10 n (by decide) (by decide),
    Nat.ofDigitChars_eq_foldl]
  simp only [decimal, Nat.mul_comm 10]

example : split ',' "a,,b" = ["a", "", "b"] := by decide

end Portcall.Text
