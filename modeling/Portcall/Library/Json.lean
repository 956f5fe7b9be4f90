import Mathlib.Data.List.Forall2
import Mathlib.Data.List.TakeWhile
import Mathlib.Data.Option.Basic

/-! JSON texts: the value that a text denotes, and rules to read one that is written piece by
piece. -/
namespace Portcall

/-- A JSON value. A number stays as it is written, and so does the order of an object's members. -/
inductive Json where
  | null
  | bool (value : Bool)
  | number (token : String)
  | string (text : String)
  | array (items : List Json)
  | object (members : List (String × Json))

namespace Json

section Tokens

/-- A character that may stand between two tokens. -/
def isBlank (c : Char) : Bool := c = ' ' || c = '\t' || c = '\n' || c = '\r'

def skip (text : List Char) : List Char := text.dropWhile isBlank

def hexValue (c : Char) : Option ℕ :=
  if c.isDigit then some (c.toNat - 48)
  else if 'a' ≤ c && c ≤ 'f' then some (c.toNat - 87)
  else if 'A' ≤ c && c ≤ 'F' then some (c.toNat - 55)
  else none

/-- The code unit that four hexadecimal digits spell. -/
def readUnit : List Char → Option (ℕ × List Char)
  | a :: b :: c :: d :: rest => do
    let first ← hexValue a
    let second ← hexValue b
    let third ← hexValue c
    let fourth ← hexValue d
    return (((first * 16 + second) * 16 + third) * 16 + fourth, rest)
  | _ => none

/-- The second half of a pair of surrogates. -/
def readLow (high : ℕ) : List Char → Option (Char × List Char)
  | '\\' :: 'u' :: rest => do
    let (low, rest) ← readUnit rest
    if 0xDC00 ≤ low ∧ low < 0xE000 then
      return (Char.ofNat (0x10000 + (high - 0xD800) * 0x400 + (low - 0xDC00)), rest)
    else none
  | _ => none

/-- What follows a backslash; half a pair of surrogates is no character. -/
def readEscape : List Char → Option (Char × List Char)
  | [] => none
  | c :: rest =>
    if c = '"' || c = '\\' || c = '/' then some (c, rest)
    else if c = 'b' then some (Char.ofNat 8, rest)
    else if c = 't' then some (Char.ofNat 9, rest)
    else if c = 'n' then some (Char.ofNat 10, rest)
    else if c = 'f' then some (Char.ofNat 12, rest)
    else if c = 'r' then some (Char.ofNat 13, rest)
    else if c = 'u' then do
      let (unit, rest) ← readUnit rest
      if unit < 0xD800 ∨ 0xE000 ≤ unit then return (Char.ofNat unit, rest)
      else if unit < 0xDC00 then readLow unit rest
      else none
    else none

/-- One character between quotes. -/
def readChar : List Char → Option (Char × List Char)
  | [] => none
  | c :: rest =>
    if c = '\\' then readEscape rest
    else if c.toNat < 32 then none
    else some (c, rest)

/-- All characters up to the closing quote. -/
def readQuoted : ℕ → List Char → Option (List Char × List Char)
  | 0, _ => none
  | _ + 1, [] => none
  | fuel + 1, c :: rest =>
    if c = '"' then some ([], rest)
    else do
      let (c, rest) ← readChar (c :: rest)
      let (chars, rest) ← readQuoted fuel rest
      return (c :: chars, rest)

def isNumberChar (c : Char) : Bool :=
  c.isDigit || c = '-' || c = '+' || c = '.' || c = 'e' || c = 'E'

def isExponent : List Char → Bool
  | [] => true
  | c :: rest =>
    let digits := match rest with
      | '+' :: digits | '-' :: digits => digits
      | digits => digits
    (c = 'e' || c = 'E') && !digits.isEmpty && digits.all Char.isDigit

def isFraction : List Char → Bool
  | '.' :: rest => rest.head?.any Char.isDigit && isExponent (rest.dropWhile Char.isDigit)
  | rest => isExponent rest

/-- A number without a sign: only `0` itself begins with `0`. -/
def isUnsigned : List Char → Bool
  | '0' :: rest => isFraction rest
  | c :: rest => c.isDigit && isFraction (rest.dropWhile Char.isDigit)
  | [] => false

def isNumber : List Char → Bool
  | '-' :: rest => isUnsigned rest
  | rest => isUnsigned rest

def readNumber (text : List Char) : Option (Json × List Char) :=
  let token := text.takeWhile isNumberChar
  if isNumber token then some (.number (String.ofList token), text.dropWhile isNumberChar) else none

def readWord (word : List Char) (value : Json) (text : List Char) : Option (Json × List Char) :=
  if word.isPrefixOf text then some (value, text.drop word.length) else none

def readLiteral (text : List Char) : Option (Json × List Char) :=
  ((readWord ['n', 'u', 'l', 'l'] .null text).or
      (readWord ['t', 'r', 'u', 'e'] (.bool true) text)).or
    ((readWord ['f', 'a', 'l', 's', 'e'] (.bool false) text).or (readNumber text))

end Tokens

section Values
variable {α : Type}

/-- At least one thing, the things apart by commas, and the bracket behind the last. -/
def readList (readOne : List Char → Option (α × List Char)) (closing : Char) :
    ℕ → List Char → Option (List α × List Char)
  | 0, _ => none
  | fuel + 1, text => do
    let (one, rest) ← readOne text
    match skip rest with
    | [] => none
    | c :: rest =>
      if c = ',' then do
        let (more, rest) ← readList readOne closing fuel rest
        return (one :: more, rest)
      else if c = closing then return ([one], rest)
      else none

def readBetween (readOne : List Char → Option (α × List Char)) (closing : Char) (fuel : ℕ)
    (text : List Char) : Option (List α × List Char) :=
  match skip text with
  | [] => none
  | c :: rest => if c = closing then some ([], rest) else readList readOne closing fuel text

def readString (text : List Char) : Option (String × List Char) :=
  match skip text with
  | [] => none
  | c :: rest =>
    if c = '"' then (readQuoted rest.length rest).map fun (chars, rest) =>
      (String.ofList chars, rest)
    else none

def readMember (readOne : List Char → Option (Json × List Char)) (text : List Char) :
    Option ((String × Json) × List Char) := do
  let (key, rest) ← readString text
  match skip rest with
  | [] => none
  | c :: rest =>
    if c = ':' then do
      let (value, rest) ← readOne rest
      return ((key, value), rest)
    else none

/-- A value in front of a text, and what follows it. -/
def readValue : ℕ → List Char → Option (Json × List Char)
  | 0, _ => none
  | fuel + 1, text =>
    match skip text with
    | [] => none
    | c :: rest =>
      if c = '"' then (readString text).map fun (text, rest) => (.string text, rest)
      else if c = '[' then
        (readBetween (readValue fuel) ']' fuel rest).map fun (items, rest) => (.array items, rest)
      else if c = '\x7b' then
        (readBetween (readMember (readValue fuel)) '\x7d' fuel rest).map fun (members, rest) =>
          (.object members, rest)
      else readLiteral (c :: rest)

/-- The value that all of a text denotes. -/
def read (text : String) : Option Json :=
  match readValue text.toList.length text.toList with
  | none => none
  | some (value, rest) => if (skip rest).isEmpty then some value else none

end Values

section Rules
variable {α : Type} {blanks text body chars rest : List Char}

/-- What may stand behind a number. -/
def Ends (rest : List Char) : Prop := ∀ c ∈ rest.head?, isNumberChar c = false

lemma ends_cons {c : Char} (h : isNumberChar c = false) : Ends (c :: rest) := by
  intro c' hc
  cases hc
  exact h

lemma isNumberChar_of_isBlank {c : Char} (h : isBlank c = true) : isNumberChar c = false := by
  simp only [isBlank, Bool.or_eq_true, decide_eq_true_eq] at h
  rcases h with ((rfl | rfl) | rfl) | rfl <;> decide

lemma ends_blank (hblank : ∀ c ∈ blanks, isBlank c = true) (h : Ends rest) :
    Ends (blanks ++ rest) := by
  cases blanks with
  | nil => exact h
  | cons c blanks => exact ends_cons (isNumberChar_of_isBlank (hblank c List.mem_cons_self))

lemma skip_blank (hblank : ∀ c ∈ blanks, isBlank c = true) : skip (blanks ++ text) = skip text := by
  rw [skip, List.dropWhile_append_of_pos hblank, skip]

lemma skip_cons {c : Char} (h : isBlank c = false) : skip (c :: text) = c :: text :=
  List.dropWhile_cons_of_neg (by simp [h])

/-- What is in front of a text denotes this, and is all that is read. -/
def ReadsBy (readOne : List Char → Option (α × List Char)) (text : List Char) (one : α) : Prop :=
  ∀ rest, Ends rest → readOne (text ++ rest) = some (one, rest)

/-- So with as much fuel as the text is long. -/
def Reads (text : List Char) (value : Json) : Prop :=
  ∀ fuel, text.length ≤ fuel → ReadsBy (readValue fuel) text value

lemma Reads.blank {value : Json} (h : Reads text value) (hblank : ∀ c ∈ blanks, isBlank c = true) :
    Reads (blanks ++ text) value := by
  intro fuel hfuel rest hrest
  rw [List.length_append] at hfuel
  have hread := h fuel (by omega) rest hrest
  rw [List.append_assoc]
  cases fuel with
  | zero => exact hread
  | succ fuel =>
    rw [readValue, readString] at hread ⊢
    rwa [skip_blank hblank]

/-- What is between quotes denotes this. -/
def Quotes (body chars : List Char) : Prop :=
  ∀ rest fuel, body.length < fuel → readQuoted fuel (body ++ '"' :: rest) = some (chars, rest)

/-- A text quoted character by character is read back. -/
lemma quotes_flatMap {escape : Char → List Char}
    (h : ∀ c rest, readChar (escape c ++ rest) = some (c, rest))
    (hquote : ∀ c, (escape c).head? ≠ some '"') (chars : List Char) :
    Quotes (chars.flatMap escape) chars := by
  induction chars with
  | nil =>
    intro rest fuel hfuel
    cases fuel with
    | zero => cases hfuel
    | succ fuel => rfl
  | cons c chars ih =>
    intro rest fuel hfuel
    rw [List.flatMap_cons, List.append_assoc]
    rw [List.flatMap_cons, List.length_append] at hfuel
    have hread := h c (chars.flatMap escape ++ '"' :: rest)
    cases hescape : escape c with
    | nil =>
      have hnone := h c []
      rw [hescape] at hnone
      cases hnone
    | cons first others =>
      have hne : first ≠ '"' := fun he => hquote c (by rw [hescape, he]; rfl)
      rw [hescape] at hread hfuel
      cases fuel with
      | zero => cases hfuel
      | succ fuel =>
        rw [List.cons_append] at hread ⊢
        rw [readQuoted, if_neg hne, hread]
        change (readQuoted fuel _).bind _ = _
        rw [List.length_cons] at hfuel
        rw [ih rest fuel (by omega)]
        rfl

lemma readString_quotes (h : Quotes body chars) :
    ReadsBy readString ('"' :: (body ++ ['"'])) (String.ofList chars) := by
  intro rest _
  rw [List.cons_append, List.append_assoc, List.singleton_append, readString,
    skip_cons (by decide)]
  dsimp only
  rw [if_pos rfl, h rest _ (by simp)]
  rfl

lemma reads_string (h : Quotes body chars) :
    Reads ('"' :: (body ++ ['"'])) (.string (String.ofList chars)) := by
  intro fuel hfuel rest hrest
  cases fuel with
  | zero => cases hfuel
  | succ fuel =>
    have hread := readString_quotes h rest hrest
    rw [List.cons_append] at hread ⊢
    rw [readValue, skip_cons (by decide)]
    dsimp only
    rw [if_pos rfl, hread]
    rfl

/-- A word that no token before it is the start of. -/
lemma reads_literal {c : Char} {value : Json} (hblank : isBlank c = false)
    (hquote : c ≠ '"') (harray : c ≠ '[') (hobject : c ≠ '\x7b')
    (h : ReadsBy readLiteral (c :: text) value) : Reads (c :: text) value := by
  intro fuel hfuel rest hrest
  cases fuel with
  | zero => cases hfuel
  | succ fuel =>
    rw [List.cons_append, readValue, skip_cons hblank]
    dsimp only
    rw [if_neg hquote, if_neg harray, if_neg hobject]
    exact h rest hrest

lemma reads_bool (value : Bool) :
    Reads (if value then "true" else "false").toList (.bool value) := by
  cases value <;> exact reads_literal (by decide) (by decide) (by decide) (by decide)
    fun _ _ => rfl

lemma reads_null : Reads "null".toList .null :=
  reads_literal (by decide) (by decide) (by decide) (by decide) fun _ _ => rfl

lemma takeWhile_token {token : List Char} (htoken : ∀ c ∈ token, isNumberChar c = true)
    (hrest : Ends rest) : (token ++ rest).takeWhile isNumberChar = token ∧
      (token ++ rest).dropWhile isNumberChar = rest := by
  rw [List.takeWhile_append_of_pos htoken, List.dropWhile_append_of_pos htoken]
  cases rest with
  | nil => simp
  | cons c rest =>
    have hc := hrest c rfl
    simp [hc]

lemma readWord_of_ne {first c : Char} {others : List Char} {value : Json} (h : c ≠ first) :
    readWord (first :: others) value (c :: rest) = none := by
  rw [readWord, if_neg]
  simp [Ne.symm h]

lemma reads_number {c : Char} {token : List Char}
    (htoken : ∀ d ∈ c :: token, isNumberChar d = true) (hnumber : isNumber (c :: token) = true) :
    Reads (c :: token) (.number (String.ofList (c :: token))) := by
  have hne : ∀ d, isNumberChar d = false → c ≠ d := by
    rintro d hd rfl
    rw [htoken c List.mem_cons_self] at hd
    cases hd
  have hblank : isBlank c = false := by
    by_contra hblank
    have hnot := isNumberChar_of_isBlank (Bool.of_not_eq_false hblank)
    rw [htoken c List.mem_cons_self] at hnot
    cases hnot
  refine reads_literal hblank (hne _ (by decide)) (hne _ (by decide)) (hne _ (by decide))
    fun rest hrest => ?_
  obtain ⟨htake, hdrop⟩ := takeWhile_token htoken hrest
  rw [readLiteral, List.cons_append, readWord_of_ne (hne _ (by decide)),
    readWord_of_ne (hne _ (by decide)), readWord_of_ne (hne _ (by decide)), ← List.cons_append,
    readNumber, htake, hdrop, if_pos hnumber]
  rfl

section Lists
variable {readOne : List Char → Option (α × List Char)} {closing : Char} {texts : List (List Char)}
  {ones : List α}

/-- Things between commas, read one by one; the bracket may stand apart from the last. -/
lemma readList_intercalate (h : List.Forall₂ (ReadsBy readOne) texts ones) (hne : texts ≠ [])
    (hblanks : ∀ c ∈ blanks, isBlank c = true) (hclosing : isNumberChar closing = false)
    (hbracket : isBlank closing = false) (hcomma : closing ≠ ',') {fuel : ℕ}
    (hfuel : texts.length ≤ fuel) :
    readList readOne closing fuel ([','].intercalate texts ++ (blanks ++ closing :: rest)) =
      some (ones, rest) := by
  induction h generalizing fuel with
  | nil => exact absurd rfl hne
  | @cons text one texts ones hone hrest ih =>
    cases fuel with
    | zero => cases hfuel
    | succ fuel =>
      cases texts with
      | nil =>
        cases hrest
        rw [List.intercalate_singleton, readList,
          hone _ (ends_blank hblanks (ends_cons hclosing)), Option.bind_eq_bind, Option.bind_some]
        dsimp only
        rw [skip_blank hblanks, skip_cons hbracket]
        dsimp only
        rw [if_neg hcomma, if_pos rfl]
        rfl
      | cons second texts =>
        have hmore := @ih (List.cons_ne_nil _ _) fuel (by simpa using hfuel)
        rw [List.intercalate_cons_cons, List.append_assoc, List.append_assoc,
          List.singleton_append, readList, hone _ (ends_cons (by decide)), Option.bind_eq_bind,
          Option.bind_some]
        dsimp only
        rw [skip_cons (by decide)]
        dsimp only
        rw [if_pos rfl, hmore]
        rfl

/-- The first thing does not begin with the bracket that would close nothing at all. -/
lemma readBetween_intercalate (h : List.Forall₂ (ReadsBy readOne) texts ones) (hne : texts ≠ [])
    (hblanks : ∀ c ∈ blanks, isBlank c = true) (hclosing : isNumberChar closing = false)
    (hbracket : isBlank closing = false) (hcomma : closing ≠ ',')
    (hhead : ∀ text, (∀ c ∈ (skip text).head?, c = closing) → readOne text = none) {fuel : ℕ}
    (hfuel : texts.length ≤ fuel) :
    readBetween readOne closing fuel ([','].intercalate texts ++ (blanks ++ closing :: rest)) =
      some (ones, rest) := by
  have hlist := @readList_intercalate _ blanks rest readOne closing texts ones h hne hblanks hclosing
    hbracket hcomma fuel hfuel
  set text := [','].intercalate texts ++ (blanks ++ closing :: rest) with htext
  have hfirst : (readOne text).isSome = true := by
    cases h with
    | nil => exact absurd rfl hne
    | @cons first one others _ hone _ =>
      cases others with
      | nil =>
        rw [htext, List.intercalate_singleton, hone _ (ends_blank hblanks (ends_cons hclosing))]
        rfl
      | cons second others =>
        rw [htext, List.intercalate_cons_cons, List.append_assoc, List.append_assoc,
          List.singleton_append, hone _ (ends_cons (by decide))]
        rfl
  rw [readBetween]
  cases hskip : skip text with
  | nil =>
    rw [hhead text (by rw [hskip]; simp)] at hfirst
    cases hfirst
  | cons c others =>
    dsimp only
    rw [if_neg, hlist]
    rintro rfl
    rw [hhead text (by rw [hskip]; simp)] at hfirst
    cases hfirst

lemma length_intercalate (texts : List (List Char)) :
    (∀ text ∈ texts, text.length ≤ ([','].intercalate texts).length) ∧
      texts.length ≤ ([','].intercalate texts).length + 1 := by
  induction texts with
  | nil => simp
  | cons text texts ih =>
    cases texts with
    | nil => simp
    | cons second texts =>
      rw [List.intercalate_cons_cons, List.forall_mem_cons]
      simp only [List.length_append, List.length_cons, List.length_nil] at ih ⊢
      refine ⟨⟨by omega, fun other hm => ?_⟩, by omega⟩
      have := ih.1 other hm
      omega

end Lists

section Integers

/-- The whole number that a token spells. -/
def toInt : Json → Option ℤ
  | .number token =>
    match token.toList with
    | '-' :: digits =>
      if digits.all Char.isDigit then some (-(Nat.ofDigitChars 10 digits 0)) else none
    | digits => if digits.all Char.isDigit then some (Nat.ofDigitChars 10 digits 0) else none
  | _ => none

lemma all_isDigit_toDigits (n : ℕ) : (Nat.toDigits 10 n).all Char.isDigit = true :=
  List.all_eq_true.mpr fun _ hm => Nat.isDigit_of_mem_toDigits (by decide) (by decide) hm

lemma head_toDigits {n : ℕ} (h : 0 < n) : (Nat.toDigits 10 n).head? ≠ some '0' := by
  induction n using Nat.strongRecOn with
  | ind n ih =>
    rw [Nat.toDigits_eq_if (by decide)]
    split_ifs with hlt
    · have hall : ∀ n < 10, 0 < n → [n.digitChar].head? ≠ some '0' := by decide
      exact hall n hlt h
    · rw [List.head?_append_of_ne_nil _ Nat.toDigits_ne_nil]
      exact ih (n / 10) (by omega) (by omega)

lemma isUnsigned_toDigits (n : ℕ) : isUnsigned (Nat.toDigits 10 n) = true := by
  have hall := all_isDigit_toDigits n
  cases n with
  | zero => decide
  | succ n =>
    have hhead := head_toDigits (Nat.succ_pos n)
    unfold isUnsigned
    split
    next heq => simp [heq] at hhead
    next c rest hne heq =>
      rw [heq, List.all_cons, Bool.and_eq_true] at hall
      rw [hall.1, List.dropWhile_eq_nil_iff.mpr (List.all_eq_true.mp hall.2)]
      rfl
    next heq => exact absurd heq Nat.toDigits_ne_nil

lemma isNumber_toDigits (n : ℕ) : isNumber (Nat.toDigits 10 n) = true := by
  unfold isNumber
  split
  next rest heq =>
    have hall := all_isDigit_toDigits n
    rw [heq] at hall
    cases hall
  next => exact isUnsigned_toDigits n

lemma toList_toString (n : ℤ) : (toString n).toList =
    if n < 0 then '-' :: Nat.toDigits 10 n.natAbs else Nat.toDigits 10 n.natAbs := by
  cases n with
  | ofNat n => exact Nat.toList_repr
  | negSucc n =>
    change ("-" ++ Nat.repr (n + 1)).toList = _
    rw [String.toList_append, Nat.toList_repr, if_pos (Int.negSucc_lt_zero n)]
    rfl

lemma isNumberChar_of_isDigit {c : Char} (h : c.isDigit = true) : isNumberChar c = true := by
  simp [isNumberChar, h]

/-- A whole number is written as a token that spells it. -/
lemma reads_int (n : ℤ) : Reads (toString n).toList (.number (toString n)) := by
  have hdigits : ∀ d ∈ Nat.toDigits 10 n.natAbs, isNumberChar d = true := fun d hm =>
    isNumberChar_of_isDigit (List.all_eq_true.mp (all_isDigit_toDigits _) d hm)
  have hread : ∀ token : List Char, token ≠ [] → (∀ d ∈ token, isNumberChar d = true) →
      isNumber token = true → Reads token (.number (String.ofList token)) := by
    intro token hne htoken hnumber
    cases token with
    | nil => exact absurd rfl hne
    | cons c token => exact reads_number htoken hnumber
  have htoken := hread (toString n).toList
  rw [String.ofList_toList] at htoken
  apply htoken
  · rw [toList_toString]
    split_ifs
    · exact List.cons_ne_nil _ _
    · exact Nat.toDigits_ne_nil
  · rw [toList_toString]
    split_ifs
    · exact List.forall_mem_cons.mpr ⟨by decide, hdigits⟩
    · exact hdigits
  · rw [toList_toString]
    split_ifs
    · exact isUnsigned_toDigits _
    · exact isNumber_toDigits _

lemma toInt_toString (n : ℤ) : toInt (.number (toString n)) = some n := by
  have hvalue : Nat.ofDigitChars 10 (Nat.toDigits 10 n.natAbs) 0 = n.natAbs :=
    Nat.ofDigitChars_ten_toDigits
  rw [toInt, toList_toString]
  split_ifs with hneg
  · change (if (Nat.toDigits 10 n.natAbs).all Char.isDigit then
      some (-(Nat.ofDigitChars 10 (Nat.toDigits 10 n.natAbs) 0 : ℤ)) else none) = some n
    rw [if_pos (all_isDigit_toDigits _), hvalue]
    congr 1
    omega
  · split
    next digits heq =>
      have hall := all_isDigit_toDigits n.natAbs
      rw [heq] at hall
      cases hall
    next =>
      rw [if_pos (all_isDigit_toDigits _), hvalue]
      congr 1
      omega

end Integers

section Collections
variable {texts : List (List Char)}

lemma readValue_none {fuel : ℕ} {closing : Char} (hclosing : closing = ']' ∨ closing = '\x7d')
    (h : ∀ c ∈ (skip text).head?, c = closing) : readValue fuel text = none := by
  cases fuel with
  | zero => rfl
  | succ fuel =>
    rw [readValue]
    cases hskip : skip text with
    | nil => rfl
    | cons c others =>
      have hc := h c (by rw [hskip]; rfl)
      dsimp only
      rcases hclosing with hclosing | hclosing <;> rw [hc, hclosing] <;> rfl

lemma reads_array_nil : Reads "[]".toList (.array []) := by
  intro fuel hfuel rest _
  cases fuel with
  | zero => cases hfuel
  | succ fuel => rfl

lemma reads_object_nil : Reads "\x7b\x7d".toList (.object []) := by
  intro fuel hfuel rest _
  cases fuel with
  | zero => cases hfuel
  | succ fuel => rfl

/-- With as much fuel as the text is long there is enough for each thing between the commas. -/
lemma readBetween_family {readOne : ℕ → List Char → Option (α × List Char)} {closing : Char}
    {ones : List α} (h : List.Forall₂ (fun text one => ∀ fuel, text.length ≤ fuel →
      ReadsBy (readOne fuel) text one) texts ones) (hne : texts ≠ [])
    (hblanks : ∀ c ∈ blanks, isBlank c = true) (hclosing : closing = ']' ∨ closing = '\x7d')
    (hhead : ∀ fuel text, (∀ c ∈ (skip text).head?, c = closing) → readOne fuel text = none)
    {fuel : ℕ} (hfuel : ([','].intercalate texts ++ (blanks ++ [closing])).length ≤ fuel) :
    readBetween (readOne fuel) closing fuel
      ([','].intercalate texts ++ (blanks ++ closing :: rest)) = some (ones, rest) := by
  obtain ⟨hall, hlength⟩ := length_intercalate texts
  simp only [List.length_cons, List.length_append, List.length_nil] at hfuel
  have hlong : ∀ text ∈ texts, text.length ≤ fuel := by
    intro text hm
    have := hall text hm
    omega
  have hboth := (List.forall₂_and_left texts ones).mpr ⟨hlong, h⟩
  have hones : List.Forall₂ (ReadsBy (readOne fuel)) texts ones :=
    hboth.imp fun text one hone => hone.2 fuel hone.1
  apply readBetween_intercalate hones hne hblanks
  · rcases hclosing with rfl | rfl <;> decide
  · rcases hclosing with rfl | rfl <;> decide
  · rcases hclosing with rfl | rfl <;> decide
  · exact hhead fuel
  · omega

/-- Values between commas. -/
lemma reads_array {values : List Json} (h : List.Forall₂ Reads texts values) (hne : texts ≠ [])
    (hblanks : ∀ c ∈ blanks, isBlank c = true) :
    Reads ('[' :: ([','].intercalate texts ++ (blanks ++ [']']))) (.array values) := by
  intro fuel hfuel rest _
  cases fuel with
  | zero => cases hfuel
  | succ fuel =>
    have hbetween := @readBetween_family _ blanks rest texts readValue ']' values h hne hblanks
      (Or.inl rfl) (fun _ _ => readValue_none (Or.inl rfl)) fuel (Nat.le_of_succ_le_succ hfuel)
    rw [List.cons_append, List.append_assoc, List.append_assoc, List.singleton_append, readValue,
      skip_cons (by decide)]
    dsimp only
    rw [if_neg (by decide), if_pos rfl, hbetween]
    rfl

/-- A key and its value. -/
def Binds (text : List Char) (bound : String × Json) : Prop :=
  ∃ blanks body value, (∀ c ∈ blanks, isBlank c = true) ∧ Quotes body bound.1.toList ∧
    Reads value bound.2 ∧ text = blanks ++ ('"' :: (body ++ ['"'])) ++ (':' :: value)

lemma Binds.readsBy {bound : String × Json} (h : Binds text bound) (fuel : ℕ)
    (hfuel : text.length ≤ fuel) : ReadsBy (readMember (readValue fuel)) text bound := by
  obtain ⟨blanks, body, value, hblanks, hbody, hvalue, rfl⟩ := h
  intro rest hrest
  have hkey := readString_quotes hbody (':' :: (value ++ rest)) (ends_cons (by decide))
  have hread := hvalue fuel (by simp at hfuel; omega) rest hrest
  have hskipped : readString (blanks ++ (('"' :: (body ++ ['"'])) ++ (':' :: (value ++ rest)))) =
      readString (('"' :: (body ++ ['"'])) ++ (':' :: (value ++ rest))) := by
    rw [readString, skip_blank hblanks, readString]
  rw [List.append_assoc, List.append_assoc, List.cons_append (a := ':'), readMember, hskipped, hkey,
    Option.bind_eq_bind, Option.bind_some]
  dsimp only
  rw [skip_cons (by decide)]
  dsimp only
  rw [if_pos rfl, hread, String.ofList_toList]
  rfl

lemma readMember_none {readOne : List Char → Option (Json × List Char)}
    (h : ∀ c ∈ (skip text).head?, c = '\x7d') : readMember readOne text = none := by
  rw [readMember, readString]
  cases hskip : skip text with
  | nil => rfl
  | cons c others =>
    have hc := h c (by rw [hskip]; rfl)
    rw [hc]
    rfl

/-- Members between commas. -/
lemma reads_object {members : List (String × Json)} (h : List.Forall₂ Binds texts members)
    (hne : texts ≠ []) (hblanks : ∀ c ∈ blanks, isBlank c = true) :
    Reads ('\x7b' :: ([','].intercalate texts ++ (blanks ++ ['\x7d']))) (.object members) := by
  intro fuel hfuel rest _
  cases fuel with
  | zero => cases hfuel
  | succ fuel =>
    have hmembers : List.Forall₂ (fun text bound => ∀ fuel, text.length ≤ fuel →
        ReadsBy (readMember (readValue fuel)) text bound) texts members :=
      h.imp fun _ _ hbinds => hbinds.readsBy
    have hbetween := @readBetween_family _ blanks rest texts
      (fun fuel => readMember (readValue fuel)) '\x7d' members hmembers hne hblanks (Or.inr rfl)
      (fun _ _ => readMember_none) fuel (Nat.le_of_succ_le_succ hfuel)
    rw [List.cons_append, List.append_assoc, List.append_assoc, List.singleton_append, readValue,
      skip_cons (by decide)]
    dsimp only
    rw [if_neg (by decide), if_neg (by decide), if_pos rfl, hbetween]
    rfl

/-- All of a text that denotes a value is read, and what is blank behind it. -/
theorem read_of_reads {text behind : String} {value : Json} (h : Reads text.toList value)
    (hblanks : ∀ c ∈ behind.toList, isBlank c = true) : read (text ++ behind) = some value := by
  have hends := @ends_blank behind.toList [] hblanks (by intro c hc; cases hc)
  have hskip := @skip_blank behind.toList [] hblanks
  rw [List.append_nil] at hends hskip
  have hread := h (text ++ behind).toList.length (by simp) behind.toList hends
  rw [← String.toList_append] at hread
  rw [read, hread]
  dsimp only
  rw [hskip]
  rfl

example : (read "[1, 02]").isNone = true := by decide

end Collections

end Rules
end Json
end Portcall
