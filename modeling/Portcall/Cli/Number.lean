import Portcall.Text
import Portcall.Library.Double

/-! `Number(text)` and `Math.round`: which number a text spells, and what is kept of it. -/
namespace Portcall.Cli

/-- What `Number(text)` can give. -/
inductive Number where
  | nan
  | infinity (negative : Bool)
  | finite (value : ℚ)
  deriving DecidableEq, Repr

namespace Number

def negate : Number → Number
  | .nan => .nan
  | .infinity negative => .infinity !negative
  | .finite value => .finite (-value)

/-- The text before the first character of a kind, and what follows that character. -/
def cutAt (kind : Char → Bool) : List Char → List Char × Option (List Char)
  | [] => ([], none)
  | c :: rest =>
    if kind c then ([], some rest)
    else ((c :: (cutAt kind rest).1), (cutAt kind rest).2)

def decimalDigits (text : List Char) : Option ℕ :=
  if text.isEmpty || !text.all Text.isDigit then none else some (Text.decimal text)

/-- The digits after `e`, with their sign. -/
def signedInteger : List Char → Option ℤ
  | '+' :: digits => (decimalDigits digits).map Int.ofNat
  | '-' :: digits => (decimalDigits digits).map fun n => -Int.ofNat n
  | digits => (decimalDigits digits).map Int.ofNat

/-- `n * 10 ^ exponent` -/
def scaled (n : ℕ) (exponent : ℤ) : ℚ :=
  mkRat (n * 10 ^ exponent.toNat) (10 ^ (-exponent).toNat)

/-- A decimal literal with no sign: `Infinity`, or digits with at most one point among or around
them, then at most one exponent. -/
def unsignedDecimal (text : List Char) : Option Number :=
  if text = ['I', 'n', 'f', 'i', 'n', 'i', 't', 'y'] then some (.infinity false)
  else
    let (mantissa, exponent) := cutAt (fun c => c = 'e' || c = 'E') text
    let (whole, fraction) := cutAt (fun c => c = '.') mantissa
    let fraction := fraction.getD []
    match decimalDigits (whole ++ fraction), exponent.elim (some 0) signedInteger with
    | some digits, some exponent => some (.finite (scaled digits (exponent - fraction.length)))
    | _, _ => none

/-- The value of a digit, letters from `a` on in either case. -/
def digitValue (c : Char) : ℕ :=
  if Text.isDigit c then c.toNat - '0'.toNat
  else if 'a' ≤ c.toLower && c.toLower ≤ 'z' then c.toLower.toNat - 'a'.toNat + 10
  else 36

def inRadix (radix : ℕ) (digits : List Char) : Option Number :=
  if digits.isEmpty || !digits.all (fun c => digitValue c < radix) then none
  else some (.finite (digits.foldl (fun total c => total * radix + digitValue c) 0 : ℕ))

/-- The radix a text names after its leading `0`. -/
def radixOf (c : Char) : Option ℕ :=
  match c.toLower with
  | 'x' => some 16
  | 'o' => some 8
  | 'b' => some 2
  | _ => none

/-- A number with nothing around it. -/
def literal : List Char → Option Number
  | [] => some (.finite 0)
  | '+' :: rest => unsignedDecimal rest
  | '-' :: rest => (unsignedDecimal rest).map negate
  | '0' :: c :: rest =>
    match radixOf c with
    | some radix => inRadix radix rest
    | none => unsignedDecimal ('0' :: c :: rest)
  | text => unsignedDecimal text

end Number

/-- The number a text spells. -/
def number (value : String) : Number :=
  (Number.literal (Text.trimChars value.toList)).getD .nan

/-- How a number is kept: as the closest double, or as it is. -/
inductive Precision where
  | double
  | exact
  deriving DecidableEq, Repr

namespace Precision

def keep : Precision → ℚ → ℚ
  | .double, x => closestDouble x
  | .exact, x => x

/-- `Number(value)`: what the text spells, as it is kept. What is beyond the largest double is
infinite. -/
def number (precision : Precision) (value : String) : Number :=
  match Cli.number value with
  | .finite x =>
    if precision = .double && (2 ^ 1024 : ℚ) ≤ |closestDouble x| then .infinity (x < 0)
    else .finite (precision.keep x)
  | other => other

end Precision

/-- `Math.round`: to the closest integer, halves up. -/
def mathRound (x : ℚ) : ℤ := ⌊x + 1 / 2⌋

example : number " 1.5e1\n" = .finite 15 ∧ number "0x1F" = .finite 31 ∧ number "1_000" = .nan := by
  decide +kernel

example : Precision.double.number "1e-400" = .finite 0 ∧
    Precision.double.number "3600.00000000000000001" = .finite 3600 ∧
    Precision.double.number "1e400" = .infinity false := by
  decide +kernel

namespace Number
variable {text : List Char}

lemma cutAt_eq_self {kind : Char → Bool} (h : ∀ c ∈ text, kind c = false) :
    cutAt kind text = (text, none) := by
  induction text with
  | nil => rfl
  | cons c rest ih =>
    rw [List.forall_mem_cons] at h
    rw [cutAt, h.1, ih h.2]
    rfl

lemma unsignedDecimal_digits (hne : text ≠ []) (h : ∀ c ∈ text, Text.isDigit c = true) :
    unsignedDecimal text = some (.finite (Text.decimal text)) := by
  have hother : ∀ {d : Char}, Text.isDigit d = false → ∀ c ∈ text, c ≠ d := by
    rintro d hd c hc rfl
    exact absurd (h c hc) (by rw [hd]; exact Bool.false_ne_true)
  have hword : text ≠ ['I', 'n', 'f', 'i', 'n', 'i', 't', 'y'] := by
    rintro rfl
    exact hother (d := 'I') (by decide) 'I' List.mem_cons_self rfl
  have hexponent : cutAt (fun c => c = 'e' || c = 'E') text = (text, none) :=
    cutAt_eq_self fun c hc => by
      simp [hother (d := 'e') (by decide) c hc, hother (d := 'E') (by decide) c hc]
  have hpoint : cutAt (fun c => c = '.') text = (text, none) :=
    cutAt_eq_self fun c hc => by simp [hother (d := '.') (by decide) c hc]
  have hdigits : decimalDigits text = some (Text.decimal text) := by
    rw [decimalDigits, List.isEmpty_eq_false_iff.mpr hne, List.all_eq_true.mpr h]
    rfl
  rw [unsignedDecimal, if_neg hword, hexponent]
  dsimp only
  rw [hpoint]
  simp [hdigits, scaled, Rat.mkRat_one]

/-- The letter that names a radix is no digit. -/
lemma radixOf_digit {c : Char} (h : Text.isDigit c = true) : radixOf c = none := by
  have hupper : ¬('A' ≤ c ∧ c ≤ 'Z') := by
    rintro ⟨hA, -⟩
    simp only [Text.isDigit, Bool.and_eq_true, decide_eq_true_eq] at h
    exact absurd (Char.le_trans hA h.2) (by decide)
  rw [radixOf, Text.toLower_of_not_upper hupper]
  split
  · exact absurd h (by decide)
  · exact absurd h (by decide)
  · exact absurd h (by decide)
  · rfl

/-- Digits are a literal of their own: no sign, and no radix after a leading zero. -/
lemma literal_digits (hne : text ≠ []) (h : ∀ c ∈ text, Text.isDigit c = true) :
    literal text = some (.finite (Text.decimal text)) := by
  rw [← unsignedDecimal_digits hne h]
  unfold literal
  split
  · exact absurd rfl hne
  · exact absurd (h '+' List.mem_cons_self) (by decide)
  · exact absurd (h '-' List.mem_cons_self) (by decide)
  · rename_i c rest
    rw [radixOf_digit (h c (List.mem_cons_of_mem _ List.mem_cons_self))]
  · rfl

end Number

/-- A number is read as it is written. -/
lemma number_toString (n : ℕ) : number (toString n) = .finite n := by
  have hdigits : ∀ c ∈ (toString n).toList, Text.isDigit c = true :=
    fun c => Text.isDigit_of_mem_toString
  have hspace : ∀ c ∈ (toString n).toList, Text.isWhitespace c = false := by
    intro c hc
    by_contra h
    have := Text.isDigit_eq_false_of_isWhitespace (Bool.not_eq_false _ ▸ h)
    rw [hdigits c hc] at this
    cases this
  rw [number, Text.trimChars_eq_self hspace, Number.literal_digits ?_ hdigits,
    Text.decimal_toString]
  · rfl
  · rw [Nat.toString_eq_repr, Nat.toList_repr]
    exact Nat.toDigits_ne_nil

lemma Precision.keep_natCast (precision : Precision) {n : ℕ} (h : n < 2 ^ 53) :
    precision.keep n = n := by
  cases precision with
  | double => exact closestDouble_natCast h
  | exact => rfl

/-- A whole number of at most 53 bits is kept as it is written. -/
lemma Precision.number_toString (precision : Precision) {n : ℕ} (h : n < 2 ^ 53) :
    precision.number (toString n) = .finite n := by
  have hle : (n : ℚ) < 2 ^ 1024 :=
    calc (n : ℚ) < ((2 ^ 53 : ℕ) : ℚ) := Nat.cast_lt.mpr h
      _ = 2 ^ 53 := by rw [Nat.cast_pow, Nat.cast_ofNat]
      _ ≤ 2 ^ 1024 := pow_le_pow_right₀ one_le_two (by decide)
  rw [Precision.number, Cli.number_toString]
  dsimp only
  rw [closestDouble_natCast h, abs_of_nonneg (Nat.cast_nonneg n), precision.keep_natCast h]
  simp [hle]

lemma mathRound_intCast (z : ℤ) : mathRound z = z := by
  rw [mathRound, Int.floor_eq_iff]
  constructor <;> linarith

lemma one_le_mathRound_iff {x : ℚ} : 1 ≤ mathRound x ↔ 1 / 2 ≤ x := by
  rw [mathRound, Int.le_floor]
  constructor
  · intro h
    push_cast at h
    linarith
  · intro h
    push_cast
    linarith

lemma mathRound_le {x : ℚ} {n : ℤ} (h : x ≤ n) : mathRound x ≤ n := by
  rw [mathRound, ← Int.lt_add_one_iff, Int.floor_lt]
  push_cast
  linarith

end Portcall.Cli
