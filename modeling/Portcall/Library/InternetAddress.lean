import Mathlib.Data.List.Forall2
import Mathlib.Data.Nat.Bitwise
import Mathlib.Data.Nat.Digits.Defs
import Mathlib.Tactic.IntervalCases
import Portcall.Library.Delimited

/-! Textual internet addresses: dotted quads, the textual forms of a 128-bit address, the value
each of them spells, and the blocks of values that share a prefix. -/
namespace Portcall.InternetAddress

section Numerals

def hexDigits : List Char := "0123456789abcdef".toList

/-- The value of a hexadecimal digit of either case. -/
def digitValue (c : Char) : ℕ := hexDigits.idxOf c.toLower

/-- One to four hexadecimal digits, and the number they are. -/
structure Group (text : List Char) (value : ℕ) : Prop where
  digits : ∀ c ∈ text, c.toLower ∈ hexDigits
  ne_nil : text ≠ []
  length_le : text.length ≤ 4
  value_eq : value = Nat.ofDigits 16 (text.reverse.map digitValue)

variable {text : List Char} {value n : ℕ}

lemma digitValue_lt {c : Char} (h : c.toLower ∈ hexDigits) : digitValue c < 16 :=
  List.idxOf_lt_length_iff.mpr h

lemma Group.lt (h : Group text value) : value < 65536 := by
  have hlt : value < 16 ^ text.length := by
    rw [h.value_eq]
    have hdigits : ∀ d ∈ text.reverse.map digitValue, d < 16 := by
      intro d hd
      obtain ⟨c, hc, rfl⟩ := List.mem_map.mp hd
      exact digitValue_lt (h.digits c (List.mem_reverse.mp hc))
    simpa using Nat.ofDigits_lt_base_pow_length (by decide) hdigits
  exact hlt.trans_le (Nat.pow_le_pow_right (by decide) h.length_le)

lemma Group.not_mem {c : Char} (h : Group text value) (hc : c.toLower ∉ hexDigits) : c ∉ text :=
  fun hm => hc (h.digits c hm)

private lemma digitChar_spec {d : ℕ} (h : d < 16) :
    d.digitChar.toLower ∈ hexDigits ∧ digitValue d.digitChar = d := by
  revert d
  decide

/-- The numeral of a number is made of digits and has its value. -/
private lemma toDigits_spec (n : ℕ) :
    (∀ c ∈ Nat.toDigits 16 n, c.toLower ∈ hexDigits) ∧
      Nat.ofDigits 16 ((Nat.toDigits 16 n).reverse.map digitValue) = n := by
  induction n using Nat.strong_induction_on with
  | h n ih =>
    by_cases hn : n < 16
    · rw [Nat.toDigits_of_lt_base hn]
      obtain ⟨hmem, hvalue⟩ := digitChar_spec hn
      exact ⟨by simpa using hmem, by simpa using hvalue⟩
    · obtain ⟨ihmem, ihvalue⟩ := ih (n / 16) (by omega)
      obtain ⟨hmem, hvalue⟩ := digitChar_spec (Nat.mod_lt n (by decide : 16 > 0))
      rw [Nat.toDigits_of_base_le (by decide) (not_lt.mp hn)]
      constructor
      · intro c hc
        rcases List.mem_append.mp hc with hc | hc
        · exact ihmem c hc
        · exact List.mem_singleton.mp hc ▸ hmem
      · rw [List.reverse_append, List.reverse_singleton, List.singleton_append, List.map_cons,
          Nat.ofDigits_cons, ihvalue, hvalue]
        exact Nat.mod_add_div n 16

/-- A number of sixteen bits is a group, written as a numeral. -/
lemma group_toDigits (h : n < 65536) : Group (Nat.toDigits 16 n) n where
  digits := (toDigits_spec n).1
  ne_nil := List.ne_nil_of_length_pos Nat.length_toDigits_pos
  length_le := (Nat.length_toDigits_le_iff (by decide) (by decide)).mpr h
  value_eq := (toDigits_spec n).2.symm

end Numerals

/-- Four decimal numerals up to 255 between dots, and the number of 32 bits they are. -/
inductive DottedQuad : List Char → ℕ → Prop where
  | mk {a b c d : ℕ} (ha : a ≤ 255) (hb : b ≤ 255) (hc : c ≤ 255) (hd : d ≤ 255) :
      DottedQuad (['.'].intercalate ([a, b, c, d].map (Nat.toDigits 10)))
        (((a * 256 + b) * 256 + c) * 256 + d)

/-- Groups in a row; a dotted quad may stand for the last two. -/
inductive Pieces : List (List Char) → List ℕ → Prop where
  | groups {tokens : List (List Char)} {values : List ℕ} (h : List.Forall₂ Group tokens values) :
      Pieces tokens values
  | quad {tokens : List (List Char)} {values : List ℕ} {text : List Char} {value : ℕ}
      (h : List.Forall₂ Group tokens values) (hquad : DottedQuad text value) :
      Pieces (tokens ++ [text]) (values ++ [value / 65536, value % 65536])

/-- Eight groups between colons, or fewer with `::` in the place of those that are zero. -/
inductive Ipv6Text : List Char → List ℕ → Prop where
  | full {tokens : List (List Char)} {values : List ℕ} (h : Pieces tokens values)
      (hlength : values.length = 8) : Ipv6Text ([':'].intercalate tokens) values
  | elided {head tail : List (List Char)} {before after : List ℕ}
      (hhead : List.Forall₂ Group head before) (htail : Pieces tail after)
      (hlength : before.length + after.length ≤ 7) :
      Ipv6Text ([':'].intercalate head ++ ':' :: ':' :: [':'].intercalate tail)
        (before ++ List.replicate (8 - before.length - after.length) 0 ++ after)

/-- The number eight groups are. -/
def groupsValue (groups : List ℕ) : ℕ := Nat.ofDigits 65536 groups.reverse

/-- The 128-bit value of a 32-bit address: the one it is mapped to. -/
def mapped (value : ℕ) : ℕ := 0xffff * 2 ^ 32 + value

/-- The text is a way to write the 128-bit value. -/
inductive Spells : List Char → ℕ → Prop where
  | quad {text : List Char} {value : ℕ} (h : DottedQuad text value) : Spells text (mapped value)
  | groups {text : List Char} {groups : List ℕ} (h : Ipv6Text text groups) :
      Spells text (groupsValue groups)

/-- The values that share their first bits with `base`. -/
structure Block where
  base : ℕ
  bits : ℕ
  deriving DecidableEq, Repr

def Block.Holds (block : Block) (value : ℕ) : Prop :=
  value / 2 ^ (128 - block.bits) = block.base / 2 ^ (128 - block.bits)

instance (block : Block) (value : ℕ) : Decidable (block.Holds value) :=
  inferInstanceAs (Decidable (_ = _))

section Characters
variable {text : List Char} {value : ℕ}

lemma DottedQuad.mem (h : DottedQuad text value) {c : Char} (hc : c ∈ text) :
    c = '.' ∨ c.isDigit = true := by
  obtain ⟨ha, hb, hc', hd⟩ := h
  obtain rfl | ⟨token, hm, hc⟩ := Delimited.mem_intercalate hc
  · exact Or.inl rfl
  · obtain ⟨n, -, rfl⟩ := List.mem_map.mp hm
    exact Or.inr (Nat.isDigit_of_mem_toDigits (by decide) (by decide) hc)

lemma DottedQuad.dot_mem (h : DottedQuad text value) : '.' ∈ text := by
  obtain ⟨ha, hb, hc, hd⟩ := h
  simp

lemma DottedQuad.lt (h : DottedQuad text value) : value < 2 ^ 32 := by
  obtain ⟨ha, hb, hc, hd⟩ := h
  omega

lemma not_mem_of_forall₂ {c : Char} {tokens : List (List Char)} {values : List ℕ}
    (h : List.Forall₂ Group tokens values) (hc : c.toLower ∉ hexDigits) :
    ∀ token ∈ tokens, c ∉ token := by
  induction h with
  | nil => simp
  | cons hgroup _ ih =>
    intro token hm
    rcases List.mem_cons.mp hm with rfl | hm
    · exact hgroup.not_mem hc
    · exact ih token hm

/-- A character of neither notation is in no piece. -/
lemma Pieces.not_mem {tokens : List (List Char)} {values : List ℕ} {c : Char}
    (h : Pieces tokens values) (hdot : c ≠ '.') (hdigit : ¬c.isDigit = true)
    (hhex : c.toLower ∉ hexDigits) : ∀ token ∈ tokens, c ∉ token := by
  intro token hm
  cases h with
  | groups h => exact not_mem_of_forall₂ h hhex token hm
  | quad h hquad =>
    rcases List.mem_append.mp hm with hm | hm
    · exact not_mem_of_forall₂ h hhex token hm
    · rw [List.mem_singleton.mp hm]
      intro hc
      exact (hquad.mem hc).elim hdot hdigit

/-- No spelling holds a percent sign, which is what a zone would follow. -/
theorem Spells.percent_not_mem (h : Spells text value) : '%' ∉ text := by
  have hjoin : ∀ {tokens : List (List Char)}, (∀ token ∈ tokens, '%' ∉ token) →
      '%' ∉ [':'].intercalate tokens := by
    intro tokens htokens hm
    obtain hc | ⟨token, ht, hc⟩ := Delimited.mem_intercalate hm
    · exact absurd hc (by decide)
    · exact htokens token ht hc
  cases h with
  | quad h =>
    intro hm
    rcases h.mem hm with hc | hc <;> exact absurd hc (by decide)
  | groups h =>
    cases h with
    | full h _ => exact hjoin (h.not_mem (by decide) (by decide) (by decide))
    | elided hhead htail _ =>
      have hbefore := hjoin (not_mem_of_forall₂ hhead (by decide))
      have hafter := hjoin (htail.not_mem (by decide) (by decide) (by decide))
      simp [hbefore, hafter]

end Characters

section Shape
variable {text : List Char} {groups : List ℕ}

lemma Pieces.lt {tokens : List (List Char)} {values : List ℕ} (h : Pieces tokens values) :
    ∀ value ∈ values, value < 65536 := by
  have hgroups : ∀ {tokens : List (List Char)} {values : List ℕ}, List.Forall₂ Group tokens values →
      ∀ value ∈ values, value < 65536 := by
    intro tokens values h
    induction h with
    | nil => simp
    | cons hgroup _ ih => exact List.forall_mem_cons.mpr ⟨hgroup.lt, ih⟩
  cases h with
  | groups h => exact hgroups h
  | @quad _ values _ value h hquad =>
    have hlt := hquad.lt
    intro part hm
    simp only [List.mem_append, List.mem_cons, List.not_mem_nil, or_false] at hm
    rcases hm with hm | rfl | rfl
    · exact hgroups h part hm
    · omega
    · omega

/-- There are eight groups, each of sixteen bits. -/
theorem Ipv6Text.shape (h : Ipv6Text text groups) :
    groups.length = 8 ∧ ∀ value ∈ groups, value < 65536 := by
  cases h with
  | full h hlength => exact ⟨hlength, h.lt⟩
  | elided hhead htail hlength =>
    have hbefore := (Pieces.groups hhead).lt
    constructor
    · simp only [List.length_append, List.length_replicate]
      omega
    · intro value hm
      simp only [List.mem_append, List.mem_replicate] at hm
      rcases hm with (hm | ⟨-, rfl⟩) | hm
      · exact hbefore value hm
      · decide
      · exact htail.lt value hm

lemma Pieces.length_le {tokens : List (List Char)} {values : List ℕ} (h : Pieces tokens values) :
    values.length ≤ tokens.length + 1 := by
  cases h with
  | groups h =>
    have hlength := h.length_eq
    omega
  | quad h hquad =>
    have hlength := h.length_eq
    simp only [List.length_append, List.length_cons, List.length_nil]
    omega

/-- A colon tells the two notations apart. -/
theorem Ipv6Text.colon_mem (h : Ipv6Text text groups) : ':' ∈ text := by
  cases h with
  | @full tokens _ h hlength =>
    have hle := h.length_le
    match tokens with
    | [] | [_] => simp only [List.length_cons, List.length_nil] at hle; omega
    | first :: second :: rest =>
      rw [List.intercalate_cons_cons]
      simp
  | elided hhead htail hlength => simp

lemma DottedQuad.colon_not_mem {value : ℕ} (h : DottedQuad text value) : ':' ∉ text :=
  fun hm => (h.mem hm).elim (by decide) (by decide)

end Shape
section Masks
variable {k : ℕ}

/-- A masked number is masked part by part. -/
lemma land_two_pow (high high' : ℕ) {low low' : ℕ} (hlow : low < 2 ^ k) (hlow' : low' < 2 ^ k) :
    (2 ^ k * high + low) &&& (2 ^ k * high' + low') =
      2 ^ k * (high &&& high') + (low &&& low') := by
  have hland : low &&& low' < 2 ^ k := Nat.and_lt_two_pow _ hlow'
  apply Nat.eq_of_testBit_eq
  intro i
  rw [Nat.testBit_land, Nat.testBit_two_pow_mul_add _ hlow, Nat.testBit_two_pow_mul_add _ hlow',
    Nat.testBit_two_pow_mul_add _ hland]
  split_ifs <;> simp

/-- The number whose first bits are set, out of thirty-two. -/
def prefixMask (bits : ℕ) : ℕ := 2 ^ 32 - 2 ^ (32 - bits)

/-- Such a mask keeps what is in front of the bits it does not set. -/
lemma land_prefixMask {bits value : ℕ} (hvalue : value < 2 ^ 32) (hbits : bits ≤ 32) :
    value &&& prefixMask bits = 2 ^ (32 - bits) * (value / 2 ^ (32 - bits)) := by
  have hmask : prefixMask bits = 2 ^ (32 - bits) * (2 ^ bits - 1) + 0 := by
    rw [prefixMask, Nat.mul_sub, ← Nat.pow_add, Nat.sub_add_cancel hbits, mul_one, add_zero]
  have hquotient : value / 2 ^ (32 - bits) < 2 ^ bits := by
    rw [Nat.div_lt_iff_lt_mul (Nat.two_pow_pos _), ← Nat.pow_add, Nat.add_sub_cancel' hbits]
    exact hvalue
  have hparts := @land_two_pow (32 - bits) (value / 2 ^ (32 - bits)) (2 ^ bits - 1) _ 0
    (Nat.mod_lt value (Nat.two_pow_pos _)) (Nat.two_pow_pos _)
  rw [Nat.div_add_mod, ← hmask, Nat.and_two_pow_sub_one_eq_mod, Nat.mod_eq_of_lt hquotient,
    Nat.and_zero, add_zero] at hparts
  exact hparts

/-- Two numbers agree under such a mask when they share their first bits. -/
lemma land_prefixMask_inj {bits value value' : ℕ} (hvalue : value < 2 ^ 32)
    (hvalue' : value' < 2 ^ 32) (hbits : bits ≤ 32) :
    value &&& prefixMask bits = value' &&& prefixMask bits ↔
      value / 2 ^ (32 - bits) = value' / 2 ^ (32 - bits) := by
  rw [land_prefixMask hvalue hbits, land_prefixMask hvalue' hbits]
  exact Nat.mul_right_inj (Nat.two_pow_pos _).ne'

end Masks

end Portcall.InternetAddress
