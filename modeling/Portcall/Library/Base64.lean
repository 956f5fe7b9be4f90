import Mathlib.Data.List.Sort

/-! Standard base64 with padding, and the round trip that makes an encoding an identity key. -/
namespace Portcall.Base64

/-- The character of one six-bit digit. -/
def digit (n : ℕ) : Char :=
  if n < 26 then Char.ofNat (65 + n)
  else if n < 52 then Char.ofNat (71 + n)
  else if n < 62 then Char.ofNat (n - 4)
  else if n = 62 then '+'
  else '/'

/-- The six bits a character stands for; padding and foreign characters read as zero. -/
def value (c : Char) : ℕ :=
  let n := c.toNat
  if 65 ≤ n ∧ n ≤ 90 then n - 65
  else if 97 ≤ n ∧ n ≤ 122 then n - 71
  else if 48 ≤ n ∧ n ≤ 57 then n + 4
  else if c = '+' then 62
  else if c = '/' then 63
  else 0

lemma value_digit {n : ℕ} (h : n < 64) : value (digit n) = n := by
  have hall : ∀ m : Fin 64, value (digit m.val) = m.val := by decide
  exact hall ⟨n, h⟩

lemma digit_ne_pad {n : ℕ} (h : n < 64) : digit n ≠ '=' := by
  have hall : ∀ m : Fin 64, digit m.val ≠ '=' := by decide
  exact hall ⟨n, h⟩

def encode : List UInt8 → List Char
  | [] => []
  | [a] => [digit (a.toNat / 4), digit (a.toNat % 4 * 16), '=', '=']
  | [a, b] =>
    [digit (a.toNat / 4), digit (a.toNat % 4 * 16 + b.toNat / 16), digit (b.toNat % 16 * 4), '=']
  | a :: b :: c :: rest =>
    digit (a.toNat / 4) :: digit (a.toNat % 4 * 16 + b.toNat / 16) ::
      digit (b.toNat % 16 * 4 + c.toNat / 64) :: digit (c.toNat % 64) :: encode rest

/-- An encoding is made of digits and padding. -/
lemma mem_encode {bytes : List UInt8} {c : Char} (h : c ∈ encode bytes) :
    c = '=' ∨ ∃ n < 64, digit n = c := by
  fun_induction encode bytes with
  | case1 => exact absurd h List.not_mem_nil
  | case2 a =>
    have ha := a.toNat_lt
    simp only [List.mem_cons, List.not_mem_nil, or_false] at h
    rcases h with rfl | rfl | rfl | rfl
    · exact Or.inr ⟨_, by omega, rfl⟩
    · exact Or.inr ⟨_, by omega, rfl⟩
    · exact Or.inl rfl
    · exact Or.inl rfl
  | case3 a b =>
    have ha := a.toNat_lt
    have hb := b.toNat_lt
    simp only [List.mem_cons, List.not_mem_nil, or_false] at h
    rcases h with rfl | rfl | rfl | rfl
    · exact Or.inr ⟨_, by omega, rfl⟩
    · exact Or.inr ⟨_, by omega, rfl⟩
    · exact Or.inr ⟨_, by omega, rfl⟩
    · exact Or.inl rfl
  | case4 a b c rest ih =>
    have ha := a.toNat_lt
    have hb := b.toNat_lt
    have hc := c.toNat_lt
    simp only [List.mem_cons] at h
    rcases h with rfl | rfl | rfl | rfl | h
    · exact Or.inr ⟨_, by omega, rfl⟩
    · exact Or.inr ⟨_, by omega, rfl⟩
    · exact Or.inr ⟨_, by omega, rfl⟩
    · exact Or.inr ⟨_, by omega, rfl⟩
    · exact ih h

/-- Every quantum is complete. -/
lemma length_encode_mod (bytes : List UInt8) : (encode bytes).length % 4 = 0 := by
  fun_induction encode bytes with
  | case1 => rfl
  | case2 => simp
  | case3 => simp
  | case4 a b c rest ih =>
    simp only [List.length_cons]
    omega

/-- An encoding is digits, then padding. -/
lemma exists_encode (bytes : List UInt8) : ∃ digits pad, encode bytes = digits ++ pad ∧
    (bytes ≠ [] → digits ≠ []) ∧ (∀ c ∈ digits, ∃ n < 64, digit n = c) ∧
      pad ∈ [[], ['='], ['=', '=']] := by
  fun_induction encode bytes with
  | case1 => exact ⟨[], [], rfl, absurd rfl, by simp, by simp⟩
  | case2 a =>
    have ha := a.toNat_lt
    refine ⟨[_, _], ['=', '='], rfl, fun _ => List.cons_ne_nil _ _, ?_, by simp⟩
    simp only [List.forall_mem_cons, List.not_mem_nil, false_implies, implies_true, and_true]
    exact ⟨⟨_, by omega, rfl⟩, _, by omega, rfl⟩
  | case3 a b =>
    have ha := a.toNat_lt
    have hb := b.toNat_lt
    refine ⟨[_, _, _], ['='], rfl, fun _ => List.cons_ne_nil _ _, ?_, by simp⟩
    simp only [List.forall_mem_cons, List.not_mem_nil, false_implies, implies_true, and_true]
    exact ⟨⟨_, by omega, rfl⟩, ⟨_, by omega, rfl⟩, _, by omega, rfl⟩
  | case4 a b c rest ih =>
    have ha := a.toNat_lt
    have hb := b.toNat_lt
    have hc := c.toNat_lt
    obtain ⟨digits, pad, he, -, hdigits, hpad⟩ := ih
    refine ⟨_ :: _ :: _ :: _ :: digits, pad, by rw [he]; rfl, fun _ => List.cons_ne_nil _ _, ?_,
      hpad⟩
    simp only [List.forall_mem_cons]
    exact ⟨⟨_, by omega, rfl⟩, ⟨_, by omega, rfl⟩, ⟨_, by omega, rfl⟩, ⟨_, by omega, rfl⟩, hdigits⟩

/-- Decode complete quanta; the bits a padded quantum leaves over are dropped. -/
def decode : List Char → List UInt8
  | a :: b :: c :: d :: rest =>
    if c = '=' then [UInt8.ofNat (value a * 4 + value b / 16)]
    else if d = '=' then
      [UInt8.ofNat (value a * 4 + value b / 16), UInt8.ofNat (value b % 16 * 16 + value c / 4)]
    else
      UInt8.ofNat (value a * 4 + value b / 16) ::
        UInt8.ofNat (value b % 16 * 16 + value c / 4) ::
        UInt8.ofNat (value c % 4 * 64 + value d) :: decode rest
  | _ => []

/-- The first byte is in the first two digits. -/
lemma head?_decode (a b c d : Char) (rest : List Char) :
    (decode (a :: b :: c :: d :: rest)).head? =
      some (UInt8.ofNat (value a * 4 + value b / 16)) := by
  rw [decode]
  split_ifs <;> rfl

private lemma ofNat_eq {a : UInt8} {n : ℕ} (h : n = a.toNat) : UInt8.ofNat n = a := by
  rw [h, UInt8.ofNat_toNat]

theorem decode_encode (bytes : List UInt8) : decode (encode bytes) = bytes := by
  fun_induction encode bytes with
  | case1 => rfl
  | case2 a =>
    have ha := a.toNat_lt
    simp only [decode, if_true]
    rw [value_digit (by omega), value_digit (by omega)]
    rw [ofNat_eq (a := a) (by omega)]
  | case3 a b =>
    have ha := a.toNat_lt
    have hb := b.toNat_lt
    simp only [decode, digit_ne_pad (show b.toNat % 16 * 4 < 64 by omega), if_true, if_false]
    rw [value_digit (by omega), value_digit (by omega), value_digit (by omega)]
    rw [ofNat_eq (a := a) (by omega), ofNat_eq (a := b) (by omega)]
  | case4 a b c rest ih =>
    have ha := a.toNat_lt
    have hb := b.toNat_lt
    have hc := c.toNat_lt
    simp only [decode, digit_ne_pad (show b.toNat % 16 * 4 + c.toNat / 64 < 64 by omega),
      digit_ne_pad (show c.toNat % 64 < 64 by omega), if_false, ih]
    rw [value_digit (by omega), value_digit (by omega), value_digit (by omega),
      value_digit (by omega)]
    rw [ofNat_eq (a := a) (by omega), ofNat_eq (a := b) (by omega), ofNat_eq (a := c) (by omega)]

theorem encode_injective : Function.Injective encode :=
  Function.LeftInverse.injective decode_encode

end Portcall.Base64
