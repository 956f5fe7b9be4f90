import Mathlib.Data.Int.Log
import Mathlib.Data.Rat.Floor

/-! Rounding to a double: 53 bits, the even neighbour where two are as close. -/
namespace Portcall

/-- The closest integer, the even one where two are as close. -/
def roundEven (x : ℚ) : ℤ :=
  let below := ⌊x⌋
  if x - below < 1 / 2 then below
  else if 1 / 2 < x - below then below + 1
  else below + below % 2

/-- The double closest to a number; the largest exponent is left out. -/
def closestDouble (x : ℚ) : ℚ :=
  let quantum : ℚ := 2 ^ (max (Int.log 2 |x|) (-1022) - 52)
  roundEven (x / quantum) * quantum

example : closestDouble (255 + 1 / 10 ^ 20) = 255 ∧ closestDouble (1 / 10 ^ 400) = 0 := by
  decide +kernel

lemma roundEven_intCast (n : ℤ) : roundEven n = n := by
  simp [roundEven]

/-- A whole number of at most 53 bits is a double. -/
theorem closestDouble_natCast {n : ℕ} (h : n < 2 ^ 53) : closestDouble n = n := by
  have hlog : max (Int.log 2 |(n : ℚ)|) (-1022) ≤ 52 := by
    rw [abs_of_nonneg (Nat.cast_nonneg n), Int.log_natCast]
    refine max_le ?_ (by decide)
    have hlt : Nat.log 2 n < 53 := by
      cases n with
      | zero => simp
      | succ n => exact Nat.log_lt_of_lt_pow (by omega) h
    omega
  obtain ⟨k, hk⟩ : ∃ k : ℕ, max (Int.log 2 |(n : ℚ)|) (-1022) - 52 = -(k : ℤ) :=
    ⟨(52 - max (Int.log 2 |(n : ℚ)|) (-1022)).toNat, by omega⟩
  -- The quantum divides one, so that many of it make a whole number.
  have hwhole : (n : ℚ) / 2 ^ (-(k : ℤ)) = ((n * 2 ^ k : ℕ) : ℤ) := by
    rw [zpow_neg, div_inv_eq_mul, zpow_natCast]
    push_cast
    rfl
  unfold closestDouble
  dsimp only
  rw [hk, hwhole, roundEven_intCast, ← hwhole]
  exact div_mul_cancel₀ _ (zpow_ne_zero _ two_ne_zero)

end Portcall
