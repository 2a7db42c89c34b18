import Mathlib.Algebra.Order.Floor.Ring
import Mathlib.Data.Nat.Log
import Mathlib.Data.Rat.Floor
import Mathlib.Tactic.Linarith

set_option autoImplicit false

/-!
# Ceilings of quotients

Of exact quotients of natural numbers, and of quotients rounded to a binary format.
-/

namespace Phaze.Ceilings

variable {number divisor limit : ℕ}

theorem ceil_div_le_iff (positive : 0 < divisor) :
    ⌈(number : ℚ) / divisor⌉₊ ≤ limit ↔ number ≤ limit * divisor := by
  have divides : (0 : ℚ) < divisor := by exact_mod_cast positive
  rw [Nat.ceil_le, div_le_iff₀ divides]
  exact_mod_cast Iff.rfl

theorem ceil_div_le_comm (positive : 0 < divisor) (limited : 0 < limit) :
    ⌈(number : ℚ) / divisor⌉₊ ≤ limit ↔ ⌈(number : ℚ) / limit⌉₊ ≤ divisor := by
  rw [ceil_div_le_iff positive, ceil_div_le_iff limited, Nat.mul_comm]

/-! ## Rounded quotients -/

-- Rounding, in any direction, to a format that has every `mantissa / 2 ^ shift` within its bounds.
structure Rounding (digits range : ℕ) where
  round : ℚ → ℚ
  monotone : Monotone round
  exact : ∀ mantissa shift : ℕ, mantissa ≤ 2 ^ digits → shift ≤ range →
    round (mantissa / 2 ^ shift) = mantissa / 2 ^ shift

section Rounded

variable {digits range : ℕ} (rounding : Rounding digits range)

theorem Rounding.natCast (value : ℕ) (short : value ≤ 2 ^ digits) : rounding.round value = value := by
  simpa using rounding.exact value 0 short (Nat.zero_le range)

theorem pow_clog_lt (positive : 0 < divisor) : 2 ^ Nat.clog 2 divisor < 2 * divisor := by
  by_cases one : divisor = 1
  next => simp [one]
  next =>
    have below := Nat.pow_pred_clog_lt_self (b := 2) (by norm_num) (x := divisor) (by omega)
    have started := Nat.clog_pos (b := 2) (by norm_num) (n := divisor) (by omega)
    calc 2 ^ Nat.clog 2 divisor = 2 * 2 ^ (Nat.clog 2 divisor).pred := by
          rw [← Nat.pow_succ', Nat.succ_pred_eq_of_pos started]
      _ < 2 * divisor := by omega

-- Above a natural number and up to a larger quotient there is a number of the format.
theorem exists_between {whole : ℕ} (below : whole * divisor < number)
    (positive : 0 < divisor) (short : 2 * number ≤ 2 ^ digits) (reach : divisor ≤ 2 ^ range) :
    ∃ mantissa shift : ℕ, mantissa ≤ 2 ^ digits ∧ shift ≤ range ∧
      (whole : ℚ) < mantissa / 2 ^ shift ∧ (mantissa : ℚ) / 2 ^ shift ≤ number / divisor := by
  have covers := Nat.le_pow_clog (b := 2) (by norm_num) divisor
  have tight := pow_clog_lt positive
  refine ⟨whole * 2 ^ Nat.clog 2 divisor + 1, Nat.clog 2 divisor, ?_, Nat.clog_le_of_le_pow reach, ?_, ?_⟩
  · have double : whole * 2 ^ Nat.clog 2 divisor ≤ whole * (2 * divisor) := Nat.mul_le_mul_left whole tight.le
    linarith
  · rw [lt_div_iff₀ (by positivity)]
    push_cast
    linarith
  · rw [div_le_div_iff₀ (by positivity) (by exact_mod_cast positive)]
    have least : (whole * divisor + 1) * 2 ^ Nat.clog 2 divisor ≤ number * 2 ^ Nat.clog 2 divisor :=
      Nat.mul_le_mul_right _ below
    have scaled : (whole * 2 ^ Nat.clog 2 divisor + 1) * divisor ≤ number * 2 ^ Nat.clog 2 divisor := by linarith
    exact_mod_cast scaled

theorem ceil_round_div (positive : 0 < divisor) (short : 2 * number ≤ 2 ^ digits) (reach : divisor ≤ 2 ^ range) :
    ⌈rounding.round (number / divisor)⌉₊ = ⌈(number : ℚ) / divisor⌉₊ := by
  apply le_antisymm
  · have bound : ⌈(number : ℚ) / divisor⌉₊ ≤ number :=
      (ceil_div_le_iff positive).mpr (Nat.le_mul_of_pos_right number positive)
    have fixed := rounding.natCast ⌈(number : ℚ) / divisor⌉₊ (by omega)
    rw [Nat.ceil_le, ← fixed]
    exact rounding.monotone (Nat.le_ceil _)
  · by_contra below
    rw [ceil_div_le_iff positive, Nat.not_le] at below
    obtain ⟨mantissa, shift, fits, within, above, upTo⟩ := exists_between below positive short reach
    have kept := rounding.monotone upTo
    rw [rounding.exact mantissa shift fits within] at kept
    exact absurd (Nat.le_ceil _) (not_le.mpr (above.trans_le kept))

-- However far the divisor is beyond the range of the format.
theorem ceil_round_div_le_one (small : number ≤ divisor) : ⌈rounding.round (number / divisor)⌉₊ ≤ 1 := by
  have atMost : (number : ℚ) / divisor ≤ 1 := div_le_one_of_le₀ (by exact_mod_cast small) (by positivity)
  have fixed := rounding.natCast 1 Nat.one_le_two_pow
  rw [Nat.cast_one] at fixed
  rw [Nat.ceil_le, Nat.cast_one, ← fixed]
  exact rounding.monotone atMost

theorem max_one_ceil_round_div (positive : 0 < divisor) (short : 2 * number ≤ 2 ^ digits) (reach : number ≤ 2 ^ range) :
    max 1 ⌈rounding.round (number / divisor)⌉₊ = max 1 ⌈(number : ℚ) / divisor⌉₊ := by
  by_cases small : number ≤ divisor
  next =>
    have exact_ : ⌈(number : ℚ) / divisor⌉₊ ≤ 1 := (ceil_div_le_iff positive).mpr (by omega)
    rw [max_eq_left (ceil_round_div_le_one rounding small), max_eq_left exact_]
  next => rw [ceil_round_div rounding positive short (by omega)]

end Rounded

end Phaze.Ceilings
