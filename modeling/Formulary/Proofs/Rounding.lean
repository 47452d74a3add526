import Formulary.Decimal.Rational
import Mathlib

/-!
Rounding to 53 bits, of rational numbers that a mantissa and the bits shifted out of it stand for.
-/

namespace Formulary.Binary

open Float.Model
open Float.Model.UnpackedFloat
open Float.Model.Format (binary64)

/-- What a mantissa stands for together with the bits that were shifted out of it. -/
def Stands (extended : ExtendedMantissa) (x : ℚ) : Prop :=
  match extended.roundBit, extended.stickyBit with
  | false, false => x = extended.mantissa
  | false, true => (extended.mantissa : ℚ) < x ∧ x < extended.mantissa + 1 / 2
  | true, false => x = extended.mantissa + 1 / 2
  | true, true => (extended.mantissa : ℚ) + 1 / 2 < x ∧ x < extended.mantissa + 1

section Stands

variable {extended : ExtendedMantissa} {x : ℚ}

theorem Stands.bounds (stands : Stands extended x) :
    (extended.mantissa : ℚ) ≤ x ∧ x < extended.mantissa + 1 := by
  obtain ⟨mantissa, round, sticky⟩ := extended
  cases round <;> cases sticky <;> simp only [Stands] at stands ⊢ <;> constructor <;> linarith

theorem Stands.shiftRightOne (stands : Stands extended x) :
    Stands extended.shiftRightOne (x / 2) := by
  obtain ⟨mantissa, round, sticky⟩ := extended
  have split : ((mantissa % 2 : Nat) : ℚ) + 2 * ((mantissa / 2 : Nat) : ℚ) = mantissa := by
    exact_mod_cast Nat.mod_add_div mantissa 2
  -- The last bit of the mantissa becomes the round bit.
  rcases Nat.mod_two_eq_zero_or_one mantissa with parity | parity
  · have bit : (mantissa % 2 != 0) = false := by rw [parity]; rfl
    rw [parity, Nat.cast_zero] at split
    cases round <;> cases sticky <;>
      simp only [Stands, ExtendedMantissa.shiftRightOne, bit, Bool.or_false, Bool.or_true,
        Bool.or_self] at stands ⊢ <;> (try constructor) <;> linarith
  · have bit : (mantissa % 2 != 0) = true := by rw [parity]; rfl
    rw [parity, Nat.cast_one] at split
    cases round <;> cases sticky <;>
      simp only [Stands, ExtendedMantissa.shiftRightOne, bit, Bool.or_false, Bool.or_true,
        Bool.or_self] at stands ⊢ <;> (try constructor) <;> linarith

theorem Stands.shiftRight (stands : Stands extended x) (count : Nat) :
    Stands (extended >>> count) (x / 2 ^ count) := by
  change Stands (count.repeat ExtendedMantissa.shiftRightOne extended) _
  induction count with
  | zero => simpa [Nat.repeat] using stands
  | succ count ih =>
      have next := ih.shiftRightOne
      rwa [div_div, ← pow_succ] at next

theorem mantissa_shiftRight (extended : ExtendedMantissa) (count : Nat) :
    (extended >>> count).mantissa = extended.mantissa / 2 ^ count := by
  change (count.repeat ExtendedMantissa.shiftRightOne extended).mantissa = _
  induction count with
  | zero => simp [Nat.repeat]
  | succ count ih =>
      change (count.repeat ExtendedMantissa.shiftRightOne extended).mantissa / 2 = _
      rw [ih, Nat.div_div_eq_div_mul, pow_succ]

theorem roundedMantissa_bounds (extended : ExtendedMantissa) :
    extended.mantissa ≤ extended.roundedMantissa ∧
      extended.roundedMantissa ≤ extended.mantissa + 1 := by
  obtain ⟨mantissa, round, sticky⟩ := extended
  cases round <;> cases sticky <;>
    simp only [ExtendedMantissa.roundedMantissa, ExtendedMantissa.accuracy,
      Accuracy.roundToNearestEven] <;> omega

theorem Stands.near (stands : Stands extended x) :
    |(extended.roundedMantissa : ℚ) - x| ≤ 1 / 2 := by
  obtain ⟨mantissa, round, sticky⟩ := extended
  have parity : ((mantissa % 2 : Nat) : ℚ) = 0 ∨ ((mantissa % 2 : Nat) : ℚ) = 1 := by
    rcases Nat.mod_two_eq_zero_or_one mantissa with parity | parity <;> simp [parity]
  rw [abs_le]
  cases round <;> cases sticky <;>
    simp only [Stands, ExtendedMantissa.roundedMantissa, ExtendedMantissa.accuracy,
      Accuracy.roundToNearestEven] at stands ⊢ <;>
    push_cast <;> (try rcases parity with parity | parity) <;> constructor <;> linarith

theorem Stands.roundedMantissa_of_natCast {n : Nat} (stands : Stands extended n) :
    extended.roundedMantissa = n := by
  obtain ⟨below, above⟩ := stands.bounds
  have same : extended.mantissa = n := by
    have low : extended.mantissa ≤ n := by exact_mod_cast below
    have high : n < extended.mantissa + 1 := by exact_mod_cast above
    omega
  obtain ⟨mantissa, round, sticky⟩ := extended
  dsimp only at same
  subst same
  cases round <;> cases sticky <;> simp only [Stands] at stands <;>
    first | rfl | (exfalso; linarith)

end Stands

structure Rounds (v w : ℚ) : Prop where
  near : |w - v| * 2 ^ 53 ≤ v
  exact : ∀ (n : Nat) (g : ℤ), v = n * 2 ^ g → n < 2 ^ 53 → w = v
  least : ∀ j : ℤ, 2 ^ j ≤ v → 2 ^ j ≤ w
  most : ∀ j : ℤ, v ≤ 2 ^ j → w ≤ 2 ^ j

/-- A quotient of a number of 53 bits is rounded to an integer only where it is that integer. -/
theorem Rounds.int_iff {p q : Nat} {u : ℚ} (rounds : Rounds (p / q) u) (narrow : p < 2 ^ 53)
    (positive : 0 < q) (n : ℤ) : u = n ↔ (p / q : ℚ) = n := by
  have denominator : (0 : ℚ) < q := by exact_mod_cast positive
  have limit : (p : ℚ) < 2 ^ 53 := by exact_mod_cast narrow
  constructor
  · rintro rfl
    have near := rounds.near
    have scaled : |(n * q - p : ℚ)| * 2 ^ 53 ≤ p := by
      have split : (n * q - p : ℚ) = (n - p / q) * q := by field_simp
      rw [split, abs_mul, abs_of_pos denominator]
      rw [le_div_iff₀ denominator] at near
      linarith
    have less : |(n * q - p : ℤ)| < 1 := by
      have less : |((n * q - p : ℤ) : ℚ)| < 1 := by
        push_cast
        linarith
      exact_mod_cast less
    have same : n * q - p = 0 := Int.abs_lt_one_iff.1 less
    rw [div_eq_iff denominator.ne']
    exact_mod_cast (Int.sub_eq_zero.1 same).symm
  · intro whole
    have nonnegative : 0 ≤ n := by
      have : (0 : ℚ) ≤ n := whole ▸ by positivity
      exact_mod_cast this
    lift n to ℕ using nonnegative
    rw [div_eq_iff denominator.ne'] at whole
    have product : p = n * q := by exact_mod_cast whole
    have fits : n < 2 ^ 53 := by
      have := Nat.le_mul_of_pos_right n positive
      omega
    have exact := rounds.exact n 0 (by rw [div_eq_iff denominator.ne']; simpa using whole) fits
    rw [exact, div_eq_iff denominator.ne']
    exact whole

section Rounding

variable {sign : Sign} {mantissa : Nat} {exponent : ℤ} {accuracy : Accuracy}

theorem log2_eq_of_bounds {n : Nat} (low : 2 ^ 52 ≤ n) (high : n < 2 ^ 53) : n.log2 = 52 :=
  (Nat.log2_eq_iff (by omega)).2 ⟨low, high⟩

theorem mantissa_ofMantissaAndAccuracy :
    (ExtendedMantissa.ofMantissaAndAccuracy mantissa accuracy).mantissa = mantissa := by
  cases accuracy with
  | exact => rfl
  | inexact ordering => cases ordering <;> rfl

theorem shiftToTargetExponent_wide (wide : 52 ≤ mantissa.log2)
    (normal : -1022 ≤ exponent + mantissa.log2) :
    shiftToTargetExponent binary64 mantissa exponent accuracy =
      (ExtendedMantissa.ofMantissaAndAccuracy mantissa accuracy >>> (mantissa.log2 - 52),
        exponent + (mantissa.log2 - 52 : Nat)) := by
  have target : binary64.targetExponent (totalExponent mantissa exponent) =
      exponent + (mantissa.log2 - 52 : Nat) := by
    simp only [Format.targetExponent, totalExponent, Format.mantissaBits, Format.minExponent]
    norm_num
    omega
  unfold shiftToTargetExponent
  rw [target]
  unfold shiftToExponent
  dsimp only
  have amount : (exponent + (mantissa.log2 - 52 : Nat) - exponent).toNat = mantissa.log2 - 52 := by
    omega
  rw [amount]

theorem mantissa_shifted_bounds (wide : 52 ≤ mantissa.log2) :
    2 ^ 52 ≤ (ExtendedMantissa.ofMantissaAndAccuracy mantissa accuracy >>>
        (mantissa.log2 - 52)).mantissa ∧
      (ExtendedMantissa.ofMantissaAndAccuracy mantissa accuracy >>>
        (mantissa.log2 - 52)).mantissa < 2 ^ 53 := by
  have positive : mantissa ≠ 0 := by
    rintro rfl
    exact absurd wide (by decide)
  obtain ⟨low, high⟩ := (Nat.log2_eq_iff positive).1 rfl
  rw [mantissa_shiftRight, mantissa_ofMantissaAndAccuracy]
  generalize count : mantissa.log2 - 52 = shifted
  have bits : mantissa.log2 = 52 + shifted := by omega
  rw [bits, pow_add] at low
  rw [bits, pow_succ, pow_add] at high
  constructor
  · exact (Nat.le_div_iff_mul_le (Nat.two_pow_pos shifted)).2 low
  · rw [Nat.div_lt_iff_lt_mul (Nat.two_pow_pos shifted)]
    linarith

theorem roundWithAccuracy_wide (wide : 52 ≤ mantissa.log2)
    (normal : -1022 ≤ exponent + mantissa.log2) :
    ∃ m e positive, roundWithAccuracy binary64 sign mantissa exponent accuracy =
        .finite sign m e positive ∧ 2 ^ 52 ≤ m ∧ m < 2 ^ 53 ∧ -1074 ≤ e ∧
      (m : ℚ) * 2 ^ e = (ExtendedMantissa.ofMantissaAndAccuracy mantissa accuracy >>>
        (mantissa.log2 - 52)).roundedMantissa * 2 ^ (exponent + (mantissa.log2 - 52 : Nat)) := by
  have keptBounds := @mantissa_shifted_bounds mantissa accuracy wide
  unfold roundWithAccuracy
  rw [shiftToTargetExponent_wide wide normal]
  dsimp only
  -- What is left of the mantissa has 53 bits, and rounding adds at most one.
  generalize ExtendedMantissa.ofMantissaAndAccuracy mantissa accuracy >>> (mantissa.log2 - 52) =
    extended at keptBounds ⊢
  obtain ⟨atLeast, atMost⟩ := roundedMantissa_bounds extended
  generalize extended.roundedMantissa = rounded at atLeast atMost ⊢
  by_cases fits : rounded < 2 ^ 53
  · have width : rounded.log2 = 52 := log2_eq_of_bounds (by omega) fits
    rw [shiftToTargetExponent_wide (by omega) (by omega), width]
    simp only [Nat.sub_self, mantissa_shiftRight, mantissa_ofMantissaAndAccuracy, pow_zero,
      Nat.div_one]
    refine ⟨rounded, _, by omega, dif_neg (by omega), by omega, fits, by omega, ?_⟩
    simp
  · obtain rfl : rounded = 2 ^ 53 := by omega
    have width : (2 ^ 53 : Nat).log2 = 53 := Nat.log2_two_pow
    rw [shiftToTargetExponent_wide (by omega) (by omega), width]
    simp only [mantissa_shiftRight, mantissa_ofMantissaAndAccuracy]
    refine ⟨2 ^ 52, _, by omega, dif_neg (by norm_num), by omega, by norm_num, by omega, ?_⟩
    rw [show ((53 - 52 : Nat) : ℤ) = 1 from rfl, zpow_add_one₀ two_ne_zero]
    push_cast
    ring

section Whole

variable {y : ℚ} {rounded : Nat} {f : ℤ}

theorem le_of_zpow_le {j : ℤ} (high : y < 2 ^ 53) (below : 2 ^ j ≤ y * 2 ^ f) : j ≤ 52 + f := by
  have bound : (2 : ℚ) ^ j < 2 ^ (53 + f) := by
    rw [zpow_add₀ two_ne_zero]
    exact below.trans_lt (mul_lt_mul_of_pos_right (by exact_mod_cast high) (zpow_pos two_pos f))
  have order := (zpow_lt_zpow_iff_right₀ one_lt_two).1 bound
  omega

theorem eq_of_dyadic (low : 2 ^ 52 ≤ y) (whole : ∀ n : Nat, y = n → rounded = n) {n : Nat} {g : ℤ}
    (same : y * 2 ^ f = n * 2 ^ g) (small : n < 2 ^ 53) : rounded = y := by
  have small : (n : ℚ) < 2 ^ 53 := by exact_mod_cast small
  have order : f ≤ g := by
    have below : (2 : ℚ) ^ (52 + f) ≤ n * 2 ^ g := by
      rw [← same, zpow_add₀ two_ne_zero]
      exact mul_le_mul_of_nonneg_right (by exact_mod_cast low) (zpow_pos two_pos f).le
    have exponents := le_of_zpow_le small below
    omega
  obtain ⟨k, rfl⟩ := Int.le.dest order
  rw [zpow_add₀ two_ne_zero, zpow_natCast, mul_left_comm, mul_comm] at same
  have count : y = ((n * 2 ^ k : Nat) : ℚ) := by
    push_cast
    exact mul_left_cancel₀ (zpow_pos two_pos f).ne' same
  rw [whole _ count, count]

theorem rounds_of_near (f : ℤ) (low : 2 ^ 52 ≤ y) (high : y < 2 ^ 53) (least : 2 ^ 52 ≤ rounded)
    (most : rounded ≤ 2 ^ 53) (near : |(rounded : ℚ) - y| ≤ 1 / 2)
    (whole : ∀ n : Nat, y = n → rounded = n) : Rounds (y * 2 ^ f) (rounded * 2 ^ f) := by
  have unit : (0 : ℚ) < 2 ^ f := zpow_pos two_pos f
  have least : (2 ^ 52 : ℚ) ≤ rounded := by exact_mod_cast least
  have most : (rounded : ℚ) ≤ 2 ^ 53 := by exact_mod_cast most
  refine ⟨?_, ?_, ?_, ?_⟩
  · rw [← sub_mul, abs_mul, abs_of_pos unit]
    have scaled := mul_le_mul_of_nonneg_right near unit.le
    nlinarith
  · intro n g same small
    rw [eq_of_dyadic low whole same small]
  · intro j below
    calc (2 : ℚ) ^ j ≤ 2 ^ (52 + f) := zpow_le_zpow_right₀ one_le_two (le_of_zpow_le high below)
      _ = 2 ^ 52 * 2 ^ f := by rw [zpow_add₀ two_ne_zero]; rfl
      _ ≤ rounded * 2 ^ f := mul_le_mul_of_nonneg_right least unit.le
  · intro j above
    have lower : (2 ^ 52 : ℚ) * 2 ^ f ≤ y * 2 ^ f := mul_le_mul_of_nonneg_right low unit.le
    have exponents : 52 + f ≤ j := by
      refine (zpow_le_zpow_iff_right₀ (one_lt_two : (1 : ℚ) < 2)).1 ?_
      rw [zpow_add₀ two_ne_zero]
      exact_mod_cast lower.trans above
    rcases exponents.eq_or_lt with rfl | wider
    · -- The number is a power of two itself.
      have same : y * 2 ^ f = (2 ^ 52 : Nat) * 2 ^ f := by
        rw [zpow_add₀ two_ne_zero] at above
        exact le_antisymm (by exact_mod_cast above) (by exact_mod_cast lower)
      rw [eq_of_dyadic low whole same (by norm_num)]
      exact above
    · calc (rounded : ℚ) * 2 ^ f ≤ 2 ^ 53 * 2 ^ f := mul_le_mul_of_nonneg_right most unit.le
        _ = 2 ^ (53 + f) := by rw [zpow_add₀ two_ne_zero]; rfl
        _ ≤ 2 ^ j := zpow_le_zpow_right₀ one_le_two (by omega)

end Whole

theorem round_rounds {r : ℚ} (stands : Stands (.ofMantissaAndAccuracy mantissa accuracy) r)
    (wide : 52 ≤ mantissa.log2) (normal : -1022 ≤ exponent + mantissa.log2) :
    ∃ m e positive, roundWithAccuracy binary64 sign mantissa exponent accuracy =
        .finite sign m e positive ∧ 2 ^ 52 ≤ m ∧ m < 2 ^ 53 ∧ -1074 ≤ e ∧
      Rounds (r * 2 ^ exponent) (m * 2 ^ e) := by
  obtain ⟨m, e, positive, rounded, low, high, least, same⟩ :=
    @roundWithAccuracy_wide sign mantissa exponent accuracy wide normal
  refine ⟨m, e, positive, rounded, low, high, least, ?_⟩
  rw [same]
  have keptBounds := @mantissa_shifted_bounds mantissa accuracy wide
  generalize count : mantissa.log2 - 52 = shifted at keptBounds
  have shift := stands.shiftRight shifted
  have split : r * 2 ^ exponent = r / 2 ^ shifted * 2 ^ (exponent + (shifted : ℤ)) := by
    rw [zpow_add₀ two_ne_zero, zpow_natCast]
    field_simp
  rw [split]
  generalize ExtendedMantissa.ofMantissaAndAccuracy mantissa accuracy >>> shifted = extended
    at keptBounds shift ⊢
  obtain ⟨below, above⟩ := shift.bounds
  obtain ⟨atLeast, atMost⟩ := roundedMantissa_bounds extended
  have keptLow : (2 ^ 52 : ℚ) ≤ extended.mantissa := by exact_mod_cast keptBounds.1
  have keptHigh : (extended.mantissa : ℚ) + 1 ≤ 2 ^ 53 := by exact_mod_cast keptBounds.2
  refine rounds_of_near _ (by linarith) (by linarith) (by omega) (by omega) shift.near ?_
  intro n whole
  rw [whole] at shift
  exact shift.roundedMantissa_of_natCast

end Rounding

end Formulary.Binary
