import Formulary.Proofs.Rounding

/-!
Binary64 numbers as the rational ones they are: what products, quotients and powers of ten are
rounded to, how far roundings in a row lead, and which numbers are as good as zero.
-/

namespace Formulary.Binary

open Float.Model
open Float.Model.UnpackedFloat
open Float.Model.Format (binary64)

theorem unpackSign_packComponents {spec : Format} {sign : Sign}
    {exponent : BitVec spec.exponentBits} {mantissa : BitVec spec.mantissaBitsWithoutImplicit} :
    UnpackedFloat.unpackSign (UnpackedFloat.packComponents spec sign exponent mantissa) =
      sign.toBitVec := by
  apply BitVec.eq_of_getLsbD_eq
  intro i inside
  obtain rfl : i = 0 := by omega
  simp [UnpackedFloat.unpackSign, UnpackedFloat.packComponents, BitVec.getLsbD_append,
    BitVec.getElem_append]

theorem toNat_append_hidden (mantissa : BitVec 52) :
    (1#1 ++ mantissa).toNat = 2 ^ 52 + mantissa.toNat := by
  rw [BitVec.toNat_append, ← Nat.shiftLeft_add_eq_or_of_lt mantissa.isLt]
  rfl

section Packed

variable {sign : Sign} {m : Nat} {e : ℤ} {positive : 0 < m} (low : 2 ^ 52 ≤ m) (high : m < 2 ^ 53)

include low high

theorem unpack_pack (least : -1074 ≤ e) (most : e ≤ 971) :
    UnpackedFloat.unpack binary64 (UnpackedFloat.pack binary64 (.finite sign m e positive)) =
      .finite sign m e positive := by
  have width : m.log2 = 52 := log2_eq_of_bounds low high
  have field : (BitVec.ofNat 11 (e + 1075).toNat).toNat = (e + 1075).toNat := by
    rw [BitVec.toNat_ofNat, Nat.mod_eq_of_lt (by omega)]
  have fraction : (1#1 ++ BitVec.ofNat 52 m).toNat = m := by
    rw [toNat_append_hidden, BitVec.toNat_ofNat]
    omega
  have notTop : BitVec.ofNat 11 (e + 1075).toNat ≠ -1#11 := by
    intro same
    have value := congrArg BitVec.toNat same
    rw [field] at value
    simp at value
    omega
  have notBottom : BitVec.ofNat 11 (e + 1075).toNat ≠ 0#11 := by
    intro same
    have value := congrArg BitVec.toNat same
    rw [field] at value
    simp at value
    omega
  have packed : UnpackedFloat.pack binary64 (.finite sign m e positive) =
      UnpackedFloat.packComponents binary64 sign (BitVec.ofNat 11 (e + 1075).toNat)
        (BitVec.ofNat 52 m) := by
    unfold UnpackedFloat.pack
    dsimp only
    rw [if_neg (by simp [Format.exponentBias]; omega), if_pos (by rw [width]; rfl)]
    congr 3
    simp [Format.exponentBias]
    omega
  rw [packed]
  unfold UnpackedFloat.unpack
  simp only [unpackMantissa_packComponents, unpackExponent_packComponents,
    unpackSign_packComponents]
  rw [if_neg notTop, if_neg notBottom]
  congr 1
  · cases sign <;> rfl
  · simp only [field, Format.exponentBias]
    omega

omit low high in
theorem unpack_pack_large (large : 971 < e) :
    UnpackedFloat.unpack binary64 (UnpackedFloat.pack binary64 (.finite sign m e positive)) =
      .infinity sign := by
  have packed : UnpackedFloat.pack binary64 (.finite sign m e positive) =
      UnpackedFloat.packedInfinity binary64 sign := by
    unfold UnpackedFloat.pack
    dsimp only
    rw [if_pos (by simp [Format.exponentBias]; omega)]
  rw [packed]
  unfold UnpackedFloat.unpack UnpackedFloat.packedInfinity
  simp only [unpackMantissa_packComponents, unpackExponent_packComponents,
    unpackSign_packComponents]
  rw [if_pos trivial]
  cases sign <;> rfl

end Packed

/-- Whether a binary64 number is the positive number `v`, with all bits of its mantissa. -/
def Is (x : Float) (v : ℚ) : Prop :=
  ∃ m e positive, x.toModel.unpack = .finite .positive m e positive ∧ 2 ^ 52 ≤ m ∧ m < 2 ^ 53 ∧
    -1074 ≤ e ∧ e ≤ 971 ∧ v = m * 2 ^ e

def IsRounded (x : Float) (v : ℚ) : Prop :=
  ∃ u, Rounds v u ∧ (Is x u ∨ x.isInf = true ∧ 2 ^ 1024 ≤ u)

theorem dyadic_eq (significand exponent : ℤ) :
    Decimal.dyadic significand exponent = significand * 2 ^ exponent := by
  unfold Decimal.dyadic
  rw [Rat.mkRat_eq_div]
  obtain ⟨n, rfl | rfl⟩ := exponent.eq_nat_or_neg
  · have none : (-(n : ℤ)).toNat = 0 := by omega
    rw [Int.toNat_natCast, none]
    simp
  · rw [neg_neg, Int.toNat_natCast, Int.toNat_neg_natCast, zpow_neg, zpow_natCast]
    simp [div_eq_mul_inv]

theorem product_eq (m n : Nat) (e f : ℤ) :
    (m * 2 ^ e * (n * 2 ^ f) : ℚ) = (m * n : Nat) * 2 ^ (e + f) := by
  rw [zpow_add₀ two_ne_zero]
  push_cast
  ring

theorem quotient_eq (m n : Nat) (e f : ℤ) :
    (m * 2 ^ e / (n * 2 ^ f) : ℚ) = m / n * 2 ^ (e - f) := by
  rw [zpow_sub₀ two_ne_zero]
  field_simp

section Unpacked

variable (x y : Float)

theorem unpack_neg : (-x).toModel.unpack =
    UnpackedFloat.unpack binary64 (UnpackedFloat.pack binary64 x.toModel.unpack.neg) :=
  rfl

theorem unpack_mul : (x * y).toModel.unpack = UnpackedFloat.unpack binary64
    (UnpackedFloat.pack binary64 (UnpackedFloat.mul binary64 x.toModel.unpack y.toModel.unpack)) :=
  rfl

theorem unpack_div : (x / y).toModel.unpack = UnpackedFloat.unpack binary64
    (UnpackedFloat.pack binary64 (UnpackedFloat.div binary64 x.toModel.unpack y.toModel.unpack)) :=
  rfl

end Unpacked

section Is

variable {x y : Float} {v w : ℚ}

theorem Is.pos (is : Is x v) : 0 < v := by
  obtain ⟨m, e, positive, _, _, _, _, _, rfl⟩ := is
  exact mul_pos (by exact_mod_cast positive) (zpow_pos two_pos e)

theorem Is.rational (is : Is x v) : Decimal.rational? x = some v := by
  obtain ⟨m, e, positive, unpacked, _, _, _, _, rfl⟩ := is
  unfold Decimal.rational?
  rw [unpacked]
  simp [dyadic_eq, Sign.apply]

theorem Is.rational_neg (is : Is x v) : Decimal.rational? (-x) = some (-v) := by
  obtain ⟨m, e, positive, unpacked, low, high, least, most, rfl⟩ := is
  have negated : (-x).toModel.unpack = .finite .negative m e positive := by
    rw [unpack_neg, unpacked]
    exact unpack_pack low high least most
  unfold Decimal.rational?
  rw [negated]
  simp [dyadic_eq, Sign.apply]

theorem Is.not_isInf (is : Is x v) : x.isInf = false := by
  obtain ⟨m, e, positive, unpacked, _⟩ := is
  change x.toModel.unpack.isInf = false
  rw [unpacked]
  rfl

theorem unpack_zero : (0 : Float).toModel.unpack = .zero .positive :=
  rfl

theorem Is.ne_zero (is : Is x v) : (x == 0) = false := by
  obtain ⟨m, e, positive, unpacked, _⟩ := is
  change (x.toModel.unpack.compare (0 : Float).toModel.unpack == some .eq) = false
  rw [unpacked, unpack_zero]
  rfl

theorem beq_zero_of_unpack (zero : x.toModel.unpack = .zero .positive) : (x == 0) = true := by
  change (x.toModel.unpack.compare (0 : Float).toModel.unpack == some .eq) = true
  rw [zero, unpack_zero]
  rfl

theorem isRounded_of_unpack {mantissa : Nat} {exponent : ℤ} {accuracy : Accuracy} {r : ℚ}
    (stands : Stands (.ofMantissaAndAccuracy mantissa accuracy) r) (wide : 52 ≤ mantissa.log2)
    (normal : -1022 ≤ exponent + mantissa.log2)
    (unpacked : x.toModel.unpack = UnpackedFloat.unpack binary64 (UnpackedFloat.pack binary64
      (roundWithAccuracy binary64 .positive mantissa exponent accuracy))) :
    IsRounded x (r * 2 ^ exponent) := by
  obtain ⟨m, e, positive, rounded, low, high, least, rounds⟩ :=
    @round_rounds .positive _ _ _ _ stands wide normal
  rw [rounded] at unpacked
  refine ⟨_, rounds, ?_⟩
  by_cases most : e ≤ 971
  · rw [unpack_pack low high least most] at unpacked
    exact .inl ⟨m, e, positive, unpacked, low, high, least, most, rfl⟩
  · rw [unpack_pack_large (by omega)] at unpacked
    refine .inr ⟨?_, ?_⟩
    · change x.toModel.unpack.isInf = true
      rw [unpacked]
      rfl
    · have bits : (2 ^ 52 : ℚ) ≤ m := by exact_mod_cast low
      calc (2 : ℚ) ^ 1024 = 2 ^ 52 * 2 ^ (972 : ℤ) := by
            rw [← zpow_natCast, ← zpow_natCast, ← zpow_add₀ two_ne_zero]
            rfl
        _ ≤ (m : ℚ) * 2 ^ e := mul_le_mul bits (zpow_le_zpow_right₀ one_le_two (by omega))
            (by positivity) (by positivity)

theorem exponent_of_le {m : Nat} {e : ℤ} {j : ℤ} (large : (2 : ℚ) ^ j ≤ m * 2 ^ e) :
    j ≤ e + m.log2 := by
  have power : (m : ℚ) < 2 ^ ((m.log2 : ℤ) + 1) := by
    exact_mod_cast @Nat.lt_log2_self m
  have bound : (2 : ℚ) ^ j < 2 ^ ((m.log2 : ℤ) + 1 + e) := by
    rw [zpow_add₀ two_ne_zero]
    exact large.trans_lt (mul_lt_mul_of_pos_right power (zpow_pos two_pos e))
  have := (zpow_lt_zpow_iff_right₀ one_lt_two).1 bound
  omega

theorem Is.mul (left : Is x v) (right : Is y w) (normal : 2 ^ (-1022 : ℤ) ≤ v * w) :
    IsRounded (x * y) (v * w) := by
  obtain ⟨m, e, positive, unpacked, low, high, _, _, rfl⟩ := left
  obtain ⟨n, f, positive', unpacked', low', high', _, _, rfl⟩ := right
  rw [product_eq] at normal ⊢
  have wide : 52 ≤ (m * n).log2 := by
    rw [Nat.le_log2 (by positivity)]
    calc 2 ^ 52 ≤ m := low
      _ ≤ m * n := Nat.le_mul_of_pos_right m (by omega)
  have stands : Stands (.ofMantissaAndAccuracy (m * n) .exact) ((m * n : Nat) : ℚ) := rfl
  refine isRounded_of_unpack stands wide (exponent_of_le normal) ?_
  rw [unpack_mul, unpacked, unpacked']
  rfl

theorem stands_div (p : Nat) {q : Nat} (positive : 0 < q) :
    Stands (.ofMantissaAndAccuracy (p / q) (accuracyOfFraction (p % q) q)) (p / q : ℚ) := by
  have denominator : (0 : ℚ) < q := by exact_mod_cast positive
  have split : (p : ℚ) / q = (p / q : Nat) + (p % q : Nat) / q := by
    field_simp
    exact_mod_cast (Nat.div_add_mod p q).symm
  have less := Nat.mod_lt p positive
  rw [split]
  generalize p / q = whole
  generalize p % q = part at less
  have bounded : (part : ℚ) < q := by exact_mod_cast less
  unfold accuracyOfFraction
  by_cases none : part = 0
  · rw [if_pos none, none]
    simp [Stands, ExtendedMantissa.ofMantissaAndAccuracy]
  · have something : (0 : ℚ) < part := by exact_mod_cast Nat.pos_of_ne_zero none
    rw [if_neg none]
    rcases Nat.lt_trichotomy (2 * part) q with below | half | above
    · have below' : (2 * part : ℚ) < q := by exact_mod_cast below
      rw [Nat.compare_eq_lt.2 below]
      simp only [Stands, ExtendedMantissa.ofMantissaAndAccuracy]
      refine ⟨by linarith [div_pos something denominator], ?_⟩
      have := (div_lt_iff₀ denominator).2 (show (part : ℚ) < 1 / 2 * q by linarith)
      linarith
    · have half' : (2 * part : ℚ) = q := by exact_mod_cast half
      rw [Nat.compare_eq_eq.2 half]
      simp only [Stands, ExtendedMantissa.ofMantissaAndAccuracy]
      rw [← half']
      field_simp
    · have above' : (q : ℚ) < 2 * part := by exact_mod_cast above
      rw [Nat.compare_eq_gt.2 above]
      simp only [Stands, ExtendedMantissa.ofMantissaAndAccuracy]
      have low := (lt_div_iff₀ denominator).2 (show 1 / 2 * (q : ℚ) < part by linarith)
      have high := (div_lt_iff₀ denominator).2 (show (part : ℚ) < 1 * q by linarith)
      exact ⟨by linarith, by linarith⟩

theorem divCore_wide {m n : Nat} {e f : ℤ} (numerator : m.log2 = 52) (denominator : n.log2 = 52)
    (order : -1021 ≤ e - f) : divCore binary64 m e n f =
      (m * 2 ^ 53 / n, e - f - 53, accuracyOfFraction (m * 2 ^ 53 % n) n) := by
  have target : min (e - f) (binary64.targetExponent (totalExponent m e - totalExponent n f)) =
      e - f - 53 := by
    simp only [Format.targetExponent, totalExponent, Format.mantissaBits, Format.minExponent,
      numerator, denominator]
    norm_num
    omega
  have amount : (e - f - (e - f - 53)).toNat = 53 := by omega
  unfold divCore
  rw [target]
  dsimp only
  rw [amount, Nat.shiftLeft_eq]

theorem le_log2_quotient {m n : Nat} (low : 2 ^ 52 ≤ m) (positive : 0 < n) (high : n < 2 ^ 53) :
    52 ≤ (m * 2 ^ 53 / n).log2 := by
  have large : 2 ^ 52 ≤ m * 2 ^ 53 / n := by
    rw [Nat.le_div_iff_mul_le positive]
    omega
  rw [Nat.le_log2 (by omega)]
  exact large

theorem lt_of_le_quotient {m n : Nat} {j k : ℤ} (high : m < 2 ^ 53) (low : 2 ^ 52 ≤ n)
    (large : (2 : ℚ) ^ j ≤ m / n * 2 ^ k) : j < 1 + k := by
  have numerator : (m : ℚ) < 2 ^ 53 := by exact_mod_cast high
  have denominator : (2 ^ 52 : ℚ) ≤ n := by exact_mod_cast low
  have ratio : (m : ℚ) / n < 2 := by
    rw [div_lt_iff₀ (by linarith)]
    linarith
  have bound : (2 : ℚ) ^ j < 2 ^ (1 + k) := by
    rw [zpow_add₀ two_ne_zero, zpow_one]
    exact large.trans_lt (mul_lt_mul_of_pos_right ratio (zpow_pos two_pos _))
  exact (zpow_lt_zpow_iff_right₀ one_lt_two).1 bound

theorem Is.div (left : Is x v) (right : Is y w) (normal : 2 ^ (-1020 : ℤ) ≤ v / w) :
    IsRounded (x / y) (v / w) := by
  obtain ⟨m, e, positive, unpacked, low, high, _, _, rfl⟩ := left
  obtain ⟨n, f, positive', unpacked', low', high', _, _, rfl⟩ := right
  rw [quotient_eq] at normal ⊢
  have order := lt_of_le_quotient high low' normal
  have wide := le_log2_quotient low positive' high'
  have divided : (x / y).toModel.unpack = UnpackedFloat.unpack binary64
      (UnpackedFloat.pack binary64 (roundWithAccuracy binary64 .positive (m * 2 ^ 53 / n)
        (e - f - 53) (accuracyOfFraction (m * 2 ^ 53 % n) n))) := by
    have parts : UnpackedFloat.div binary64 (.finite .positive m e positive)
        (.finite .positive n f positive') = roundWithAccuracy binary64 .positive
          (divCore binary64 m e n f).1 (divCore binary64 m e n f).2.1
          (divCore binary64 m e n f).2.2 := rfl
    rw [divCore_wide (log2_eq_of_bounds low high) (log2_eq_of_bounds low' high') (by omega)]
      at parts
    rw [unpack_div, unpacked, unpacked', parts]
  have rounded := isRounded_of_unpack (stands_div (m * 2 ^ 53) positive') wide (by omega) divided
  have same : ((m * 2 ^ 53 : Nat) / n : ℚ) * 2 ^ (e - f - 53) = m / n * 2 ^ (e - f) := by
    have split : (2 : ℚ) ^ (e - f) = 2 ^ (e - f - 53) * 2 ^ 53 := by
      rw [← zpow_natCast, ← zpow_add₀ two_ne_zero]
      norm_num
    rw [split]
    push_cast
    ring
  rwa [same] at rounded

theorem IsRounded.is (rounded : IsRounded x v) (bounded : v ≤ 2 ^ (1000 : ℤ)) :
    ∃ u, Is x u ∧ Rounds v u := by
  obtain ⟨u, rounds, is | ⟨_, large⟩⟩ := rounded
  · exact ⟨u, is, rounds⟩
  · have limit : (2 : ℚ) ^ (1000 : ℤ) < 2 ^ (1024 : ℤ) :=
      (zpow_lt_zpow_iff_right₀ one_lt_two).2 (by norm_num)
    exact absurd (large.trans (rounds.most 1000 bounded)) (not_le.2 limit)

theorem unpack_ofNat {n : Nat} (positive : 0 < n) (fits : n < 2 ^ 64) :
    n.toUInt64.toFloat.toModel.unpack = UnpackedFloat.unpack binary64
      (UnpackedFloat.pack binary64 (roundWithAccuracy binary64 .positive (n * 2 ^ (52 - n.log2))
        (0 - (52 - n.log2 : Nat)) .exact)) := by
  have value : n.toUInt64.toNat = n := by
    simp only [Nat.toUInt64, UInt64.toNat_ofNat']
    omega
  have target : (0 - binary64.targetExponent (totalExponent n 0)).toNat = 52 - n.log2 := by
    simp only [Format.targetExponent, totalExponent, Format.mantissaBits, Format.minExponent]
    norm_num
    omega
  have sign : compare (n : ℤ) 0 = .gt := by
    rw [compare_gt_iff_gt]
    exact_mod_cast positive
  change UnpackedFloat.unpack binary64 (UnpackedFloat.pack binary64
    (normalize binary64 (n.toUInt64.toNat : ℤ) 0 .positive)) = _
  rw [value]
  unfold UnpackedFloat.normalize
  rw [sign]
  dsimp only
  rw [Int.toNat_natCast]
  unfold UnpackedFloat.round decreaseExponent
  dsimp only
  rw [target, Nat.shiftLeft_eq]

theorem log2_widened {n : Nat} (positive : 0 < n) (count : Nat) :
    (n * 2 ^ count).log2 = n.log2 + count := by
  induction count with
  | zero => simp
  | succ count ih =>
      have something : n * 2 ^ count ≠ 0 := by positivity
      rw [pow_succ, ← mul_assoc, mul_comm, Nat.log2_two_mul something, ih, Nat.add_assoc]

theorem isRounded_ofNat {n : Nat} (positive : 0 < n) (fits : n < 2 ^ 64) :
    IsRounded n.toUInt64.toFloat n := by
  have width := log2_widened positive (52 - n.log2)
  have stands : Stands (.ofMantissaAndAccuracy (n * 2 ^ (52 - n.log2)) .exact)
      ((n * 2 ^ (52 - n.log2) : Nat) : ℚ) := rfl
  have rounded := isRounded_of_unpack stands (by omega) (by omega) (unpack_ofNat positive fits)
  have same : ((n * 2 ^ (52 - n.log2) : Nat) : ℚ) * 2 ^ (0 - (52 - n.log2 : Nat) : ℤ) = n := by
    rw [zero_sub, zpow_neg, zpow_natCast]
    push_cast
    field_simp
  rwa [same] at rounded

theorem is_ofNat {n : Nat} (positive : 0 < n) (fits : n < 2 ^ 64) :
    ∃ v, Is n.toUInt64.toFloat v ∧ Rounds n v := by
  refine (isRounded_ofNat positive fits).is ?_
  have fits : (n : ℚ) ≤ 2 ^ (64 : ℤ) := by exact_mod_cast fits.le
  exact fits.trans (zpow_le_zpow_right₀ one_le_two (by norm_num))

theorem Rounds.refl (v : ℚ) (positive : 0 < v) : Rounds v v where
  near := by simpa using positive.le
  exact _ _ _ _ := rfl
  least _ := id
  most _ := id

def spells (x : Float) (n : Nat) : Bool :=
  match x.toModel.unpack with
  | .finite .positive m e _ => 2 ^ 52 ≤ m ∧ m < 2 ^ 53 ∧ -1074 ≤ e ∧ e ≤ 971 ∧
      n * 2 ^ (-e).toNat = m * 2 ^ e.toNat
  | _ => false

theorem is_of_spells {n : Nat} (spelt : spells x n = true) : Is x n := by
  unfold spells at spelt
  split at spelt
  · rename_i m e positive unpacked
    obtain ⟨low, high, least, most, same⟩ := of_decide_eq_true spelt
    refine ⟨m, e, positive, unpacked, low, high, least, most, ?_⟩
    have same : (n * 2 ^ (-e).toNat : ℚ) = m * 2 ^ e.toNat := by exact_mod_cast same
    have split : e = (e.toNat : ℤ) - (-e).toNat := by omega
    rw [split, zpow_sub₀ two_ne_zero, zpow_natCast, zpow_natCast, ← mul_div_assoc, ← same,
      mul_div_cancel_right₀ _ (by positivity)]
  · cases spelt

theorem spells_power : ∀ p < 23, spells (Float.ofScientific 1 false p) (10 ^ p) = true := by
  decide +kernel

theorem unpack_ofNat_zero : (0 : Nat).toUInt64.toFloat.toModel.unpack = .zero .positive :=
  rfl

theorem is_power {p : Nat} (fits : p ≤ 308) :
    ∃ w, Is (Float.ofScientific 1 false p) w ∧ Rounds (10 ^ p) w := by
  by_cases small : p < 23
  · have is := is_of_spells (spells_power p small)
    rw [Nat.cast_pow] at is
    exact ⟨_, is, .refl _ (by positivity)⟩
  · have unpacked : (Float.ofScientific 1 false p).toModel.unpack = UnpackedFloat.unpack binary64
        (UnpackedFloat.pack binary64 (roundWithAccuracy binary64 .positive
          (2 ^ 53 * 10 ^ p) (-53 + 0) .exact)) := by
      unfold Float.ofScientific
      rw [dif_neg (by omega)]
      change UnpackedFloat.unpack binary64 (UnpackedFloat.pack binary64
        (UnpackedFloat.ofScientific binary64 1 (p : ℤ))) = _
      unfold UnpackedFloat.ofScientific
      rw [dif_neg one_ne_zero, if_neg (by simp; omega), if_neg (by simp; omega), if_pos (by omega)]
      rfl
    have bits : 2 ^ 53 ≤ 2 ^ 53 * 10 ^ p := Nat.le_mul_of_pos_right _ (by positivity)
    have width : 53 ≤ (2 ^ 53 * 10 ^ p).log2 := (Nat.le_log2 (by positivity)).2 bits
    have stands : Stands (.ofMantissaAndAccuracy (2 ^ 53 * 10 ^ p) .exact)
      ((2 ^ 53 * 10 ^ p : Nat) : ℚ) := rfl
    have rounded := isRounded_of_unpack stands (by omega) (by omega) unpacked
    have same : ((2 ^ 53 * 10 ^ p : Nat) : ℚ) * 2 ^ (-53 + 0 : ℤ) = 10 ^ p := by
      rw [add_zero, zpow_neg]
      push_cast
      field_simp
    rw [same] at rounded
    obtain ⟨w, rounds, is | ⟨_, large⟩⟩ := rounded
    · exact ⟨w, is, rounds⟩
    · exfalso
      have bound : (10 : ℚ) ^ p ≤ 10 ^ 308 := pow_le_pow_right₀ (by norm_num) fits
      have limit : 10 ^ 308 * (2 ^ 53 + 1) < 2 ^ 1024 * 2 ^ 53 := by decide +kernel
      have limit : (10 : ℚ) ^ 308 * (2 ^ 53 + 1) < 2 ^ 1024 * 2 ^ 53 := by exact_mod_cast limit
      have near := rounds.near
      have apart := le_abs_self (w - 10 ^ p)
      generalize (2 : ℚ) ^ 1024 = top at large limit
      generalize (10 : ℚ) ^ 308 = greatest at bound limit
      linarith

theorem is_ofNat_exact {n : Nat} (positive : 0 < n) (narrow : n < 2 ^ 53) :
    Is n.toUInt64.toFloat n := by
  obtain ⟨v, is, rounds⟩ := is_ofNat positive (by omega)
  obtain rfl : v = n := rounds.exact n 0 (by simp) narrow
  exact is

/-- Up to its 22nd power ten has no more than 53 bits apart from its factors of two. -/
theorem is_power_exact {p : Nat} (small : p ≤ 22) : Is (Float.ofScientific 1 false p) (10 ^ p) := by
  obtain ⟨w, is, rounds⟩ := is_power (show p ≤ 308 by omega)
  obtain rfl : w = 10 ^ p := by
    refine rounds.exact (5 ^ p) p ?_ ?_
    · rw [zpow_natCast, Nat.cast_pow, ← mul_pow]
      norm_num
    · exact lt_of_le_of_lt (Nat.pow_le_pow_right (by decide) small) (by decide)
  exact is

end Is

/-! How far several roundings in a row lead, and which numbers vanish on the way. -/

def slack : ℚ := 1 - 1 / 2 ^ 53

theorem slack_pos : 0 < slack := by
  norm_num [slack]

/-- Whether two numbers are no further apart than `k` roundings may bring them. -/
structure Near (k : Nat) (v w : ℚ) : Prop where
  above : v * slack ^ k ≤ w
  below : w * slack ^ k ≤ v

section Near

variable {j k : Nat} {u v w x : ℚ}

theorem Rounds.toNear (rounds : Rounds v w) : Near 1 v w := by
  have near := rounds.near
  obtain ⟨low, high⟩ := abs_le.1 (le_refl |w - v|)
  constructor <;> rw [pow_one, slack] <;> linarith

theorem half_le_slack : 1 / 2 ≤ slack ^ 4 := by
  norm_num [slack]

theorem slack_pow_le_one (k : Nat) : slack ^ k ≤ 1 :=
  pow_le_one₀ slack_pos.le (by norm_num [slack])

theorem Near.refl (k : Nat) (nonnegative : 0 ≤ v) : Near k v v where
  above := mul_le_of_le_one_right nonnegative (slack_pow_le_one k)
  below := mul_le_of_le_one_right nonnegative (slack_pow_le_one k)

theorem Near.symm (near : Near k v w) : Near k w v :=
  ⟨near.below, near.above⟩

theorem Near.pos (near : Near k v w) (positive : 0 < v) : 0 < w :=
  lt_of_lt_of_le (mul_pos positive (pow_pos slack_pos k)) near.above

theorem Near.mono (near : Near j v w) (nonnegative : 0 ≤ v) (nonnegative' : 0 ≤ w)
    (order : j ≤ k) : Near k v w := by
  obtain ⟨more, rfl⟩ := Nat.exists_eq_add_of_le order
  have fewer : slack ^ (j + more) ≤ slack ^ j := by
    rw [pow_add]
    exact mul_le_of_le_one_right (pow_pos slack_pos j).le (slack_pow_le_one more)
  constructor
  · exact (mul_le_mul_of_nonneg_left fewer nonnegative).trans near.above
  · exact (mul_le_mul_of_nonneg_left fewer nonnegative').trans near.below

theorem Near.trans (first : Near j u v) (second : Near k v w) : Near (j + k) u w where
  above := by
    have scaled := mul_le_mul_of_nonneg_right first.above (pow_pos slack_pos k).le
    rw [pow_add, ← mul_assoc]
    exact scaled.trans second.above
  below := by
    have scaled := mul_le_mul_of_nonneg_right second.below (pow_pos slack_pos j).le
    rw [pow_add, mul_comm (slack ^ j), ← mul_assoc]
    exact scaled.trans first.below

theorem Near.mul (left : Near j u v) (right : Near k w x) (first : 0 < u) (second : 0 < v)
    (third : 0 < w) (fourth : 0 < x) : Near (j + k) (u * w) (v * x) where
  above := by
    have product := mul_le_mul left.above right.above
      (mul_pos third (pow_pos slack_pos k)).le second.le
    rw [pow_add]
    linarith
  below := by
    have product := mul_le_mul left.below right.below
      (mul_pos fourth (pow_pos slack_pos k)).le first.le
    rw [pow_add]
    linarith

theorem Near.inv (near : Near k v w) (positive : 0 < v) (positive' : 0 < w) : Near k v⁻¹ w⁻¹ where
  above := by
    rw [inv_mul_le_iff₀ positive, ← div_eq_mul_inv, le_div_iff₀ positive', mul_comm]
    exact near.below
  below := by
    rw [inv_mul_le_iff₀ positive', ← div_eq_mul_inv, le_div_iff₀ positive, mul_comm]
    exact near.above

theorem Near.close (near : Near 4 v w) (positive : 0 < v) : |w - v| * 2 ^ 50 ≤ v := by
  have above := near.above
  have below := near.below
  have four : 1 - 1 / 2 ^ 50 ≤ slack ^ 4 ∧ 1 ≤ (1 + 1 / 2 ^ 50) * slack ^ 4 := by
    norm_num [slack]
  rcases abs_cases (w - v) with ⟨same, _⟩ | ⟨same, _⟩
  · rw [same]
    by_contra far
    have far : v * (1 + 1 / 2 ^ 50) < w := by linarith
    have scaled := mul_lt_mul_of_pos_right far (pow_pos slack_pos 4)
    have enough := mul_le_mul_of_nonneg_left four.2 positive.le
    linarith
  · rw [same]
    have enough := mul_le_mul_of_nonneg_left four.1 positive.le
    linarith

end Near

/-- Whether a number is zero or closer to zero than `2 ^ -j`. -/
def Vanishes (j : ℤ) (sign : Sign) (u : UnpackedFloat) : Prop :=
  u = .zero sign ∨ ∃ m e positive, u = .finite sign m e positive ∧ (m : ℚ) * 2 ^ e < 2 ^ (-j)

section Vanishes

variable {sign : Sign} {mantissa m : Nat} {exponent e j : ℤ} {accuracy : Accuracy}

theorem shiftToTargetExponent_le :
    ((shiftToTargetExponent binary64 mantissa exponent accuracy).1.mantissa : ℚ) *
        2 ^ (shiftToTargetExponent binary64 mantissa exponent accuracy).2 ≤
      mantissa * 2 ^ exponent := by
  unfold shiftToTargetExponent shiftToExponent
  dsimp only
  rw [mantissa_shiftRight, mantissa_ofMantissaAndAccuracy]
  generalize (binary64.targetExponent (totalExponent mantissa exponent) - exponent).toNat = count
  rw [zpow_add₀ two_ne_zero, zpow_natCast, mul_comm ((2 : ℚ) ^ exponent), ← mul_assoc]
  have floor : mantissa / 2 ^ count * 2 ^ count ≤ mantissa := Nat.div_mul_le_self _ _
  exact mul_le_mul_of_nonneg_right (by exact_mod_cast floor) (zpow_pos two_pos _).le

theorem exponent_of_lt {k : ℤ} (positive : 0 < m) (small : (m : ℚ) * 2 ^ e < 2 ^ k) :
    m.log2 + e < k := by
  have low : (2 : ℚ) ^ (m.log2 : ℤ) ≤ m := by
    exact_mod_cast (Nat.le_log2 positive.ne').1 (Nat.le_refl m.log2)
  have bound : (2 : ℚ) ^ ((m.log2 : ℤ) + e) < 2 ^ k := by
    rw [zpow_add₀ two_ne_zero]
    exact (mul_le_mul_of_nonneg_right low (zpow_pos two_pos e).le).trans_lt small
  exact (zpow_lt_zpow_iff_right₀ one_lt_two).1 bound

theorem vanishes_round (range : 0 ≤ j ∧ j ≤ 1000) (bounded : exponent ≤ -(j + 1))
    (small : (mantissa : ℚ) * 2 ^ exponent < 2 ^ (-(j + 1))) :
    Vanishes j sign (roundWithAccuracy binary64 sign mantissa exponent accuracy) := by
  have first := @shiftToTargetExponent_le mantissa exponent accuracy
  have placed : (shiftToTargetExponent binary64 mantissa exponent accuracy).2 ≤ -(j + 1) := by
    have total : mantissa.log2 + exponent ≤ -(j + 1) := by
      rcases Nat.eq_zero_or_pos mantissa with rfl | positive
      · simpa using bounded
      · exact (exponent_of_lt positive small).le
    have target : binary64.targetExponent (totalExponent mantissa exponent) ≤ -(j + 1) := by
      simp only [Format.targetExponent, totalExponent, Format.mantissaBits, Format.minExponent]
      norm_num
      omega
    unfold shiftToTargetExponent shiftToExponent
    dsimp only
    omega
  unfold roundWithAccuracy
  dsimp only
  generalize shiftToTargetExponent binary64 mantissa exponent accuracy = shifted at first placed
  have second := @shiftToTargetExponent_le shifted.1.roundedMantissa shifted.2 .exact
  generalize shiftToTargetExponent binary64 shifted.1.roundedMantissa shifted.2 .exact = final
    at second ⊢
  split
  · exact .inl rfl
  · refine .inr ⟨_, _, _, rfl, second.trans_lt ?_⟩
    have unit : (2 : ℚ) ^ shifted.2 ≤ 2 ^ (-(j + 1)) := zpow_le_zpow_right₀ one_le_two placed
    have grown : (shifted.1.roundedMantissa : ℚ) ≤ shifted.1.mantissa + 1 := by
      exact_mod_cast (roundedMantissa_bounds shifted.1).2
    have scaled := mul_le_mul_of_nonneg_right grown (zpow_pos (two_pos : (0 : ℚ) < 2) shifted.2).le
    have halves : (2 : ℚ) ^ (-j) = 2 ^ (-(j + 1)) + 2 ^ (-(j + 1)) := by
      rw [← two_mul, ← zpow_one_add₀ two_ne_zero]
      congr 1
      omega
    linarith

theorem ofBitVec_toBitVec : Sign.ofBitVec sign.toBitVec = sign := by
  cases sign <;> rfl

theorem unpack_pack_zero (sign : Sign) :
    UnpackedFloat.unpack binary64 (UnpackedFloat.pack binary64 (.zero sign)) = .zero sign := by
  change UnpackedFloat.unpack binary64 (UnpackedFloat.packComponents binary64 sign 0#11 0#52) = _
  unfold UnpackedFloat.unpack
  simp only [unpackMantissa_packComponents, unpackExponent_packComponents,
    unpackSign_packComponents, ofBitVec_toBitVec]
  rw [if_neg (by decide), if_pos trivial]
  rfl

theorem vanishes_subnormal (most : j ≤ 1000) (fraction : BitVec 52) :
    Vanishes j sign (UnpackedFloat.unpack binary64
      (UnpackedFloat.packComponents binary64 sign 0#11 fraction)) := by
  unfold UnpackedFloat.unpack
  simp only [unpackMantissa_packComponents, unpackExponent_packComponents,
    unpackSign_packComponents, ofBitVec_toBitVec]
  rw [if_neg (by decide), if_pos trivial]
  split
  · exact .inl rfl
  · refine .inr ⟨_, _, _, rfl, ?_⟩
    have bits : (fraction.toNat : ℚ) < 2 ^ (52 : ℤ) := by exact_mod_cast fraction.isLt
    calc (fraction.toNat : ℚ) * 2 ^ (-1074 : ℤ)
      _ < 2 ^ (52 : ℤ) * 2 ^ (-1074 : ℤ) := mul_lt_mul_of_pos_right bits (zpow_pos two_pos _)
      _ = 2 ^ (-1022 : ℤ) := by rw [← zpow_add₀ two_ne_zero]; rfl
      _ ≤ 2 ^ (-j) := zpow_le_zpow_right₀ one_le_two (by omega)

theorem Vanishes.packed {u : UnpackedFloat} (vanishes : Vanishes j sign u)
    (range : 0 ≤ j ∧ j ≤ 1000) :
    Vanishes j sign (UnpackedFloat.unpack binary64 (UnpackedFloat.pack binary64 u)) := by
  rcases vanishes with rfl | ⟨m, e, positive, rfl, small⟩
  · exact vanishes_subnormal range.2 0#52
  · have bound := exponent_of_lt positive small
    by_cases normal : -1074 ≤ e ∧ m.log2 = 52
    · obtain ⟨low, high⟩ := (Nat.log2_eq_iff positive.ne').1 normal.2
      rw [unpack_pack low high normal.1 (by omega)]
      exact .inr ⟨m, e, positive, rfl, small⟩
    · have packed : UnpackedFloat.pack binary64 (.finite sign m e positive) =
          UnpackedFloat.packComponents binary64 sign 0#11 (BitVec.ofNat 52 m) := by
        unfold UnpackedFloat.pack
        dsimp only
        rw [if_neg (by simp [Format.exponentBias]; omega)]
        split
        · rename_i width
          have width : m.log2 = 52 := Nat.succ.inj width
          have field :
              (e + binary64.exponentBias + binary64.mantissaBitsWithoutImplicit).toNat = 0 := by
            simp [Format.exponentBias]
            omega
          rw [field]
        · rfl
      rw [packed]
      exact vanishes_subnormal range.2 _

theorem rational_of_zero {x : Float} (zero : x.toModel.unpack = .zero .positive) :
    Decimal.rational? x = some 0 ∧ Decimal.rational? (-x) = some 0 := by
  have negated : (-x).toModel.unpack = .zero .negative := by
    rw [unpack_neg, zero]
    exact unpack_pack_zero .negative
  unfold Decimal.rational?
  rw [zero, negated]
  simp [dyadic_eq]

theorem Vanishes.rational {x : Float} (vanishes : Vanishes j sign x.toModel.unpack)
    (range : 0 ≤ j) : ∃ u, Decimal.rational? x = some u ∧ |u| < 1 := by
  unfold Decimal.rational?
  rcases vanishes with zero | ⟨m, e, positive, finite, small⟩
  · rw [zero]
    exact ⟨_, rfl, by simp [dyadic_eq]⟩
  · rw [finite]
    refine ⟨_, rfl, ?_⟩
    have below : (m : ℚ) * 2 ^ e < 1 :=
      small.trans_le (zpow_le_one_of_nonpos₀ one_le_two (by omega))
    have size : |((sign.apply m : ℤ) : ℚ)| = m := by
      cases sign <;> simp [Sign.apply]
    rwa [dyadic_eq, abs_mul, size, abs_of_pos (zpow_pos (two_pos : (0 : ℚ) < 2) e)]

theorem Vanishes.rational_neg {x : Float} (vanishes : Vanishes j .positive x.toModel.unpack)
    (range : 0 ≤ j ∧ j ≤ 1000) : ∃ u, Decimal.rational? (-x) = some u ∧ |u| < 1 := by
  have negated : Vanishes j .negative x.toModel.unpack.neg := by
    rcases vanishes with zero | ⟨m, e, positive, finite, small⟩
    · rw [zero]
      exact .inl rfl
    · rw [finite]
      exact .inr ⟨m, e, positive, rfl, small⟩
  exact Vanishes.rational (negated.packed range) range.1

section Arithmetic

variable {x y : Float} {v w : ℚ}

def IsPositive (x : Float) (v : ℚ) : Prop :=
  ∃ m e positive, x.toModel.unpack = .finite .positive m e positive ∧ v = m * 2 ^ e

theorem Is.isPositive (is : Is x v) : IsPositive x v := by
  obtain ⟨m, e, positive, unpacked, _, _, _, _, same⟩ := is
  exact ⟨m, e, positive, unpacked, same⟩

theorem IsPositive.mul_vanishes (left : IsPositive x v) (right : Is y w)
    (range : 0 ≤ j ∧ j ≤ 1000) (small : v * w < 2 ^ (-(j + 1))) :
    Vanishes j .positive (x * y).toModel.unpack := by
  obtain ⟨m, e, positive, unpacked, rfl⟩ := left
  obtain ⟨n, f, positive', unpacked', _, _, _, _, rfl⟩ := right
  rw [product_eq] at small
  have bound := exponent_of_lt (Nat.mul_pos positive positive') small
  rw [unpack_mul, unpacked, unpacked']
  exact (@vanishes_round .positive _ _ _ .exact range (by omega) small).packed range

theorem divCore_le (m n : Nat) (e f : ℤ) :
    ((divCore binary64 m e n f).1 : ℚ) * 2 ^ (divCore binary64 m e n f).2.1 ≤
      m / n * 2 ^ (e - f) := by
  unfold divCore
  dsimp only
  have lower := min_le_left (e - f)
    (binary64.targetExponent (totalExponent m e - totalExponent n f))
  generalize min (e - f) (binary64.targetExponent (totalExponent m e - totalExponent n f)) = t
    at lower ⊢
  have shift : (2 : ℚ) ^ (e - f) = 2 ^ (e - f - t).toNat * 2 ^ t := by
    rw [← zpow_natCast, ← zpow_add₀ two_ne_zero]
    congr 1
    omega
  have floor : ((m * 2 ^ (e - f - t).toNat / n : Nat) : ℚ) ≤
      (m * 2 ^ (e - f - t).toNat : Nat) / n := Nat.cast_div_le
  rw [Nat.shiftLeft_eq, shift, ← mul_assoc, div_mul_eq_mul_div]
  push_cast at floor
  exact mul_le_mul_of_nonneg_right floor (zpow_pos two_pos t).le

theorem IsPositive.div_vanishes (left : IsPositive x v) (right : Is y w)
    (range : 0 ≤ j ∧ j ≤ 1000) (small : v / w < 2 ^ (-(j + 1))) :
    Vanishes j .positive (x / y).toModel.unpack := by
  obtain ⟨m, e, positive, unpacked, rfl⟩ := left
  obtain ⟨n, f, positive', unpacked', low, high, _, _, rfl⟩ := right
  have denominator : (n : ℚ) < 2 ^ (53 : ℤ) := by exact_mod_cast high
  have nonzero : (0 : ℚ) < n := by exact_mod_cast positive'
  rw [quotient_eq] at small
  have order : m.log2 + (e - f - 53) < -(j + 1) := by
    refine exponent_of_lt positive (lt_of_le_of_lt ?_ small)
    rw [zpow_sub₀ two_ne_zero (e - f) 53, ← mul_div_assoc, div_mul_eq_mul_div]
    exact div_le_div_of_nonneg_left (mul_pos (by exact_mod_cast positive) (zpow_pos two_pos _)).le
      nonzero denominator.le
  have target : (divCore binary64 m e n f).2.1 ≤ -(j + 1) := by
    simp only [divCore, Format.targetExponent, totalExponent, Format.mantissaBits,
      Format.minExponent, log2_eq_of_bounds low high]
    norm_num
    omega
  rw [unpack_div, unpacked, unpacked']
  exact (vanishes_round range target ((divCore_le m n e f).trans_lt small)).packed range

theorem Vanishes.mono {i : ℤ} {u : UnpackedFloat} (vanishes : Vanishes i sign u) (order : j ≤ i) :
    Vanishes j sign u := by
  rcases vanishes with zero | ⟨m, e, positive, finite, small⟩
  · exact .inl zero
  · exact .inr ⟨m, e, positive, finite,
      small.trans_le (zpow_le_zpow_right₀ one_le_two (by omega))⟩

theorem unpack_zero_mul (zero : x.toModel.unpack = .zero .positive) (right : Is y w) :
    (x * y).toModel.unpack = .zero .positive := by
  obtain ⟨n, f, positive, unpacked, _⟩ := right
  rw [unpack_mul, zero, unpacked]
  exact unpack_pack_zero .positive

theorem unpack_zero_div (zero : x.toModel.unpack = .zero .positive) (right : Is y w) :
    (x / y).toModel.unpack = .zero .positive := by
  obtain ⟨n, f, positive, unpacked, _⟩ := right
  rw [unpack_div, zero, unpacked]
  exact unpack_pack_zero .positive

theorem Vanishes.mul_one (left : Vanishes (j + 1) .positive x.toModel.unpack) (right : Is y 1)
    (range : 0 ≤ j ∧ j ≤ 1000) : Vanishes j .positive (x * y).toModel.unpack := by
  rcases left with zero | ⟨m, e, positive, finite, small⟩
  · exact .inl (unpack_zero_mul zero right)
  · exact IsPositive.mul_vanishes ⟨m, e, positive, finite, rfl⟩ right range (by simpa using small)

theorem Vanishes.div {i : ℤ} (left : Vanishes i .positive x.toModel.unpack) (right : Is y w)
    (range : 0 ≤ j ∧ j ≤ 1000) (large : 2 ^ (j + 1 - i) ≤ w) :
    Vanishes j .positive (x / y).toModel.unpack := by
  rcases left with zero | ⟨m, e, positive, finite, small⟩
  · exact .inl (unpack_zero_div zero right)
  · refine IsPositive.div_vanishes ⟨m, e, positive, finite, rfl⟩ right range ?_
    rw [div_lt_iff₀ right.pos]
    calc (m : ℚ) * 2 ^ e < 2 ^ (-i) := small
      _ = 2 ^ (-(j + 1)) * 2 ^ (j + 1 - i) := by
        rw [← zpow_add₀ two_ne_zero]
        congr 1
        omega
      _ ≤ 2 ^ (-(j + 1)) * w := mul_le_mul_of_nonneg_left large (zpow_pos two_pos _).le

end Arithmetic

end Vanishes

end Formulary.Binary
