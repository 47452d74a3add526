import Formulary.Proofs.Binary
import Formulary.Proofs.Numeral

/-!
How close the number that is read comes to the one that a literal denotes. Digits that find no
room are left out, and the power of ten costs two roundings.
-/

namespace Formulary

namespace Decimal

theorem digitValue_le {c : Char} (digit : isDigit c = true) : digitValue c ≤ 9 := by
  unfold isDigit at digit
  rw [Bool.and_eq_true, decide_eq_true_eq, decide_eq_true_eq] at digit
  have greatest : c.toNat ≤ '9'.toNat := digit.2
  unfold digitValue
  have code : '9'.toNat = '0'.toNat + 9 := rfl
  omega

theorem eq_zero_of_digitValue {c : Char} (digit : isDigit c = true) (zero : digitValue c = 0) :
    c = '0' := by
  unfold isDigit at digit
  rw [Bool.and_eq_true, decide_eq_true_eq, decide_eq_true_eq] at digit
  have least : '0'.toNat ≤ c.toNat := digit.1
  unfold digitValue at zero
  exact Char.toNat_inj.1 (by omega)

theorem valueOfDigits_append (front digits : List Char) (higher : Nat) :
    valueOfDigits (front ++ digits) higher = valueOfDigits digits (valueOfDigits front higher) :=
  List.foldl_append

theorem valueOfDigits_bounds {digits : List Char} (only : ∀ c ∈ digits, isDigit c = true)
    (higher : Nat) : higher * 10 ^ digits.length ≤ valueOfDigits digits higher ∧
      valueOfDigits digits higher < (higher + 1) * 10 ^ digits.length := by
  induction digits generalizing higher with
  | nil => simp [valueOfDigits]
  | cons c digits ih =>
      obtain ⟨digit, only⟩ := List.forall_mem_cons.1 only
      have least := digitValue_le digit
      obtain ⟨above, below⟩ := ih only (10 * higher + digitValue c)
      have unit := Nat.one_le_pow digits.length 10 (by decide)
      rw [List.length_cons, pow_succ]
      change _ ≤ valueOfDigits digits (10 * higher + digitValue c) ∧
        valueOfDigits digits (10 * higher + digitValue c) < _
      constructor <;> nlinarith

namespace Literal

def significand (literal : Literal) : Nat :=
  valueOfDigits (literal.whole ++ literal.fraction.getD []) 0

def power (literal : Literal) : ℤ :=
  literal.exponent.elim 0 Exponent.value - (literal.fraction.getD []).length

def exact (literal : Literal) : ℚ :=
  literal.significand * 10 ^ literal.power

end Literal

end Decimal

namespace Json

open Binary

structure Kept (value kept dropped : Nat) : Prop where
  fits : kept ≤ greatestSignificand
  above : kept * 10 ^ dropped ≤ value
  below : value < (kept + 1) * 10 ^ dropped
  wide : dropped ≠ 0 → 2 ^ 60 ≤ kept

theorem kept_of_accumulate {digits : List Char} {significand : Nat}
    (only : ∀ c ∈ digits, Decimal.isDigit c = true) (fits : significand ≤ greatestSignificand) :
    Kept (Decimal.valueOfDigits digits significand) (accumulate significand digits).1
        (accumulate significand digits).2 ∧
      (accumulate significand digits).2 ≤ digits.length := by
  induction digits generalizing significand with
  | nil => exact ⟨⟨fits, by simp [accumulate, Decimal.valueOfDigits],
      by simp [accumulate, Decimal.valueOfDigits], nofun⟩, Nat.le_refl 0⟩
  | cons c digits ih =>
      have least := Decimal.digitValue_le (only c List.mem_cons_self)
      have tail := fun d within => only d (List.mem_cons_of_mem c within)
      obtain ⟨above, below⟩ := Decimal.valueOfDigits_bounds only significand
      unfold accumulate
      dsimp only
      split
      · rename_i full
        refine ⟨⟨fits, above, below, fun _ => ?_⟩, Nat.le_refl _⟩
        rw [greatestSignificand] at full
        dsimp only
        omega
      · rename_i room
        obtain ⟨kept, short⟩ := ih tail (Nat.not_lt.1 room)
        exact ⟨kept, Nat.le_succ_of_le short⟩

theorem Kept.eq {value kept : Nat} (all : Kept value kept 0) : kept = value := by
  have above := all.above
  have below := all.below
  simp only [pow_zero, mul_one] at above below
  omega

theorem near_of_between {kept : Nat} {unit v w : ℚ} (wide : 2 ^ 60 ≤ kept) (positive : 0 < unit)
    (above : kept * unit ≤ v) (below : v ≤ (kept + 1) * unit) (above' : kept * unit ≤ w)
    (below' : w ≤ (kept + 1) * unit) : Near 1 v w := by
  have wide : (2 ^ 60 : ℚ) * unit ≤ kept * unit :=
    mul_le_mul_of_nonneg_right (by exact_mod_cast wide) positive.le
  constructor <;> rw [pow_one, slack] <;> linarith

theorem between_scaled {least value count : Nat} {power whole : ℤ} (sum : whole = count + power)
    (above : least * 10 ^ count ≤ value) (below : value ≤ (least + 1) * 10 ^ count) :
    (least : ℚ) * 10 ^ whole ≤ value * 10 ^ power ∧
      (value : ℚ) * 10 ^ power ≤ (least + 1) * 10 ^ whole := by
  have ten : (10 : ℚ) ≠ 0 := by norm_num
  have unit : (0 : ℚ) < 10 ^ power := by positivity
  have above : (least * 10 ^ count : ℚ) ≤ value := by exact_mod_cast above
  have below : (value : ℚ) ≤ (least + 1) * 10 ^ count := by exact_mod_cast below
  rw [sum, zpow_add₀ ten, zpow_natCast, ← mul_assoc, ← mul_assoc]
  exact ⟨mul_le_mul_of_nonneg_right above unit.le, mul_le_mul_of_nonneg_right below unit.le⟩

theorem Kept.near {value kept dropped : Nat} {shift power : ℤ} (all : Kept value kept dropped)
    (cut : dropped ≠ 0) (sum : power = dropped + shift) :
    0 < kept ∧ Near 1 (value * 10 ^ shift) (kept * 10 ^ power) := by
  have wide := all.wide cut
  have unit : (0 : ℚ) < 10 ^ power := by positivity
  obtain ⟨low, high⟩ := between_scaled sum all.above all.below.le
  exact ⟨by omega, near_of_between wide unit low high le_rfl
    (mul_le_mul_of_nonneg_right (lt_add_one _).le unit.le)⟩

theorem Kept.near_behind {whole kept dropped final unused : Nat} {places : List Char}
    {shift power : ℤ} (first : Kept whole kept dropped) (cut : dropped ≠ 0)
    (only : ∀ c ∈ places, Decimal.isDigit c = true)
    (second : Kept (Decimal.valueOfDigits places kept) final unused)
    (short : unused ≤ places.length) (sum : power = (dropped + unused : Nat) + shift) :
    0 < final ∧
      Near 1 (Decimal.valueOfDigits places whole * 10 ^ shift) (final * 10 ^ power) := by
  have wide := first.wide cut
  obtain ⟨above, below⟩ := Decimal.valueOfDigits_bounds only whole
  obtain ⟨above', below'⟩ := Decimal.valueOfDigits_bounds only kept
  -- Both lie between `kept` and its successor, with as many zeros behind as digits follow.
  obtain ⟨rest, length⟩ := Nat.exists_eq_add_of_le short
  rw [length] at above below above' below'
  have room : 0 < 10 ^ unused := by positivity
  have least : kept * 10 ^ rest ≤ final := by
    have bound := above'.trans_lt second.below
    rw [Nat.add_comm unused, pow_add, ← mul_assoc] at bound
    exact Nat.le_of_lt_succ (Nat.lt_of_mul_lt_mul_right bound)
  have most : final ≤ (kept + 1) * 10 ^ rest := by
    have bound := second.above.trans below'.le
    rw [Nat.add_comm unused, pow_add, ← mul_assoc] at bound
    exact Nat.le_of_mul_le_mul_right bound room
  have least' : kept * 10 ^ (dropped + (unused + rest)) ≤ Decimal.valueOfDigits places whole := by
    rw [pow_add, ← mul_assoc]
    exact (Nat.mul_le_mul_right _ first.above).trans above
  have most' : Decimal.valueOfDigits places whole ≤
      (kept + 1) * 10 ^ (dropped + (unused + rest)) := by
    rw [pow_add, ← mul_assoc]
    exact below.le.trans (Nat.mul_le_mul_right _ first.below)
  generalize total : (rest : ℤ) + power = zeros
  obtain ⟨low, high⟩ := between_scaled total.symm least most
  have total' : zeros = (dropped + (unused + rest) : Nat) + shift := by omega
  obtain ⟨low', high'⟩ := between_scaled total' least' most'
  have something : 0 < final := by
    have := Nat.le_mul_of_pos_right kept (show 0 < 10 ^ rest by positivity)
    omega
  exact ⟨something, near_of_between wide (by positivity) low' high' low high⟩

section Carried

variable {literal : Decimal.Literal}

def carried (literal : Decimal.Literal) : Nat × ℤ :=
  let first := accumulate 0 literal.whole
  let places := literal.fraction.getD []
  let second := accumulate first.1 places
  (second.1, (first.2 : ℤ) - (places.length - second.2 : Nat) +
    literal.exponent.elim 0 Decimal.Exponent.value)

theorem WellFormed.digits (formed : WellFormed literal) :
    (∀ c ∈ literal.whole, Decimal.isDigit c = true) ∧
      ∀ c ∈ literal.fraction.getD [], Decimal.isDigit c = true := by
  refine ⟨formed.whole.2, ?_⟩
  cases fraction : literal.fraction with
  | none => exact nofun
  | some places => exact (formed.fraction places fraction).2

theorem carried_of_le (fits : literal.significand ≤ greatestSignificand) :
    carried literal = (literal.significand, literal.power) := by
  have parts : literal.significand = Decimal.valueOfDigits (literal.fraction.getD [])
      (Decimal.valueOfDigits literal.whole 0) := Decimal.valueOfDigits_append _ _ _
  rw [parts] at fits
  have whole := accumulate_of_le ((le_valueOfDigits _ _).trans fits)
  unfold carried Decimal.Literal.power
  simp only [whole, accumulate_of_le fits, parts, Nat.cast_zero, Nat.sub_zero, Prod.mk.injEq,
    true_and]
  omega

theorem carried_near (formed : WellFormed literal) : (carried literal).1 ≤ greatestSignificand ∧
    (literal.significand = 0 ∨ 0 < (carried literal).1 ∧
      Near 1 literal.exact ((carried literal).1 * 10 ^ (carried literal).2)) := by
  obtain ⟨only, only'⟩ := formed.digits
  have parts : literal.significand = Decimal.valueOfDigits (literal.fraction.getD [])
      (Decimal.valueOfDigits literal.whole 0) := Decimal.valueOfDigits_append _ _ _
  obtain ⟨first, _⟩ := kept_of_accumulate only (Nat.zero_le greatestSignificand)
  obtain ⟨second, short⟩ := kept_of_accumulate only' first.fits
  refine ⟨second.fits, ?_⟩
  unfold carried Decimal.Literal.exact Decimal.Literal.power
  rw [parts]
  generalize literal.exponent.elim 0 Decimal.Exponent.value = shift
  generalize literal.fraction.getD [] = places at only' second short ⊢
  generalize Decimal.valueOfDigits literal.whole 0 = whole at first ⊢
  dsimp only
  generalize accumulate 0 literal.whole = kept at first second short ⊢
  obtain ⟨kept, dropped⟩ := kept
  generalize accumulate kept places = final at second short ⊢
  obtain ⟨final, unused⟩ := final
  dsimp only at *
  rcases Nat.eq_zero_or_pos dropped with rfl | cut
  · obtain rfl := first.eq
    rcases Nat.eq_zero_or_pos unused with rfl | cut
    · obtain rfl := second.eq
      refine (Nat.eq_zero_or_pos _).imp_right fun something => ⟨something, ?_⟩
      have same : shift - (places.length : ℤ) =
          ((0 : Nat) : ℤ) - (places.length - 0 : Nat) + shift := by omega
      rw [same]
      exact .refl 1 (by positivity)
    · exact .inr (second.near cut.ne' (by omega))
  · exact .inr (first.near_behind cut.ne' only' second short (by omega))

end Carried

/-! The power of ten that is applied to the digits that are kept, with no more than two roundings. -/

/-- Whether a number is what `v` comes to by at most `k` roundings, or has vanished with it. -/
inductive Approximates (k : Nat) (x : Float) (v : ℚ) : Prop
  | zero (zero : x.toModel.unpack = .zero .positive) (same : v = 0)
  | near {u : ℚ} (is : Is x u) (near : Near k v u)
  | vanished (vanishes : Vanishes 700 .positive x.toModel.unpack) (positive : 0 < v)
      (small : v * slack ^ k < 2 ^ (-800 : ℤ))

section Scale

variable {x y : Float} {v : ℚ} {power : ℤ}

theorem scale_of_zero (zero : x.toModel.unpack = .zero .positive) (power : ℤ) :
    ∃ y, scale x power = some y ∧ y.toModel.unpack = .zero .positive := by
  rw [scale]
  split
  · rename_i small
    obtain ⟨w, is, _⟩ := is_power small
    dsimp only
    split
    · have product := unpack_zero_mul zero is
      have finite : (x * Float.ofScientific 1 false power.natAbs).isInf = false :=
        congrArg Float.Model.UnpackedFloat.isInf product
      rw [if_neg (by rw [finite]; exact Bool.false_ne_true)]
      exact ⟨_, rfl, product⟩
    · exact ⟨_, rfl, unpack_zero_div zero is⟩
  · rw [if_pos (beq_zero_of_unpack zero)]
    exact ⟨x, rfl, zero⟩

theorem least_greatest_power : (2 : ℚ) ^ (1000 : ℤ) ≤ 10 ^ 308 := by
  have bound : 2 ^ 1000 ≤ 10 ^ 308 := by decide +kernel
  exact_mod_cast bound

theorem scale_vanishes (vanishes : Vanishes 800 .positive x.toModel.unpack) (order : power ≤ 0)
    (scaled : scale x power = some y) : Vanishes 799 .positive y.toModel.unpack := by
  induction size : (-power).toNat using Nat.strongRecOn generalizing x power with
  | ind _ ih =>
      rw [scale] at scaled
      split at scaled
      · rename_i small
        obtain ⟨w, is, rounds⟩ := is_power small
        dsimp only at scaled
        split at scaled
        · obtain rfl : power = 0 := by omega
          obtain rfl : w = 1 := rounds.exact 1 0 (by simp) (by norm_num)
          split at scaled
          · cases scaled
          · cases scaled
            exact vanishes.mul_one is (by norm_num)
        · cases scaled
          have large := rounds.least 0 (by
            rw [zpow_zero]
            exact one_le_pow₀ (by norm_num))
          exact vanishes.div is (by norm_num) large
      · rename_i large
        split at scaled
        · cases scaled
          exact vanishes.mono (by norm_num)
        · split at scaled
          · cases scaled
          · obtain ⟨w, is, rounds⟩ := is_power (Nat.le_refl 308)
            have wide := rounds.least 1000 least_greatest_power
            have wide : (2 : ℚ) ^ (1 : ℤ) ≤ w :=
              (zpow_le_zpow_right₀ one_le_two (by norm_num)).trans wide
            exact ih _ (by omega) (vanishes.div is (by norm_num) wide) (by omega) scaled rfl

section Power

variable {w p : ℚ} (is : Is x v) (right : Is y w) (rounds : Rounds p w)

include is right rounds

theorem mul_approximates (least : 1 ≤ v) (one : 1 ≤ p) (finite : ¬ (x * y).isInf = true) :
    Approximates 2 (x * y) (v * p) := by
  have normal : (2 : ℚ) ^ (-1022 : ℤ) ≤ v * w :=
    (zpow_le_one_of_nonpos₀ one_le_two (by norm_num)).trans
      (one_le_mul_of_one_le_of_one_le least (rounds.least 0 (by simpa using one)))
  have near := (Near.refl 0 is.pos.le).mul rounds.toNear is.pos is.pos (by linarith) right.pos
  obtain ⟨u, rounded, product | ⟨infinite, _⟩⟩ := is.mul right normal
  · exact .near product (near.trans rounded.toNear)
  · exact absurd infinite finite

theorem div_approximates (most : v ≤ 2 ^ (64 : ℤ)) (one : 1 ≤ p) :
    Approximates 2 (x / y) (v * p⁻¹) := by
  have ten : 0 < p := by linarith
  have positive : 0 < v * p⁻¹ := mul_pos is.pos (inv_pos.2 ten)
  have near : Near 1 (v * p⁻¹) (v / w) := by
    rw [div_eq_mul_inv]
    exact (Near.refl 0 is.pos.le).mul (rounds.toNear.inv ten right.pos) is.pos is.pos
      (inv_pos.2 ten) (inv_pos.2 right.pos)
  rcases lt_or_ge (v / w) (2 ^ (-900 : ℤ)) with tiny | normal
  · have ordered : (2 : ℚ) ^ (-(800 + 1) : ℤ) < 2 ^ (-800 : ℤ) :=
      (zpow_lt_zpow_iff_right₀ one_lt_two).2 (by norm_num)
    have below : (2 : ℚ) ^ (-900 : ℤ) < 2 ^ (-(800 + 1) : ℤ) :=
      (zpow_lt_zpow_iff_right₀ one_lt_two).2 (by norm_num)
    have vanishes := is.isPositive.div_vanishes right (by norm_num) (tiny.trans below)
    have kept := near.mono positive.le (div_pos is.pos right.pos).le (Nat.le_succ 1)
    exact .vanished (vanishes.mono (by norm_num)) positive
      (kept.above.trans_lt (tiny.trans (below.trans ordered)))
  · have bounded : v / w ≤ 2 ^ (1000 : ℤ) :=
      ((div_le_self is.pos.le (rounds.least 0 (by simpa using one))).trans most).trans
        (zpow_le_zpow_right₀ one_le_two (by norm_num))
    have enough : (2 : ℚ) ^ (-1020 : ℤ) ≤ 2 ^ (-900 : ℤ) :=
      zpow_le_zpow_right₀ one_le_two (by norm_num)
    obtain ⟨u, quotient, rounded⟩ := (is.div right (enough.trans normal)).is bounded
    exact .near quotient (near.trans rounded.toNear)

end Power

theorem scaled_lt (is : Is x v) (most : v ≤ 2 ^ (64 : ℤ)) (below : power ≤ -308) :
    v * 10 ^ power * slack ^ 2 < 2 ^ (-800 : ℤ) := by
  have positive : 0 < v * 10 ^ power := mul_pos is.pos (by positivity)
  have power_le : (10 : ℚ) ^ power ≤ (2 ^ (1000 : ℤ))⁻¹ :=
    calc (10 : ℚ) ^ power
      _ ≤ 10 ^ (-308 : ℤ) := zpow_le_zpow_right₀ (by norm_num) below
      _ = (10 ^ 308)⁻¹ := zpow_neg _ _
      _ ≤ (2 ^ (1000 : ℤ))⁻¹ := inv_anti₀ (zpow_pos two_pos _) least_greatest_power
  calc v * 10 ^ power * slack ^ 2
    _ ≤ v * 10 ^ power := mul_le_of_le_one_right positive.le (slack_pow_le_one 2)
    _ ≤ v * (2 ^ (1000 : ℤ))⁻¹ := mul_le_mul_of_nonneg_left power_le is.pos.le
    _ ≤ 2 ^ (64 : ℤ) * (2 ^ (1000 : ℤ))⁻¹ :=
        mul_le_mul_of_nonneg_right most (inv_pos.2 (zpow_pos two_pos _)).le
    _ = 2 ^ (64 + -1000 : ℤ) := by rw [zpow_add₀ two_ne_zero, zpow_neg]
    _ < 2 ^ (-800 : ℤ) := (zpow_lt_zpow_iff_right₀ one_lt_two).2 (by norm_num)

theorem scale_approximates (is : Is x v) (least : 1 ≤ v) (most : v ≤ 2 ^ (64 : ℤ))
    (scaled : scale x power = some y) : Approximates 2 y (v * 10 ^ power) := by
  rw [scale] at scaled
  split at scaled
  · rename_i small
    obtain ⟨w, right, rounds⟩ := is_power small
    have one : (1 : ℚ) ≤ 10 ^ power.natAbs := one_le_pow₀ (by norm_num)
    dsimp only at scaled
    split at scaled
    · rename_i upward
      have same : (10 : ℚ) ^ power = 10 ^ power.natAbs := by
        rw [← zpow_natCast, Int.natAbs_of_nonneg upward]
      split at scaled
      · cases scaled
      · rename_i finite
        cases scaled
        rw [same]
        exact mul_approximates is right rounds least one finite
    · rename_i downward
      cases scaled
      have same : (10 : ℚ) ^ power = (10 ^ power.natAbs)⁻¹ := by
        rw [← zpow_natCast, ← zpow_neg]
        congr 1
        omega
      rw [same]
      exact div_approximates is right rounds most one
  · rename_i large
    rw [if_neg (by rw [is.ne_zero]; exact Bool.false_ne_true)] at scaled
    split at scaled
    · cases scaled
    · obtain ⟨w, right, rounds⟩ := is_power (Nat.le_refl 308)
      have wide := rounds.least 1000 least_greatest_power
      have room : v < 2 ^ (-(800 + 1) : ℤ) * 2 ^ (1000 : ℤ) := by
        rw [← zpow_add₀ two_ne_zero]
        exact most.trans_lt ((zpow_lt_zpow_iff_right₀ one_lt_two).2 (by norm_num))
      have tiny : v / w < 2 ^ (-(800 + 1) : ℤ) := by
        rw [div_lt_iff₀ right.pos]
        exact room.trans_le (mul_le_mul_of_nonneg_left wide (zpow_pos two_pos _).le)
      have vanishes := is.isPositive.div_vanishes right (by norm_num) tiny
      exact .vanished ((scale_vanishes vanishes (by omega) scaled).mono (by norm_num))
        (mul_pos is.pos (by positivity)) (scaled_lt is most (by omega))

section Short

variable {digits count : Nat} (positive : 0 < digits)

include positive

theorem lt_sixteen_of_product (fits : digits * 10 ^ count < 2 ^ 53) : count < 16 := by
  by_contra above
  have least : 10 ^ 16 ≤ 10 ^ count := Nat.pow_le_pow_right (by decide) (Nat.not_lt.1 above)
  have product := Nat.le_mul_of_pos_left (10 ^ count) positive
  omega

theorem scale_of_product (fits : digits * 10 ^ count < 2 ^ 53) :
    ∃ y, scale digits.toUInt64.toFloat count = some y ∧ Is y (digits * 10 ^ count) := by
  have unit := Nat.one_le_pow count 10 (by decide)
  have narrow : digits < 2 ^ 53 := lt_of_le_of_lt (Nat.le_mul_of_pos_right _ unit) fits
  have small : count ≤ 22 := (lt_sixteen_of_product positive fits).le.trans (by decide)
  have least : (1 : ℚ) ≤ digits * 10 ^ count :=
    one_le_mul_of_one_le_of_one_le (by exact_mod_cast positive) (by exact_mod_cast unit)
  have bounded : (digits : ℚ) * 10 ^ count ≤ 2 ^ (1000 : ℤ) := by
    have fits : (digits * 10 ^ count : ℚ) ≤ 2 ^ (53 : ℤ) := by exact_mod_cast fits.le
    exact fits.trans (zpow_le_zpow_right₀ one_le_two (by norm_num))
  obtain ⟨u, product, rounded⟩ := ((is_ofNat_exact positive narrow).mul (is_power_exact small)
    ((zpow_le_one_of_nonpos₀ one_le_two (by norm_num)).trans least)).is bounded
  obtain rfl := rounded.exact (digits * 10 ^ count) 0 (by simp) fits
  refine ⟨_, ?_, product⟩
  rw [scale, if_pos (by omega)]
  dsimp only [Int.natAbs_natCast]
  rw [if_pos (by omega), if_neg (by rw [product.not_isInf]; exact Bool.false_ne_true)]

theorem scale_of_quotient (narrow : digits < 2 ^ 53) (downward : count ≠ 0) (small : count ≤ 22) :
    ∃ y u, scale digits.toUInt64.toFloat (-count) = some y ∧ Is y u ∧
      ∀ n : ℤ, u = n ↔ (digits : ℚ) / 10 ^ count = n := by
  have ten : (0 : ℚ) < 10 ^ count := by positivity
  have one : (1 : ℚ) ≤ digits := by exact_mod_cast positive
  have limit : (digits : ℚ) < 2 ^ 53 := by exact_mod_cast narrow
  have normal : (2 : ℚ) ^ (-1020 : ℤ) ≤ digits / 10 ^ count := by
    have power : (10 : ℚ) ^ count ≤ 2 ^ (74 : ℤ) :=
      (pow_le_pow_right₀ (by norm_num) small).trans (by norm_num)
    rw [le_div_iff₀ ten]
    calc (2 : ℚ) ^ (-1020 : ℤ) * 10 ^ count
      _ ≤ 2 ^ (-1020 : ℤ) * 2 ^ (74 : ℤ) :=
          mul_le_mul_of_nonneg_left power (zpow_pos two_pos _).le
      _ = 2 ^ (-946 : ℤ) := by rw [← zpow_add₀ two_ne_zero]; rfl
      _ ≤ 1 := zpow_le_one_of_nonpos₀ one_le_two (by norm_num)
      _ ≤ digits := one
  have bounded : (digits : ℚ) / 10 ^ count ≤ 2 ^ (1000 : ℤ) :=
    ((div_le_self (by linarith) (one_le_pow₀ (by norm_num))).trans limit.le).trans
      (zpow_le_zpow_right₀ one_le_two (show (53 : ℤ) ≤ 1000 by norm_num))
  obtain ⟨u, quotient, rounded⟩ :=
    ((is_ofNat_exact positive narrow).div (is_power_exact small) normal).is bounded
  refine ⟨_, u, ?_, quotient, ?_⟩
  · rw [scale, if_pos (by omega)]
    dsimp only
    rw [if_neg (by omega), Int.natAbs_neg, Int.natAbs_natCast]
  · have rounded : Rounds (digits / (10 ^ count : Nat)) u := by exact_mod_cast rounded
    exact_mod_cast rounded.int_iff narrow (by positivity)

/-- A significand of 53 bits and a power of ten that is exact are rounded once, if at all. -/
theorem scale_of_short (least : -22 ≤ power) (fits : digits * 10 ^ power.toNat < 2 ^ 53) :
    ∃ y u, scale digits.toUInt64.toFloat power = some y ∧ Is y u ∧
      ∀ n : ℤ, u = n ↔ (digits : ℚ) * 10 ^ power = n := by
  obtain ⟨count, rfl | rfl⟩ := power.eq_nat_or_neg
  · rw [Int.toNat_natCast] at fits
    obtain ⟨y, scaled, is⟩ := scale_of_product positive fits
    exact ⟨y, _, scaled, is, fun n => by rw [zpow_natCast]⟩
  · rcases Nat.eq_zero_or_pos count with rfl | downward
    · obtain ⟨y, scaled, is⟩ := @scale_of_product digits 0 positive (by simpa using fits)
      exact ⟨y, _, scaled, is, fun n => by simp⟩
    · have unit := Nat.one_le_pow (-(count : ℤ)).toNat 10 (by decide)
      obtain ⟨y, u, scaled, is, whole⟩ := @scale_of_quotient digits count positive
        (lt_of_le_of_lt (Nat.le_mul_of_pos_right _ unit) fits) downward.ne' (by omega)
      refine ⟨y, u, scaled, is, fun n => ?_⟩
      rw [whole, zpow_neg, zpow_natCast, div_eq_mul_inv]

end Short

theorem Approximates.of_near {j k : Nat} {u : ℚ} (approximates : Approximates k x v)
    (near : Near j u v) (positive : 0 < u) : Approximates (j + k) x u := by
  cases approximates with
  | zero zero same =>
      exact absurd same (near.pos positive).ne'
  | near is later => exact .near is (near.trans later)
  | vanished vanishes _ small =>
      refine .vanished vanishes positive (lt_of_le_of_lt ?_ small)
      rw [pow_add, ← mul_assoc]
      exact mul_le_mul_of_nonneg_right near.above (pow_pos slack_pos k).le

end Scale

namespace Numeral

def exact (numeral : Numeral) : ℚ :=
  if numeral.negative then -numeral.literal.exact else numeral.literal.exact

def Plain (numeral : Numeral) : Prop :=
  numeral.literal.fraction = none ∧ numeral.literal.exponent = none

/-- Whether a numeral has fewer digits than could make up for an exponent that is out of range, if
it has such an exponent. -/
def Moderate (numeral : Numeral) : Prop :=
  numeral.literal.exponent.any outsized = true →
    (numeral.literal.whole ++ numeral.literal.fraction.getD []).length + 1000 ≤ greatestExponent

end Numeral

section Number

variable {literal : Decimal.Literal} {negative : Bool} {number : Number}

theorem lt_of_outsized {exponent : Decimal.Exponent} (large : outsized exponent = true) :
    greatestExponent < Decimal.valueOfDigits exponent.digits 0 := by
  unfold outsized excess? at large
  obtain ⟨count, found⟩ := Option.isSome_iff_exists.1 large
  have past := List.find?_some found
  rw [decide_eq_true_eq] at past
  have split := Decimal.valueOfDigits_append (exponent.digits.take (count + 1))
    (exponent.digits.drop (count + 1)) 0
  rw [List.take_append_drop] at split
  rw [split]
  exact past.trans_le (le_valueOfDigits _ _)

theorem isZero_iff (formed : WellFormed literal) :
    isZero literal.whole literal.fraction = true ↔ literal.significand = 0 := by
  have only : ∀ c ∈ literal.whole ++ literal.fraction.getD [], Decimal.isDigit c = true :=
    List.forall_mem_append.2 formed.digits
  unfold isZero Decimal.Literal.significand
  generalize literal.whole ++ literal.fraction.getD [] = digits at only ⊢
  induction digits with
  | nil => exact iff_of_true rfl rfl
  | cons c digits ih =>
      obtain ⟨digit, only⟩ := List.forall_mem_cons.1 only
      rw [List.all_cons, Bool.and_eq_true, decide_eq_true_eq]
      refine (and_congr_right' (ih only)).trans ?_
      change _ ↔ Decimal.valueOfDigits digits (0 + Decimal.digitValue c) = 0
      constructor
      · rintro ⟨rfl, zero⟩
        exact zero
      · intro zero
        have lower := le_valueOfDigits digits (0 + Decimal.digitValue c)
        rw [zero] at lower
        have none := Nat.le_zero.1 lower
        rw [none] at zero
        exact ⟨Decimal.eq_zero_of_digitValue digit (by omega), zero⟩

theorem exact_of_outsized (formed : WellFormed literal) {exponent : Decimal.Exponent}
    (written : literal.exponent = some exponent) (large : outsized exponent = true)
    (sign : exponent.sign = some '-')
    (few : (literal.whole ++ literal.fraction.getD []).length + 1000 ≤ greatestExponent) :
    literal.exact < 2 ^ (-800 : ℤ) := by
  have only : ∀ c ∈ literal.whole ++ literal.fraction.getD [], Decimal.isDigit c = true :=
    List.forall_mem_append.2 formed.digits
  have below := (Decimal.valueOfDigits_bounds only 0).2
  rw [zero_add, one_mul] at below
  have past := lt_of_outsized large
  have power : literal.power ≤ -(greatestExponent : ℤ) := by
    unfold Decimal.Literal.power Decimal.Exponent.value
    rw [written, Option.elim, if_pos sign]
    omega
  unfold Decimal.Literal.exact Decimal.Literal.significand
  generalize literal.whole ++ literal.fraction.getD [] = digits at below few ⊢
  have below : (Decimal.valueOfDigits digits 0 : ℚ) < 10 ^ (digits.length : ℤ) := by
    exact_mod_cast below
  calc (Decimal.valueOfDigits digits 0 : ℚ) * 10 ^ literal.power
    _ < 10 ^ (digits.length : ℤ) * 10 ^ literal.power :=
        mul_lt_mul_of_pos_right below (by positivity)
    _ = 10 ^ (digits.length + literal.power) := (zpow_add₀ (by norm_num) _ _).symm
    _ ≤ 10 ^ (-1000 : ℤ) := zpow_le_zpow_right₀ (by norm_num) (by omega)
    _ = ((10 : ℚ) ^ (1000 : ℤ))⁻¹ := zpow_neg _ _
    _ ≤ ((2 : ℚ) ^ (1000 : ℤ))⁻¹ := inv_anti₀ (zpow_pos two_pos _)
        (zpow_le_zpow_left₀ (by norm_num) two_pos.le (by norm_num))
    _ = 2 ^ (-1000 : ℤ) := (zpow_neg _ _).symm
    _ ≤ 2 ^ (-800 : ℤ) := zpow_le_zpow_right₀ one_le_two (by norm_num)

theorem numberOf_eq (negative : Bool) (literal : Decimal.Literal) :
    numberOf negative literal.whole literal.fraction literal.exponent =
      if literal.fraction.isNone ∧ literal.exponent.isNone ∧ (accumulate 0 literal.whole).2 = 0 then
        if !negative then some (.integer (accumulate 0 literal.whole).1)
        else if (accumulate 0 literal.whole).1 = 0 ∨
            (accumulate 0 literal.whole).1 > greatestMagnitude then
          some (.real (-(accumulate 0 literal.whole).1.toUInt64.toFloat))
        else some (.integer (-(accumulate 0 literal.whole).1))
      else (scale (carried literal).1.toUInt64.toFloat (carried literal).2).map
        fun x => .real (if negative then -x else x) := by
  cases negative <;> rfl

theorem scaled_approximates (formed : WellFormed literal) {y : Float}
    (scaled : scale (carried literal).1.toUInt64.toFloat (carried literal).2 = some y) :
    Approximates 4 y literal.exact := by
  obtain ⟨fits, none | ⟨something, near⟩⟩ := carried_near formed
  · have zero : literal.exact = 0 := by simp [Decimal.Literal.exact, none]
    rw [carried_of_le (by omega), none] at scaled
    obtain ⟨_, same, unpacked⟩ := scale_of_zero unpack_ofNat_zero literal.power
    cases same.symm.trans scaled
    exact .zero unpacked zero
  · rw [greatestSignificand] at fits
    obtain ⟨v, is, rounds⟩ := is_ofNat something (by omega)
    have least : 1 ≤ v := rounds.least 0 (by exact_mod_cast something)
    have most : v ≤ 2 ^ (64 : ℤ) := rounds.most 64 (by
      have fits : (carried literal).1 ≤ 2 ^ 64 := by omega
      exact_mod_cast fits)
    have unit : (0 : ℚ) < 10 ^ (carried literal).2 := by positivity
    have significand : (0 : ℚ) < (carried literal).1 := by exact_mod_cast something
    have product := rounds.toNear.mul (Near.refl 0 unit.le) significand is.pos unit unit
    have positive := near.symm.pos (mul_pos significand unit)
    exact (scale_approximates is least most scaled).of_near (near.trans product) positive

namespace Numeral

variable {numeral : Numeral}

theorem number?_eq (inside : numeral.literal.exponent.any outsized = false) : numeral.number? =
    numberOf numeral.negative numeral.literal.whole numeral.literal.fraction
      numeral.literal.exponent := by
  unfold number? numberFor
  rw [inside, if_neg Bool.false_ne_true]

theorem Plain.inside (plain : numeral.Plain) : numeral.literal.exponent.any outsized = false := by
  rw [plain.2]
  rfl

theorem Plain.exact_literal (plain : numeral.Plain) :
    numeral.literal.exact = numeral.literal.significand := by
  unfold Decimal.Literal.exact Decimal.Literal.power
  rw [plain.1, plain.2]
  simp

theorem Plain.significand (plain : numeral.Plain) :
    numeral.literal.significand = Decimal.valueOfDigits numeral.literal.whole 0 := by
  unfold Decimal.Literal.significand
  rw [plain.1, Option.getD_none, List.append_nil]

theorem number?_of_plain (plain : numeral.Plain)
    (fits : numeral.literal.significand ≤ greatestSignificand) : numeral.number? =
      if numeral.negative = false then some (.integer numeral.literal.significand)
      else if numeral.literal.significand = 0 ∨ numeral.literal.significand > greatestMagnitude then
        some (.real (-numeral.literal.significand.toUInt64.toFloat))
      else some (.integer (-numeral.literal.significand)) := by
  rw [plain.significand] at fits ⊢
  rw [number?_eq plain.inside, numberOf_eq, accumulate_of_le fits, plain.1, plain.2]
  cases numeral.negative <;> rfl

theorem number?_of_scaled (inside : numeral.literal.exponent.any outsized = false)
    (other : ¬ (numeral.Plain ∧ numeral.literal.significand ≤ greatestSignificand)) :
    numeral.number? =
      (scale (carried numeral.literal).1.toUInt64.toFloat (carried numeral.literal).2).map
        fun x => .real (if numeral.negative then -x else x) := by
  rw [number?_eq inside, numberOf_eq, if_neg]
  rintro ⟨fraction, exponent, uncut⟩
  have plain : numeral.Plain :=
    ⟨Option.isNone_iff_eq_none.1 fraction, Option.isNone_iff_eq_none.1 exponent⟩
  obtain ⟨kept, _⟩ := kept_of_accumulate numeral.formed.whole.2 (Nat.zero_le greatestSignificand)
  rw [uncut] at kept
  refine other ⟨plain, ?_⟩
  rw [plain.significand, ← kept.eq]
  exact kept.fits

inductive Renders (numeral : Numeral) : Number → Prop
  | integer {value : ℤ} (same : numeral.exact = value) (least : -9223372036854775808 ≤ value) :
      Renders numeral (.integer value)
  | real {y : Float} (approximates : Approximates 4 y numeral.literal.exact) :
      Renders numeral (.real (if numeral.negative then -y else y))

theorem renders_plain (plain : numeral.Plain)
    (fits : numeral.literal.significand ≤ greatestSignificand)
    (found : numeral.number? = some number) : Renders numeral number := by
  have exact := plain.exact_literal
  rw [number?_of_plain plain fits] at found
  generalize numeral.literal.significand = digits at exact fits found
  rw [greatestSignificand] at fits
  rw [greatestMagnitude] at found
  cases sign : numeral.negative with
  | false =>
      rw [sign, if_pos rfl] at found
      cases found
      exact .integer (by simpa [Numeral.exact, sign] using exact) (by omega)
  | true =>
      rw [sign, if_neg (by decide)] at found
      split at found
      · cases found
        have rendered : Approximates 4 digits.toUInt64.toFloat numeral.literal.exact := by
          rcases Nat.eq_zero_or_pos digits with rfl | something
          · exact .zero unpack_ofNat_zero (by simpa using exact)
          · obtain ⟨v, is, rounds⟩ := is_ofNat something (by omega)
            rw [exact]
            exact .near is (rounds.toNear.mono (Nat.cast_nonneg digits) is.pos.le (by decide))
        have real := Renders.real rendered
        rwa [sign] at real
      · cases found
        exact .integer (by simp [Numeral.exact, sign, exact]) (by omega)

theorem renders_outsized (moderate : numeral.Moderate)
    (large : numeral.literal.exponent.any outsized = true)
    (found : numeral.number? = some number) : Renders numeral number := by
  unfold number? numberFor at found
  rw [if_pos large, Option.ite_none_right_eq_some] at found
  obtain ⟨vanishes, same⟩ := found
  cases same
  refine .real ?_
  rcases Nat.eq_zero_or_pos numeral.literal.significand with none | something
  · exact .zero unpack_zero (by simp [Decimal.Literal.exact, none])
  · rcases vanishes with negative | zero
    · obtain ⟨exponent, written, past⟩ := (Option.any_eq_true _ _).1 large
      rw [written, Option.any_some, decide_eq_true_eq] at negative
      have positive : 0 < numeral.literal.exact :=
        mul_pos (by exact_mod_cast something) (by positivity)
      refine .vanished (.inl unpack_zero) positive (lt_of_le_of_lt ?_
        (exact_of_outsized numeral.formed written past negative (moderate large)))
      exact mul_le_of_le_one_right positive.le (slack_pow_le_one 4)
    · exact absurd ((isZero_iff numeral.formed).1 zero) something.ne'

/-- What a numeral is read as comes close to what it denotes. -/
theorem Moderate.renders (moderate : numeral.Moderate)
    (found : numeral.number? = some number) : Renders numeral number := by
  cases large : numeral.literal.exponent.any outsized with
  | true => exact renders_outsized moderate large found
  | false =>
      by_cases room : numeral.Plain ∧ numeral.literal.significand ≤ greatestSignificand
      · exact renders_plain room.1 room.2 found
      · rw [number?_of_scaled large room, Option.map_eq_some_iff] at found
        obtain ⟨y, scaled, rfl⟩ := found
        exact .real (scaled_approximates numeral.formed scaled)

end Numeral

end Number

end Json
end Formulary
