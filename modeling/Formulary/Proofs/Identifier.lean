import Formulary.Proofs.Approximation
import Formulary.Proofs.Rewriting

/-!
Identifiers that are written as numerals. Plain numerals are read exactly, and so are short ones
with a fraction or an exponent; any other is read as an integer that is close to what it denotes.
-/

namespace Formulary

namespace Json.Numeral

/-- Whether the digits of a numeral without its point fit into 53 bits, also when its exponent adds
zeros to them, and no more than 22 of them are behind the point. -/
def Short (numeral : Numeral) : Prop :=
  numeral.Moderate ∧ -22 ≤ numeral.literal.power ∧
    numeral.literal.significand * 10 ^ numeral.literal.power.toNat < 2 ^ 53

theorem Short.significand_le {numeral : Numeral} (short : numeral.Short) :
    numeral.literal.significand ≤ greatestSignificand := by
  obtain ⟨_, _, fits⟩ := short
  have unit := Nat.one_le_pow numeral.literal.power.toNat 10 (by decide)
  have := Nat.le_mul_of_pos_right numeral.literal.significand unit
  rw [greatestSignificand]
  omega

theorem mem_text {numeral : Numeral} {c : Char} (within : c ∈ numeral.text) :
    Decimal.isDigit c = true ∨ c ∈ ['-', '+', '.', 'e', 'E'] := by
  obtain ⟨negative, literal, formed⟩ := numeral
  obtain ⟨whole, fraction, exponent⟩ := literal
  obtain ⟨wholeDigits, _, fractionDigits, exponentParts⟩ := formed
  simp only [text, Decimal.Literal.text, List.mem_append] at within
  rcases within with sign | (digit | place) | written
  · cases negative <;> simp_all
  · exact .inl (wholeDigits.2 c digit)
  · cases fraction with
    | none => cases place
    | some places =>
        rcases List.mem_cons.1 place with rfl | place
        · exact .inr (by decide)
        · exact .inl ((fractionDigits places rfl).2 c place)
  · cases exponent with
    | none => cases written
    | some exponent =>
        obtain ⟨marked, signed, digits⟩ := exponentParts exponent rfl
        simp only [Option.elim, Decimal.Exponent.text, List.cons_append, List.mem_cons,
          List.mem_append, Option.mem_toList] at written
        rcases written with rfl | sign | digit
        · rcases marked with marked | marked <;> rw [marked] <;> exact .inr (by decide)
        · rcases signed c sign with rfl | rfl <;> exact .inr (by decide)
        · exact .inl (digits.2 c digit)

end Json.Numeral

namespace Reference

variable {numeral : Json.Numeral} {target : Reference} {id : Int}

def idForm (numeral : Json.Numeral) : String :=
  "\x7b\"id\": " ++ .ofList numeral.text ++ "\x7d"

theorem toList_idForm : (idForm numeral).toList =
    '\x7b' :: '"' :: (['i', 'd'] ++ '"' :: ':' :: (' ' :: (numeral.text ++ ['\x7d']))) := by
  simp [idForm]

theorem relax_idForm : relax (idForm numeral).toList = (idForm numeral).toList := by
  have marks : ∀ c ∈ ['-', '+', '.', 'e', 'E'], c ≠ '\'' ∧ c ≠ '\x7b' ∧ c ≠ ',' := by simp
  have ordinary : ∀ c ∈ numeral.text, c ≠ '\'' ∧ c ≠ '\x7b' ∧ c ≠ ',' := by
    intro c within
    rcases Json.Numeral.mem_text within with digit | mark
    · refine ⟨?_, ?_, ?_⟩ <;> rintro rfl <;> cases digit
    · exact marks c mark
  have quoteless : '\'' ∉ numeral.text := fun within => (ordinary _ within).1 rfl
  have openless : '\x7b' ∉ numeral.text := fun within => (ordinary _ within).2.1 rfl
  have commaless : ',' ∉ numeral.text := fun within => (ordinary _ within).2.2 rfl
  have quotes := @relaxQuotes_append [] (idForm numeral).toList (by simp [toList_idForm, quoteless])
  rw [List.append_nil, relaxQuotes_nil, List.append_nil] at quotes
  unfold relax
  rw [quotes, toList_idForm, relaxKeys_cons_of_not_opens]
  · rw [relaxKeys_of_not_hasBareKey (by simp [openless])]
    rintro ⟨front, rest, same, _⟩
    have within : ',' ∈ front ++ ',' :: rest := List.mem_append_right front List.mem_cons_self
    rw [← same] at within
    simp [commaless] at within
  · rintro ⟨_, bare, fits, rest, same⟩
    have unquoted := fits.ne_quote
    cases written : bare.text with
    | nil => simp [BareKey.text] at written
    | cons c more =>
        rw [written] at same unquoted
        obtain rfl : c = '"' := (List.cons.inj same).1
        exact unquoted List.mem_cons_self

theorem read_json_idForm {value : Json} :
    Json.read (.ofList (idForm numeral).toList) = .ok value ↔
      ∃ number, numeral.number? = some number ∧ value = .object [("id", .number number)] := by
  have plain : ∀ c ∈ ['i', 'd'], c ≠ '"' ∧ c ≠ '\\' ∧ 0x20 ≤ c.toNat := by simp
  have delimited : Json.Delimited ['\x7d'] := by
    rintro _ ⟨⟩
    decide
  have number {value : Json} {after : List Char} :
      Json.Gives (Json.readValue 126 (' ' :: (numeral.text ++ ['\x7d']))) value after ↔
        ∃ number, numeral.number? = some number ∧ value = .number number ∧ after = ['\x7d'] :=
    Json.readValue_numeral (Json.skipBlanks_numeral _) delimited
  rw [Json.read_iff, String.toList_ofList, toList_idForm]
  constructor
  · rintro ⟨rest, gives, ended⟩
    obtain ⟨fields, object, rfl⟩ := (Json.readValue_brace_iff rfl).1 gives
    obtain ⟨first, between, more, read, following, rfl⟩ := (Json.readObject_entry plain).1 object
    obtain ⟨found, denoted, rfl, rfl⟩ := number.1 read
    obtain ⟨rfl, _⟩ := Json.readFields_close.1 following
    exact ⟨found, denoted, rfl⟩
  · rintro ⟨found, denoted, rfl⟩
    refine ⟨[], (Json.readValue_brace_iff rfl).2 ⟨[("id", .number found)], ?_, rfl⟩, rfl⟩
    exact (Json.readObject_entry plain).2 ⟨_, _, _, number.2 ⟨found, denoted, rfl, rfl⟩,
      Json.readFields_close.2 ⟨rfl, rfl⟩, rfl⟩

theorem idOf_number {number : Json.Number} :
    idOf (.number number) = .ok id ↔ integerOf? number = some id := by
  unfold idOf
  dsimp only
  split
  · rename_i given
    simp [given]
  · rename_i refused
    simp [refused]

theorem read_idForm : read (idForm numeral).toList = .ok target ↔
    target.name = none ∧ ∃ number, numeral.number? = some number ∧
      integerOf? number = some target.id := by
  have literal {value : Json} : readLiteral (idForm numeral).toList = .ok value ↔
      ∃ number, numeral.number? = some number ∧ value = .object [("id", .number number)] := by
    rw [readLiteral_eq_ok_iff, relax_idForm, read_json_idForm]
    exact or_iff_left_of_imp And.right
  rw [read_eq_ok_iff]
  constructor
  · rintro ⟨fields, found, read, known, given, same⟩
    obtain ⟨number, denoted, object⟩ := literal.1 read
    cases object
    cases known
    exact ⟨same, number, denoted, idOf_number.1 given⟩
  · rintro ⟨nameless, number, denoted, given⟩
    exact ⟨_, .number number, literal.2 ⟨number, denoted, rfl⟩, rfl, idOf_number.2 given, nameless⟩

section Integers

variable {negative : Bool} {y : Float} {u : ℚ}

theorem integerOf?_integer {value : ℤ} :
    integerOf? (.integer value) = some id ↔ value = id ∧ id ≤ greatestId := by
  unfold integerOf?
  dsimp only
  rw [Option.ite_none_right_eq_some, Option.some.injEq]
  constructor
  · rintro ⟨most, rfl⟩
    exact ⟨rfl, most⟩
  · rintro ⟨rfl, most⟩
    exact ⟨most, rfl⟩

theorem integerOf?_real (rational : Decimal.rational? y = some u) :
    integerOf? (.real y) = some id ↔ u = id ∧ -greatestId ≤ id ∧ id ≤ greatestId := by
  unfold integerOf?
  dsimp only
  rw [rational]
  dsimp only
  constructor
  · intro found
    rw [Option.ite_none_right_eq_some] at found
    obtain ⟨⟨whole, least, most⟩, same⟩ := found
    cases same
    exact ⟨((Rat.den_eq_one_iff u).1 (eq_of_beq whole)).symm, least, most⟩
  · rintro ⟨rfl, least, most⟩
    exact if_pos ⟨rfl, least, most⟩

theorem integerOf?_zero (zero : y.toModel.unpack = .zero .positive) :
    integerOf? (.real (if negative then -y else y)) = some id ↔ id = 0 := by
  obtain ⟨positive, negated⟩ := Binary.rational_of_zero zero
  have rational : Decimal.rational? (if negative then -y else y) = some 0 := by
    cases negative <;> assumption
  rw [integerOf?_real rational]
  constructor
  · rintro ⟨same, _⟩
    exact_mod_cast same.symm
  · rintro rfl
    exact ⟨rfl, by decide, by decide⟩

theorem integerOf?_is (is : Binary.Is y u) :
    integerOf? (.real (if negative then -y else y)) = some id ↔
      (if negative then -u else u) = id ∧ -greatestId ≤ id ∧ id ≤ greatestId := by
  refine integerOf?_real ?_
  cases negative
  · exact is.rational
  · exact is.rational_neg

end Integers

def Identifies (numeral : Json.Numeral) (id : Int) : Prop :=
  ∃ number, numeral.number? = some number ∧ integerOf? number = some id

section Identifies

open Json Binary

theorem abs_exact (numeral : Numeral) : |numeral.exact| = numeral.literal.exact := by
  have nonnegative : 0 ≤ numeral.literal.exact := by
    unfold Decimal.Literal.exact
    positivity
  unfold Numeral.exact
  split
  · rw [abs_neg, abs_of_nonneg nonnegative]
  · rw [abs_of_nonneg nonnegative]

theorem integerOf?_vanishes {negative : Bool} {y : Float} {j : ℤ} (range : 0 ≤ j ∧ j ≤ 1000)
    (vanishes : Vanishes j .positive y.toModel.unpack)
    (given : integerOf? (.real (if negative then -y else y)) = some id) : id = 0 := by
  have rational : ∃ u, Decimal.rational? (if negative then -y else y) = some u ∧ |u| < 1 := by
    cases negative
    · exact vanishes.rational range.1
    · exact vanishes.rational_neg range
  obtain ⟨u, rational, small⟩ := rational
  obtain ⟨rfl, _⟩ := (integerOf?_real rational).1 given
  exact Int.abs_lt_one_iff.1 (by exact_mod_cast small)

theorem identifies_iff {number : Json.Number} (found : numeral.number? = some number) :
    Identifies numeral id ↔ integerOf? number = some id := by
  constructor
  · rintro ⟨other, known, given⟩
    cases found.symm.trans known
    exact given
  · intro given
    exact ⟨number, found, given⟩

theorem not_identifies_of_large (plain : numeral.Plain)
    (large : Json.greatestSignificand < numeral.literal.significand) : ¬ Identifies numeral id := by
  rintro ⟨number, found, given⟩
  have room : ¬ (numeral.Plain ∧ numeral.literal.significand ≤ Json.greatestSignificand) :=
    fun room => not_lt.2 room.2 large
  rw [Numeral.number?_of_scaled plain.inside room, Option.map_eq_some_iff] at found
  obtain ⟨y, scaled, rfl⟩ := found
  have approximates := scaled_approximates numeral.formed scaled
  rw [plain.exact_literal] at approximates
  have bound : (2 : ℚ) ^ 64 ≤ numeral.literal.significand := by
    rw [Json.greatestSignificand] at large
    exact_mod_cast (show 2 ^ 64 ≤ numeral.literal.significand by omega)
  have half := half_le_slack
  cases approximates with
  | zero zero none =>
      rw [none] at bound
      norm_num at bound
  | @near u is near =>
      obtain ⟨same, least, most⟩ := (integerOf?_is is).1 given
      have small : u ≤ (greatestId : ℚ) := by
        have least : (-greatestId : ℚ) ≤ id := by exact_mod_cast least
        have most : (id : ℚ) ≤ greatestId := by exact_mod_cast most
        split at same <;> linarith
      have kept := mul_le_mul bound half (by norm_num) (by positivity)
      have above := near.above
      rw [greatestId] at small
      norm_num at small kept
      linarith
  | vanished vanishes positive small =>
      have one : (2 : ℚ) ^ (-800 : ℤ) ≤ 1 := zpow_le_one_of_nonpos₀ one_le_two (by norm_num)
      nlinarith

/-- A number below the least id stays there when it is rounded, for rounding does not lead back over
a power of two. -/
theorem integerOf?_below {digits : Nat} (outside : greatestMagnitude < digits)
    (fits : digits ≤ greatestSignificand) :
    integerOf? (.real (-digits.toUInt64.toFloat)) ≠ some id := by
  intro given
  rw [greatestMagnitude] at outside
  rw [greatestSignificand] at fits
  obtain ⟨v, is, rounds⟩ := is_ofNat (show 0 < digits by omega) (show digits < 2 ^ 64 by omega)
  have large : (2 : ℚ) ^ (63 : ℤ) ≤ v := rounds.least 63 (by
    exact_mod_cast (show 2 ^ 63 ≤ digits by omega))
  obtain ⟨same, least, _⟩ := (integerOf?_real is.rational_neg).1 given
  have least : (-greatestId : ℚ) ≤ id := by exact_mod_cast least
  rw [greatestId] at least
  norm_num at least large
  linarith

theorem identifies_positive (plain : numeral.Plain)
    (fits : numeral.literal.significand ≤ greatestSignificand) (sign : numeral.negative = false) :
    Identifies numeral id ↔ (id : ℚ) = numeral.literal.significand ∧ id ≤ greatestId := by
  have number := Numeral.number?_of_plain plain fits
  rw [sign, if_pos rfl] at number
  rw [identifies_iff number, integerOf?_integer]
  constructor
  · rintro ⟨rfl, most⟩
    exact ⟨rfl, most⟩
  · rintro ⟨same, most⟩
    exact ⟨by exact_mod_cast same.symm, most⟩

theorem identifies_negative (plain : numeral.Plain)
    (fits : numeral.literal.significand ≤ greatestSignificand) (sign : numeral.negative = true) :
    Identifies numeral id ↔
      (id : ℚ) = -numeral.literal.significand ∧ -9223372036854775808 ≤ id := by
  have number := Numeral.number?_of_plain plain fits
  rw [sign, if_neg (by decide)] at number
  generalize numeral.literal.significand = digits at number fits ⊢
  have same_iff : (id : ℚ) = -digits ↔ id = -digits := by exact_mod_cast Iff.rfl
  rw [same_iff]
  split at number
  · rename_i outside
    rw [identifies_iff number]
    rcases outside with rfl | beyond
    · have zero := @integerOf?_zero id true _ unpack_ofNat_zero
      rw [if_pos rfl] at zero
      rw [zero]
      omega
    · refine iff_of_false (integerOf?_below beyond fits) ?_
      rw [greatestMagnitude] at beyond
      omega
  · rename_i inside
    rw [not_or, greatestMagnitude] at inside
    rw [identifies_iff number, integerOf?_integer, greatestId]
    omega

theorem identifies_plain (plain : numeral.Plain) :
    Identifies numeral id ↔
      (id : ℚ) = numeral.exact ∧ -9223372036854775808 ≤ id ∧ id ≤ greatestId := by
  have exact := plain.exact_literal
  unfold Numeral.exact
  rw [exact]
  by_cases fits : numeral.literal.significand ≤ Json.greatestSignificand
  · cases sign : numeral.negative with
    | false =>
        rw [identifies_positive plain fits sign, if_neg Bool.false_ne_true]
        refine and_congr_right fun same => (and_iff_right_of_imp fun _ => ?_).symm
        have same : id = numeral.literal.significand := by exact_mod_cast same
        omega
    | true =>
        rw [identifies_negative plain fits sign, if_pos rfl]
        refine and_congr_right fun same => (and_iff_left_of_imp fun _ => ?_).symm
        have same : id = -numeral.literal.significand := by exact_mod_cast same
        rw [greatestId]
        omega
  · refine iff_of_false (not_identifies_of_large plain (not_le.1 fits)) ?_
    rintro ⟨same, least, most⟩
    rw [Json.greatestSignificand] at fits
    generalize numeral.literal.significand = digits at same fits
    rw [greatestId] at most
    split at same
    · have same : id = -digits := by exact_mod_cast same
      omega
    · have same : id = digits := by exact_mod_cast same
      omega

theorem exact_lt_of_short (short : numeral.Short) : numeral.literal.exact < 2 ^ 53 := by
  obtain ⟨_, _, fits⟩ := short
  have fits : (numeral.literal.significand * 10 ^ numeral.literal.power.toNat : ℚ) < 2 ^ 53 := by
    exact_mod_cast fits
  refine lt_of_le_of_lt (mul_le_mul_of_nonneg_left ?_ (Nat.cast_nonneg _)) fits
  rw [← zpow_natCast]
  exact zpow_le_zpow_right₀ (by norm_num) (Int.self_le_toNat _)

theorem in_range_of_short (short : numeral.Short) (same : (id : ℚ) = numeral.exact) :
    -greatestId ≤ id ∧ id ≤ greatestId := by
  have narrow := exact_lt_of_short short
  rw [← abs_exact, ← same] at narrow
  have narrow : |id| < 2 ^ 53 := by exact_mod_cast narrow
  rw [abs_lt] at narrow
  rw [greatestId]
  omega

theorem significand_of_outsized (short : numeral.Short)
    (large : numeral.literal.exponent.any outsized = true) : numeral.literal.significand = 0 := by
  obtain ⟨moderate, least, fits⟩ := short
  by_contra something
  obtain ⟨exponent, written, past⟩ := (Option.any_eq_true _ _).1 large
  have few := moderate large
  have past := lt_of_outsized past
  have most := lt_sixteen_of_product (Nat.pos_of_ne_zero something) fits
  have most : numeral.literal.power < 16 := by omega
  rw [List.length_append] at few
  rw [greatestExponent] at few past
  unfold Decimal.Literal.power Decimal.Exponent.value at least most
  rw [written, Option.elim] at least most
  by_cases sign : exponent.sign = some '-'
  · rw [if_pos sign] at least
    omega
  · rw [if_neg sign] at most
    omega

theorem identifies_short (short : numeral.Short) :
    Identifies numeral id ↔ (id : ℚ) = numeral.exact := by
  cases large : numeral.literal.exponent.any outsized with
  | true =>
      have none := significand_of_outsized short large
      have number : numeral.number? = some (.real (if numeral.negative then -0.0 else 0.0)) := by
        unfold Numeral.number? numberFor
        rw [if_pos large, if_pos (.inr ((isZero_iff numeral.formed).2 none))]
      rw [identifies_iff number, @integerOf?_zero id _ 0.0 unpack_zero]
      simp [Numeral.exact, Decimal.Literal.exact, none]
  | false =>
      by_cases room : numeral.Plain ∧ numeral.literal.significand ≤ Json.greatestSignificand
      · rw [identifies_plain room.1]
        refine and_iff_left_of_imp fun same => ?_
        obtain ⟨least, most⟩ := in_range_of_short short same
        exact ⟨by rw [greatestId] at least; omega, most⟩
      · have number := Numeral.number?_of_scaled large room
        rw [carried_of_le short.significand_le] at number
        rcases Nat.eq_zero_or_pos numeral.literal.significand with none | something
        · obtain ⟨y, scaled, zero⟩ := scale_of_zero unpack_ofNat_zero numeral.literal.power
          rw [none, scaled] at number
          rw [identifies_iff number, integerOf?_zero zero]
          simp [Numeral.exact, Decimal.Literal.exact, none]
        · obtain ⟨y, u, scaled, is, whole⟩ := scale_of_short something short.2.1 short.2.2
          rw [scaled] at number
          have value : (if numeral.negative then -u else u) = id ↔ (id : ℚ) = numeral.exact := by
            unfold Numeral.exact Decimal.Literal.exact
            split
            · have negated := whole (-id)
              push_cast at negated
              rw [neg_eq_iff_eq_neg, negated, eq_comm, neg_eq_iff_eq_neg]
            · rw [whole, eq_comm]
          rw [identifies_iff number, integerOf?_is is, value]
          exact and_iff_left_of_imp (in_range_of_short short)

theorem close_of_identifies (moderate : numeral.Moderate) (identifies : Identifies numeral id) :
    (-9223372036854775808 ≤ id ∧ id ≤ greatestId) ∧
      (|id - numeral.exact| * 2 ^ 50 ≤ |numeral.exact| ∨
        id = 0 ∧ |numeral.exact| < 2 ^ (-799 : ℤ)) := by
  obtain ⟨number, found, given⟩ := identifies
  cases moderate.renders found with
  | integer same least =>
      obtain ⟨rfl, most⟩ := integerOf?_integer.1 given
      refine ⟨⟨least, most⟩, .inl ?_⟩
      rw [same, sub_self, abs_zero, zero_mul]
      exact abs_nonneg _
  | real approximates =>
      cases approximates with
      | zero zero none =>
          obtain rfl := (integerOf?_zero zero).1 given
          refine ⟨by decide, .inl ?_⟩
          simp [Numeral.exact, none]
      | near is near =>
          obtain ⟨same, least, most⟩ := (integerOf?_is is).1 given
          refine ⟨⟨by unfold greatestId at least; omega, most⟩, .inl ?_⟩
          have positive := near.symm.pos is.pos
          have close := near.close positive
          unfold Numeral.exact
          rw [← same]
          split
          · rwa [neg_sub_neg, abs_sub_comm, abs_neg, abs_of_pos positive]
          · rwa [abs_of_pos positive]
      | vanished vanishes positive small =>
          obtain rfl := integerOf?_vanishes (by norm_num) vanishes given
          refine ⟨by decide, .inr ⟨rfl, ?_⟩⟩
          rw [abs_exact]
          have kept := mul_le_mul_of_nonneg_left half_le_slack positive.le
          have twice : (2 : ℚ) ^ (-799 : ℤ) = 2 * 2 ^ (-800 : ℤ) := by
            rw [← zpow_one_add₀ two_ne_zero]
            rfl
          rw [twice]
          linarith

end Identifies

/-- A plain numeral is taken as an id exactly if what it denotes is in range, and a short one
exactly if what it denotes is an integer; the id is then that integer. From any other numeral the id
differs by no more than the roundings on the way, or is zero where the number has vanished. -/
theorem read_numeral (numeral : Json.Numeral) (target : Reference) :
    (numeral.Plain → (read (idForm numeral).toList = .ok target ↔
      target.name = none ∧ (target.id : ℚ) = numeral.exact ∧
        -9223372036854775808 ≤ target.id ∧ target.id ≤ greatestId)) ∧
    (numeral.Short → (read (idForm numeral).toList = .ok target ↔
      target.name = none ∧ (target.id : ℚ) = numeral.exact)) ∧
    (numeral.Moderate → read (idForm numeral).toList = .ok target →
      target.name = none ∧ (-9223372036854775808 ≤ target.id ∧ target.id ≤ greatestId) ∧
        (|target.id - numeral.exact| * 2 ^ 50 ≤ |numeral.exact| ∨
          target.id = 0 ∧ |numeral.exact| < 2 ^ (-799 : ℤ))) := by
  have reads : read (idForm numeral).toList = .ok target ↔
      target.name = none ∧ Identifies numeral target.id := read_idForm
  refine ⟨fun plain => ?_, fun short => ?_, fun moderate ok => ?_⟩
  · rw [reads, identifies_plain plain]
  · rw [reads, identifies_short short]
  · obtain ⟨nameless, identifies⟩ := reads.1 ok
    exact ⟨nameless, close_of_identifies moderate identifies⟩

theorem wellFormed_decimal {whole places : List Char} (something : whole ≠ [])
    (digits : whole.all Decimal.isDigit = true) (lead : whole.head? = some '0' → whole = ['0'])
    (something' : places ≠ []) (behind : places.all Decimal.isDigit = true) :
    Json.WellFormed ⟨whole, some places, none⟩ where
  whole := ⟨something, List.all_eq_true.1 digits⟩
  lead := lead
  fraction := by
    rintro _ ⟨⟩
    exact ⟨something', List.all_eq_true.1 behind⟩
  exponent := nofun

def fourPointZero : Json.Numeral :=
  ⟨false, ⟨['4'], some ['0'], none⟩, wellFormed_decimal nofun rfl nofun nofun rfl⟩

theorem read_numeral_four : read (idForm fourPointZero).toList = .ok ⟨4, none⟩ ∧
    read (idForm (.ofInt 9223372036854775808)).toList ≠ .ok ⟨9223372036854775807, none⟩ := by
  have digits : fourPointZero.literal.significand = 40 := by decide
  have power : fourPointZero.literal.power = -1 := by decide
  have exact : fourPointZero.exact = 4 := by
    unfold Json.Numeral.exact Decimal.Literal.exact
    rw [digits, power]
    norm_num [fourPointZero]
  have short : fourPointZero.Short := by
    refine ⟨fun beyond => absurd beyond (by decide), ?_, ?_⟩
    · rw [power]
      decide
    · rw [digits, power]
      decide
  refine ⟨((read_numeral fourPointZero _).2.1 short).2 ⟨rfl, by rw [exact]; rfl⟩, fun ok => ?_⟩
  obtain ⟨_, same, _⟩ := ((read_numeral (.ofInt 9223372036854775808) _).1 ⟨rfl, rfl⟩).1 ok
  have beyond : (Json.Numeral.ofInt 9223372036854775808).exact = 9223372036854775808 := by
    have plain : (Json.Numeral.ofInt 9223372036854775808).Plain := ⟨rfl, rfl⟩
    have digits : (Json.Numeral.ofInt 9223372036854775808).literal.significand =
        9223372036854775808 := by decide +kernel
    unfold Json.Numeral.exact
    rw [plain.exact_literal, digits]
    norm_num [Json.Numeral.ofInt]
  rw [beyond] at same
  norm_num at same

def twentyNines : Json.Numeral :=
  ⟨false, ⟨['0'], some (.replicate 20 '9'), none⟩,
    wellFormed_decimal nofun rfl (fun _ => rfl) nofun rfl⟩

def oddInteger : Json.Numeral :=
  ⟨false, ⟨['9', '0', '0', '7', '1', '9', '9', '2', '5', '4', '7', '4', '0', '9', '9', '3'],
    some ['0'], none⟩, wellFormed_decimal nofun rfl (by decide) nofun rfl⟩

/-- With more digits a number that is no integer is taken for one, and an integer for another. -/
theorem read_numeral_long :
    (read (idForm twentyNines).toList = .ok ⟨1, none⟩ ∧ twentyNines.exact < 1) ∧
      read (idForm oddInteger).toList = .ok ⟨9007199254740994, none⟩ ∧
        oddInteger.exact = 9007199254740993 := by
  have nines : (read (idForm twentyNines).toList).toOption = some ⟨1, none⟩ := by decide +kernel
  have odd : (read (idForm oddInteger).toList).toOption = some ⟨9007199254740994, none⟩ := by
    decide +kernel
  have ninesDigits : twentyNines.literal.significand = 99999999999999999999 := by decide +kernel
  have ninesPower : twentyNines.literal.power = -20 := by decide +kernel
  have oddDigits : oddInteger.literal.significand = 90071992547409930 := by decide +kernel
  have oddPower : oddInteger.literal.power = -1 := by decide +kernel
  refine ⟨⟨toOption_eq_some.1 nines, ?_⟩, toOption_eq_some.1 odd, ?_⟩
  · unfold Json.Numeral.exact Decimal.Literal.exact
    rw [ninesDigits, ninesPower]
    norm_num [twentyNines]
  · unfold Json.Numeral.exact Decimal.Literal.exact
    rw [oddDigits, oddPower]
    norm_num [oddInteger]

end Reference

end Formulary
