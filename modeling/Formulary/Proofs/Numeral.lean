import Formulary.Json.Reader
import Formulary.Proofs.Operation
import Mathlib.Data.List.TakeWhile

/-!
Numbers of JSON texts: how they are written, and that the reader takes exactly such a numeral off
the start of a text.
-/

namespace Formulary.Json

def Gives {α : Type} {text : List Char} (result : Except Failure (Reading α text)) (value : α)
    (rest : List Char) : Prop :=
  ∃ shorter, result = .ok ⟨value, rest, shorter⟩

def Passes {α : Type} {text : List Char} (result : Except Failure (Passing α text)) (value : α)
    (rest : List Char) : Prop :=
  ∃ notLonger, result = .ok ⟨value, rest, notLonger⟩

section Gives

variable {α β : Type} {text whole rest : List Char} {value : α}

theorem Gives.shorter {result : Except Failure (Reading α text)} (gives : Gives result value rest) :
    rest.length < text.length :=
  gives.1

theorem Gives.unique {other : List Char} {found : α} {result : Except Failure (Reading α text)}
    (gives : Gives result value rest) (also : Gives result found other) :
    value = found ∧ rest = other := by
  obtain ⟨_, rfl⟩ := gives
  obtain ⟨_, same⟩ := also
  cases same
  exact ⟨rfl, rfl⟩

theorem Passes.unique {other : List Char} {found : α} {result : Except Failure (Passing α text)}
    (passes : Passes result value rest) (also : Passes result found other) :
    value = found ∧ rest = other := by
  obtain ⟨_, rfl⟩ := passes
  obtain ⟨_, same⟩ := also
  cases same
  exact ⟨rfl, rfl⟩

@[simp] theorem gives_ok {reading : Reading α text} :
    Gives (.ok reading) value rest ↔ reading.value = value ∧ reading.rest = rest := by
  constructor
  · rintro ⟨shorter, same⟩
    cases same
    exact ⟨rfl, rfl⟩
  · rintro ⟨rfl, rfl⟩
    exact ⟨_, rfl⟩

@[simp] theorem gives_pure {reading : Reading α text} :
    Gives (pure reading) value rest ↔ reading.value = value ∧ reading.rest = rest :=
  gives_ok

@[simp] theorem gives_error {failure : Failure} :
    Gives (.error failure : Except Failure (Reading α text)) value rest ↔ False :=
  ⟨fun ⟨_, same⟩ => (nomatch same), False.elim⟩

@[simp] theorem gives_throw {failure : Failure} :
    Gives (throw failure : Except Failure (Reading α text)) value rest ↔ False :=
  gives_error

theorem gives_bind {found : β} {first : Except Failure (Reading α text)}
    {next : Reading α text → Except Failure (Reading β whole)} :
    Gives (first >>= next) found rest ↔
      ∃ value between, ∃ given : Gives first value between,
        Gives (next ⟨value, between, given.shorter⟩) found rest := by
  unfold Gives
  simp only [except_bind_eq_ok]
  constructor
  · rintro ⟨shorter, ⟨value, between, less⟩, read, later⟩
    exact ⟨value, between, ⟨less, read⟩, shorter, later⟩
  · rintro ⟨value, between, ⟨less, read⟩, shorter, later⟩
    exact ⟨shorter, _, read, later⟩

@[simp] theorem passes_ok {passing : Passing α text} :
    Passes (.ok passing) value rest ↔ passing.value = value ∧ passing.rest = rest := by
  constructor
  · rintro ⟨notLonger, same⟩
    cases same
    exact ⟨rfl, rfl⟩
  · rintro ⟨rfl, rfl⟩
    exact ⟨_, rfl⟩

@[simp] theorem passes_error {failure : Failure} :
    Passes (.error failure : Except Failure (Passing α text)) value rest ↔ False :=
  ⟨fun ⟨_, same⟩ => (nomatch same), False.elim⟩

theorem gives_passing {found : β} {first : Except Failure (Passing α text)}
    {next : Passing α text → Except Failure (Reading β whole)} :
    Gives (first >>= next) found rest ↔
      ∃ value between, ∃ given : Passes first value between,
        Gives (next ⟨value, between, given.1⟩) found rest := by
  unfold Gives Passes
  simp only [except_bind_eq_ok]
  constructor
  · rintro ⟨shorter, ⟨value, between, less⟩, read, later⟩
    exact ⟨value, between, ⟨less, read⟩, shorter, later⟩
  · rintro ⟨value, between, ⟨less, read⟩, shorter, later⟩
    exact ⟨shorter, _, read, later⟩

theorem passes_bind {found : β} {first : Except Failure (Passing α text)}
    {next : Passing α text → Except Failure (Passing β whole)} :
    Passes (first >>= next) found rest ↔
      ∃ value between, ∃ given : Passes first value between,
        Passes (next ⟨value, between, given.1⟩) found rest := by
  unfold Passes
  simp only [except_bind_eq_ok]
  constructor
  · rintro ⟨shorter, ⟨value, between, less⟩, read, later⟩
    exact ⟨value, between, ⟨less, read⟩, shorter, later⟩
  · rintro ⟨value, between, ⟨less, read⟩, shorter, later⟩
    exact ⟨shorter, _, read, later⟩

theorem gives_ite {p : Prop} [Decidable p] {first second : Except Failure (Reading α text)} :
    Gives (if p then first else second) value rest ↔
      (p ∧ Gives first value rest) ∨ (¬ p ∧ Gives second value rest) := by
  split <;> simp_all

@[simp] theorem gives_unless {p : Prop} [Decidable p] {failure : Failure}
    {next : Except Failure (Reading α text)} :
    Gives (if p then .error failure else next) value rest ↔ ¬ p ∧ Gives next value rest := by
  split <;> simp_all

end Gives

def Digits (text : List Char) : Prop :=
  text ≠ [] ∧ ∀ c ∈ text, Decimal.isDigit c = true

def Digitless (text : List Char) : Prop :=
  ∀ c, text.head? = some c → Decimal.isDigit c = false

structure WellFormed (literal : Decimal.Literal) : Prop where
  whole : Digits literal.whole
  lead : literal.whole.head? = some '0' → literal.whole = ['0']
  fraction : ∀ places, literal.fraction = some places → Digits places
  exponent : ∀ exponent, literal.exponent = some exponent →
    (exponent.mark = 'e' ∨ exponent.mark = 'E') ∧
    (∀ sign, exponent.sign = some sign → sign = '+' ∨ sign = '-') ∧ Digits exponent.digits

def outsized (exponent : Decimal.Exponent) : Bool :=
  (excess? exponent.digits).isSome

def numberFor (negative : Bool) (literal : Decimal.Literal) : Option Number :=
  if literal.exponent.any outsized then
    if literal.exponent.any (·.sign = some '-') ∨ isZero literal.whole literal.fraction then
      some (.real (if negative then -0.0 else 0.0))
    else none
  else numberOf negative literal.whole literal.fraction literal.exponent

section Numerals

variable {text rest : List Char}

theorem span_front {p : Char → Bool} {front : List Char} (only : ∀ c ∈ front, p c = true)
    (stops : ∀ c, rest.head? = some c → p c = false) :
    (front ++ rest).takeWhile p = front ∧ (front ++ rest).dropWhile p = rest := by
  rw [List.takeWhile_append_of_pos only, List.dropWhile_append_of_pos only]
  cases rest with
  | nil => simp
  | cons c rest =>
      have other : ¬ p c = true := by simp [stops c rfl]
      rw [List.takeWhile_cons_of_neg other, List.dropWhile_cons_of_neg other]
      simp

theorem digitless_nil : Digitless [] := by
  rintro c ⟨⟩

theorem digitless_dropWhile (text : List Char) : Digitless (text.dropWhile Decimal.isDigit) := by
  intro c first
  have kept := List.head?_dropWhile_not Decimal.isDigit text
  rw [first] at kept
  exact kept

theorem readWhole_iff {whole : List Char} :
    Gives (readWhole text) whole rest ↔
      text = whole ++ rest ∧ Digits whole ∧ (whole.head? = some '0' → whole = ['0']) ∧
        Digitless rest := by
  unfold readWhole
  constructor
  · intro gives
    split at gives
    · cases gives_error.1 gives
    · rename_i c inside
      rcases gives_ite.1 gives with ⟨rfl, gives⟩ | ⟨nonzero, gives⟩
      · have alone : Digits ['0'] := ⟨List.cons_ne_nil _ _, by simp [Decimal.isDigit]⟩
        split at gives
        · rename_i d more
          obtain ⟨stops, gives⟩ := gives_unless.1 gives
          obtain ⟨rfl, rfl⟩ := gives_ok.1 gives
          refine ⟨rfl, alone, fun _ => rfl, ?_⟩
          rintro c ⟨⟩
          simpa using stops
        · obtain ⟨rfl, rfl⟩ := gives_ok.1 gives
          exact ⟨rfl, alone, fun _ => rfl, digitless_nil⟩
      · rcases gives_ite.1 gives with ⟨digit, gives⟩ | ⟨_, gives⟩
        · obtain ⟨rfl, rfl⟩ := gives_ok.1 gives
          refine ⟨?_, ⟨List.cons_ne_nil _ _, ?_⟩, ?_, digitless_dropWhile inside⟩
          · exact congrArg (c :: ·) List.takeWhile_append_dropWhile.symm
          · intro d within
            rcases List.mem_cons.1 within with rfl | within
            · exact digit
            · exact List.mem_takeWhile_imp within
          · intro zero
            exact absurd (Option.some.inj zero) nonzero
        · cases gives_error.1 gives
  · rintro ⟨rfl, ⟨something, only⟩, lead, stops⟩
    cases whole with
    | nil => exact absurd rfl something
    | cons c digits =>
        refine gives_ite.2 ?_
        by_cases zero : c = '0'
        · subst zero
          obtain rfl : digits = [] := List.tail_eq_of_cons_eq (lead rfl)
          refine .inl ⟨rfl, ?_⟩
          cases rest with
          | nil => exact gives_ok.2 ⟨rfl, rfl⟩
          | cons d more =>
              exact gives_unless.2 ⟨by simp [stops d rfl], gives_ok.2 ⟨rfl, rfl⟩⟩
        · obtain ⟨digit, only⟩ := List.forall_mem_cons.1 only
          obtain ⟨taken, dropped⟩ := span_front only stops
          refine .inr ⟨zero, gives_ite.2 (.inl ⟨digit, gives_ok.2 ⟨?_, dropped⟩⟩)⟩
          exact congrArg (c :: ·) taken

theorem readDigits_iff {digits : List Char} :
    Passes (readDigits text) digits rest ↔
      text = digits ++ rest ∧ Digits digits ∧ Digitless rest := by
  unfold readDigits
  constructor
  · intro passes
    split at passes
    · cases passes_error.1 passes
    · rename_i something
      obtain ⟨rfl, rfl⟩ := passes_ok.1 passes
      refine ⟨List.takeWhile_append_dropWhile.symm, ⟨something, ?_⟩, digitless_dropWhile text⟩
      exact fun c within => List.mem_takeWhile_imp within
  · rintro ⟨rfl, ⟨something, only⟩, stops⟩
    obtain ⟨taken, dropped⟩ := span_front only stops
    split
    · rename_i empty
      exact absurd (taken.symm.trans empty) something
    · exact passes_ok.2 ⟨taken, dropped⟩

def fractionText (fraction : Option (List Char)) : List Char :=
  fraction.elim [] ('.' :: ·)

theorem readFraction_iff {fraction : Option (List Char)} :
    Passes (readFraction text) fraction rest ↔
      text = fractionText fraction ++ rest ∧
        (∀ places, fraction = some places → Digits places ∧ Digitless rest) ∧
        (fraction = none → rest.head? ≠ some '.') := by
  unfold readFraction
  constructor
  · intro passes
    split at passes
    · obtain ⟨rfl, rfl⟩ := passes_ok.1 passes
      exact ⟨rfl, by simp, by simp⟩
    · rename_i c inside
      split at passes
      · rename_i other
        obtain ⟨rfl, rfl⟩ := passes_ok.1 passes
        exact ⟨rfl, by simp, fun _ same => other (Option.some.inj same)⟩
      · rename_i point
        obtain ⟨digits, after, given, passes⟩ := passes_bind.1 passes
        obtain ⟨rfl, rfl⟩ := passes_ok.1 passes
        obtain ⟨rfl, written, stops⟩ := readDigits_iff.1 given
        rw [Decidable.not_not.1 point]
        refine ⟨rfl, ?_, by simp⟩
        rintro places ⟨⟩
        exact ⟨written, stops⟩
  · rintro ⟨rfl, written, stops⟩
    cases fraction with
    | none =>
        cases rest with
        | nil => exact passes_ok.2 ⟨rfl, rfl⟩
        | cons c rest =>
            have other : c ≠ '.' := fun same => stops rfl (congrArg some same)
            dsimp only [fractionText, Option.elim, List.nil_append]
            rw [if_pos other]
            exact passes_ok.2 ⟨rfl, rfl⟩
    | some places =>
        obtain ⟨written, stops⟩ := written places rfl
        refine passes_bind.2 ⟨places, rest, readDigits_iff.2 ⟨rfl, written, stops⟩, ?_⟩
        exact passes_ok.2 ⟨rfl, rfl⟩

def exponentText (exponent : Option Decimal.Exponent) : List Char :=
  exponent.elim [] Decimal.Exponent.text

theorem readSign_parts (text : List Char) :
    text = (readSign text).value.toList ++ (readSign text).rest ∧
      ∀ sign, (readSign text).value = some sign → sign = '+' ∨ sign = '-' := by
  unfold readSign
  split
  · exact ⟨rfl, by simp⟩
  · split
    · rename_i signed
      exact ⟨rfl, fun _ same => Option.some.inj same ▸ signed⟩
    · exact ⟨rfl, by simp⟩

theorem readSign_of_digits {digits : List Char} (written : Digits digits) {sign : Option Char}
    (known : ∀ c, sign = some c → c = '+' ∨ c = '-') :
    (readSign (sign.toList ++ (digits ++ rest))).value = sign ∧
      (readSign (sign.toList ++ (digits ++ rest))).rest = digits ++ rest := by
  cases sign with
  | some c =>
      unfold readSign
      simp only [Option.toList, List.singleton_append, if_pos (known c rfl), and_self]
  | none =>
      obtain ⟨something, only⟩ := written
      cases digits with
      | nil => exact absurd rfl something
      | cons d digits =>
          have digit := only d List.mem_cons_self
          have unsigned : ¬ (d = '+' ∨ d = '-') := by
            rintro (rfl | rfl) <;> cases digit
          unfold readSign
          simp only [Option.toList, List.nil_append, List.cons_append, if_neg unsigned, and_self]

theorem readExponent_iff {exponent : Option Decimal.Exponent} :
    Passes (readExponent text) exponent rest ↔
      text = exponentText exponent ++ rest ∧
        (∀ written, exponent = some written →
          ((written.mark = 'e' ∨ written.mark = 'E') ∧
            (∀ sign, written.sign = some sign → sign = '+' ∨ sign = '-') ∧
            Digits written.digits) ∧ Digitless rest) ∧
        (exponent = none → rest.head? ≠ some 'e' ∧ rest.head? ≠ some 'E') := by
  unfold readExponent
  constructor
  · intro passes
    split at passes
    · obtain ⟨rfl, rfl⟩ := passes_ok.1 passes
      exact ⟨rfl, by simp, by simp⟩
    · rename_i mark inside
      split at passes
      · rename_i other
        obtain ⟨rfl, rfl⟩ := passes_ok.1 passes
        refine ⟨rfl, by simp, fun _ => ⟨?_, ?_⟩⟩
        · exact fun same => other.1 (Option.some.inj same)
        · exact fun same => other.2 (Option.some.inj same)
      · rename_i marked
        obtain ⟨digits, after, given, passes⟩ := passes_bind.1 passes
        obtain ⟨rfl, rfl⟩ := passes_ok.1 passes
        obtain ⟨split, written, stops⟩ := readDigits_iff.1 given
        obtain ⟨whole, signed⟩ := readSign_parts inside
        refine ⟨?_, ?_, by simp⟩
        · conv => lhs; rw [whole, split]
          simp [exponentText, Decimal.Exponent.text]
        · rintro exponent ⟨⟩
          refine ⟨⟨?_, signed, written⟩, stops⟩
          exact Decidable.or_iff_not_not_and_not.2 marked
  · rintro ⟨rfl, written, stops⟩
    cases exponent with
    | none =>
        cases rest with
        | nil => exact passes_ok.2 ⟨rfl, rfl⟩
        | cons c rest =>
            obtain ⟨small, large⟩ := stops rfl
            have other : c ≠ 'e' ∧ c ≠ 'E' :=
              ⟨fun same => small (congrArg some same), fun same => large (congrArg some same)⟩
            dsimp only [exponentText, Option.elim, List.nil_append]
            rw [if_pos other]
            exact passes_ok.2 ⟨rfl, rfl⟩
    | some exponent =>
        obtain ⟨⟨marked, signed, written⟩, stops⟩ := written exponent rfl
        obtain ⟨sign, behind⟩ := @readSign_of_digits rest _ written _ signed
        have split : exponentText (some exponent) ++ rest =
            exponent.mark :: (exponent.sign.toList ++ (exponent.digits ++ rest)) := by
          simp [exponentText, Decimal.Exponent.text]
        rw [split]
        dsimp only
        rw [if_neg (Decidable.or_iff_not_not_and_not.1 marked)]
        refine passes_bind.2 ⟨exponent.digits, rest, ?_, passes_ok.2 ⟨?_, rfl⟩⟩
        · rw [behind]
          exact readDigits_iff.2 ⟨rfl, written, stops⟩
        · dsimp only
          rw [sign]

theorem gives_denoted {found : Option Number} {shorter : rest.length < text.length}
    {number : Number} {after : List Char} :
    Gives (match found with
      | some value => (return ⟨value, rest, shorter⟩ : Except Failure (Reading Number text))
      | none => throw ⟨.numberOutOfRange, rest, 0⟩) number after ↔
      rest = after ∧ found = some number := by
  cases found with
  | none => simp
  | some value => simp [and_comm]

theorem readNumber_iff {negative : Bool} {number : Number} :
    Gives (readNumber negative text) number rest ↔
      ∃ literal between after, Gives (readWhole text) literal.whole between ∧
        Passes (readFraction between) literal.fraction after ∧
        Passes (readExponent after) literal.exponent rest ∧
        numberFor negative literal = some number := by
  -- What follows the three parts depends on the exponent and on what the literal denotes.
  unfold readNumber numberFor
  constructor
  · intro gives
    obtain ⟨whole, between, first, gives⟩ := gives_bind.1 gives
    obtain ⟨fraction, after, second, gives⟩ := gives_passing.1 gives
    obtain ⟨exponent, last, third, gives⟩ := gives_passing.1 gives
    refine ⟨⟨whole, fraction, exponent⟩, between, after, first, second, ?_⟩
    dsimp only at gives ⊢
    cases exponent with
    | none =>
        obtain ⟨rfl, denoted⟩ := gives_denoted.1 gives
        exact ⟨third, by simpa using denoted⟩
    | some exponent =>
        cases counted : excess? exponent.digits with
        | none =>
            simp only [Option.bind_some, counted, Option.map_none] at gives
            obtain ⟨rfl, denoted⟩ := gives_denoted.1 gives
            exact ⟨third, by simpa [outsized, counted] using denoted⟩
        | some count =>
            simp only [Option.bind_some, counted, Option.map_some] at gives
            rcases gives_ite.1 gives with ⟨vanishes, gives⟩ | ⟨_, gives⟩
            · obtain ⟨rfl, rfl⟩ := gives_pure.1 gives
              refine ⟨third, ?_⟩
              simp only [Option.any_some, outsized, counted, Option.isSome_some, if_true,
                decide_eq_true_eq, if_pos vanishes]
            · cases gives_throw.1 gives
  · rintro ⟨⟨whole, fraction, exponent⟩, between, after, first, second, third, number⟩
    refine gives_bind.2 ⟨_, _, first, gives_passing.2 ⟨_, _, second,
      gives_passing.2 ⟨_, _, third, ?_⟩⟩⟩
    dsimp only at number ⊢
    cases exponent with
    | none =>
        simp only [Option.any_none, Bool.false_eq_true, if_false] at number
        simp [number]
    | some exponent =>
        cases counted : excess? exponent.digits with
        | none =>
            simp only [Option.any_some, outsized, counted, Option.isSome_none, Bool.false_eq_true,
              if_false] at number
            simp [counted, number]
        | some count =>
            simp only [Option.any_some, outsized, counted, Option.isSome_some, if_true,
              decide_eq_true_eq, Option.ite_none_right_eq_some, Option.some.injEq] at number
            obtain ⟨vanishes, rfl⟩ := number
            simp [counted, if_pos vanishes]

theorem WellFormed.text_starts {literal : Decimal.Literal} (formed : WellFormed literal) :
    ∃ c more, literal.text = c :: more ∧ Decimal.isDigit c = true := by
  obtain ⟨something, only⟩ := formed.whole
  unfold Decimal.Literal.text
  cases whole : literal.whole with
  | nil => exact absurd whole something
  | cons c digits => exact ⟨c, _, rfl, only c (whole ▸ List.mem_cons_self)⟩

def Delimited (text : List Char) : Prop :=
  ∀ c, text.head? = some c → Decimal.isDigit c = false ∧ c ≠ '.' ∧ c ≠ 'e' ∧ c ≠ 'E'

section Literal

variable {negative : Bool} {number : Number} {literal : Decimal.Literal}

theorem Delimited.digitless (delimited : Delimited rest) : Digitless rest :=
  fun c first => (delimited c first).1

theorem digitless_cons {c : Char} (other : Decimal.isDigit c = false) : Digitless (c :: text) := by
  rintro _ ⟨⟩
  exact other

theorem WellFormed.exponent_digitless (formed : WellFormed literal) (delimited : Delimited rest) :
    Digitless (exponentText literal.exponent ++ rest) ∧
      (exponentText literal.exponent ++ rest).head? ≠ some '.' := by
  cases written : literal.exponent with
  | none => exact ⟨delimited.digitless, fun first => (delimited _ first).2.1 rfl⟩
  | some exponent =>
      obtain ⟨marked, _⟩ := formed.exponent exponent written
      refine ⟨digitless_cons ?_, fun first => ?_⟩
      · rcases marked with marked | marked <;> rw [marked] <;> rfl
      · rcases marked with marked | marked <;> rw [Option.some.inj first] at marked <;> cases marked

theorem readNumber_text (formed : WellFormed literal) (delimited : Delimited rest)
    {after : List Char} : Gives (readNumber negative (literal.text ++ rest)) number after ↔
      numberFor negative literal = some number ∧ after = rest := by
  have split : literal.text ++ rest =
      literal.whole ++
        (fractionText literal.fraction ++ (exponentText literal.exponent ++ rest)) := by
    simp [Decimal.Literal.text, fractionText, exponentText]
  obtain ⟨stops, pointless⟩ := formed.exponent_digitless delimited
  have first : Gives (readWhole (literal.text ++ rest)) literal.whole
      (fractionText literal.fraction ++ (exponentText literal.exponent ++ rest)) := by
    refine readWhole_iff.2 ⟨split, formed.whole, formed.lead, ?_⟩
    cases literal.fraction with
    | none => exact stops
    | some places => exact digitless_cons rfl
  have second : Passes (readFraction (fractionText literal.fraction ++
      (exponentText literal.exponent ++ rest))) literal.fraction
      (exponentText literal.exponent ++ rest) :=
    readFraction_iff.2 ⟨rfl, fun places same => ⟨formed.fraction places same, stops⟩,
      fun _ => pointless⟩
  have third :
      Passes (readExponent (exponentText literal.exponent ++ rest)) literal.exponent rest := by
    refine readExponent_iff.2 ⟨rfl, fun exponent same => ?_, fun _ => ⟨?_, ?_⟩⟩
    · exact ⟨formed.exponent exponent same, delimited.digitless⟩
    · exact fun first => (delimited _ first).2.2.1 rfl
    · exact fun first => (delimited _ first).2.2.2 rfl
  rw [readNumber_iff]
  constructor
  · rintro ⟨⟨whole, fraction, exponent⟩, between, later, firstly, secondly, thirdly, denoted⟩
    obtain ⟨rfl, rfl⟩ := firstly.unique first
    obtain ⟨rfl, rfl⟩ := secondly.unique second
    obtain ⟨rfl, rfl⟩ := thirdly.unique third
    exact ⟨denoted, rfl⟩
  · rintro ⟨denoted, rfl⟩
    exact ⟨literal, _, _, first, second, third, denoted⟩

theorem suffix_of_readNumber (gives : Gives (readNumber negative text) number rest) :
    rest <:+ text := by
  obtain ⟨literal, between, after, first, second, third, _⟩ := readNumber_iff.1 gives
  obtain ⟨rfl, _⟩ := readWhole_iff.1 first
  obtain ⟨rfl, _⟩ := readFraction_iff.1 second
  obtain ⟨rfl, _⟩ := readExponent_iff.1 third
  exact ((List.suffix_append _ _).trans (List.suffix_append _ _)).trans (List.suffix_append _ _)

end Literal

end Numerals

structure Numeral where
  negative : Bool
  literal : Decimal.Literal
  formed : WellFormed literal

theorem le_valueOfDigits (digits : List Char) (higher : Nat) :
    higher ≤ Decimal.valueOfDigits digits higher := by
  unfold Decimal.valueOfDigits
  induction digits generalizing higher with
  | nil => exact Nat.le_refl higher
  | cons c digits ih =>
      have step : higher ≤ 10 * higher + Decimal.digitValue c := by omega
      exact Nat.le_trans step (ih _)

theorem accumulate_of_le {digits : List Char} {significand : Nat}
    (fits : Decimal.valueOfDigits digits significand ≤ greatestSignificand) :
    accumulate significand digits = (Decimal.valueOfDigits digits significand, 0) := by
  induction digits generalizing significand with
  | nil => rfl
  | cons c digits ih =>
      have below : 10 * significand + Decimal.digitValue c ≤ greatestSignificand :=
        Nat.le_trans (le_valueOfDigits digits _) fits
      rw [accumulate, if_neg (Nat.not_lt.2 below), ih fits]
      rfl

theorem isDigit_of_mem_toDigits {n : Nat} {c : Char} (within : c ∈ Nat.toDigits 10 n) :
    Decimal.isDigit c = true :=
  Nat.isDigit_of_mem_toDigits (by decide) (by decide) within

theorem valueOfDigits_toDigits (n : Nat) : Decimal.valueOfDigits (Nat.toDigits 10 n) 0 = n := by
  have same := @Nat.ofDigitChars_ten_toDigits n
  rwa [Nat.ofDigitChars_eq_foldl] at same

theorem eq_zero_of_lead {n : Nat} (zero : (Nat.toDigits 10 n).head? = some '0') : n = 0 := by
  induction n using Nat.strongRecOn with
  | ind n ih =>
      by_cases small : n < 10
      · rw [Nat.toDigits_of_lt_base small] at zero
        have lead : ∀ n < 10, [n.digitChar].head? = some '0' → n = 0 := by decide
        exact lead n small zero
      · rw [Nat.toDigits_of_base_le (by decide) (Nat.not_lt.1 small), List.head?_append,
          List.head?_eq_some_head Nat.toDigits_ne_nil] at zero
        have quotient := ih (n / 10) (by omega) (by
          rw [List.head?_eq_some_head Nat.toDigits_ne_nil]
          exact zero)
        omega

theorem wellFormed_toDigits (n : Nat) : WellFormed ⟨Nat.toDigits 10 n, none, none⟩ where
  whole := ⟨Nat.toDigits_ne_nil, fun _ => isDigit_of_mem_toDigits⟩
  lead zero := by rw [eq_zero_of_lead zero, Nat.toDigits_zero]
  fraction := nofun
  exponent := nofun

namespace Numeral

def text (numeral : Numeral) : List Char :=
  (if numeral.negative then ['-'] else []) ++ numeral.literal.text

def number? (numeral : Numeral) : Option Number :=
  numberFor numeral.negative numeral.literal

def ofInt (value : Int) : Numeral :=
  ⟨value < 0, ⟨Nat.toDigits 10 value.natAbs, none, none⟩, wellFormed_toDigits _⟩

theorem text_ofInt (value : Int) : (ofInt value).text = (toString value).toList := by
  rw [Int.toString_eq_repr]
  cases value with
  | ofNat m =>
      simp [ofInt, text, Int.repr, Decimal.Literal.text, Nat.toList_repr]
  | negSucc m =>
      simp [ofInt, text, Int.repr, Decimal.Literal.text, Nat.toList_repr, Int.negSucc_lt_zero]

theorem number?_ofInt {value : Int} (least : -9223372036854775808 ≤ value)
    (greatest : value ≤ 9223372036854775807) : (ofInt value).number? = some (.integer value) := by
  have digits := valueOfDigits_toDigits value.natAbs
  have whole : accumulate 0 (Nat.toDigits 10 value.natAbs) = (value.natAbs, 0) := by
    rw [accumulate_of_le (by rw [digits, greatestSignificand]; omega), digits]
  unfold ofInt number? numberFor numberOf
  simp only [whole, Option.any_none, Bool.false_eq_true, if_false, Option.isNone_none, true_and,
    if_true]
  by_cases negative : value < 0
  · have small : ¬ (value.natAbs = 0 ∨ value.natAbs > greatestMagnitude) := by
      rw [greatestMagnitude]
      omega
    simp only [decide_eq_true negative, Bool.not_true, Bool.false_eq_true, if_false, if_neg small]
    congr 2
    omega
  · simp only [decide_eq_false negative, Bool.not_false, if_true]
    congr 2
    omega

end Numeral
end Formulary.Json
