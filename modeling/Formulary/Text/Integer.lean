import Formulary.Decimal.Literal

/-!
Integers as texts.
-/

namespace Formulary.Text

def hexValue? (c : Char) : Option Nat :=
  if '0' ≤ c ∧ c ≤ '9' then some (c.toNat - '0'.toNat)
  else if 'a' ≤ c ∧ c ≤ 'f' then some (c.toNat - 'a'.toNat + 10)
  else if 'A' ≤ c ∧ c ≤ 'F' then some (c.toNat - 'A'.toNat + 10)
  else none

def natural? : List Char → Option Nat
  | [] => none
  | digits => if digits.all Decimal.isDigit then some (Decimal.valueOfDigits digits 0) else none

def greatestInteger : Int := 9223372036854775807

/-- The signed integer of 64 bits that a text denotes: digits, perhaps after a sign. -/
def integer? (text : String) : Option Int :=
  let value? : Option Int := match text.toList with
    | '+' :: digits => (natural? digits).map Int.ofNat
    | '-' :: digits => (natural? digits).map fun value => -(value : Int)
    | digits => (natural? digits).map Int.ofNat
  value?.filter fun value => -greatestInteger ≤ value + 1 && value ≤ greatestInteger

end Formulary.Text
