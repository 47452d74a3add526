/-!
The rational number that a binary64 number is.
-/

namespace Formulary.Decimal

open Float.Model

/-- The number `significand * 2 ^ exponent`. -/
def dyadic (significand exponent : Int) : Rat :=
  mkRat (significand * Int.pow 2 exponent.toNat) (Nat.pow 2 (-exponent).toNat)

def rational? (x : Float) : Option Rat :=
  match x.toModel.unpack with
  | .zero _ => some (dyadic 0 0)
  | .finite sign mantissa exponent _ => some (dyadic (sign.apply mantissa) exponent)
  | .infinity _ | .notANumber => none

end Formulary.Decimal
