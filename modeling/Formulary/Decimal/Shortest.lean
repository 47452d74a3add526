/-!
The shortest decimal that reads back as a given binary number.

A positive number `significand * 2 ^ exponent` is what every real of an interval around it rounds
to. Of all decimals in that interval the one on the coarsest grid of powers of ten has the fewest
digits, and on that grid only the two neighbours of the number have to be tried.
-/

namespace Formulary.Decimal

inductive Tie
  | toEven
  | up
  deriving DecidableEq, Repr

structure Scaled where
  digits : Nat
  exponent : Int
  deriving DecidableEq, Repr

/-- A positive number together with the reals that round to it, all in units of `2 ^ exponent`. -/
structure Interval where
  low : Nat
  centre : Nat
  high : Nat
  exponent : Int
  closed : Bool
  deriving DecidableEq, Repr

namespace Interval

def hiddenBit : Nat := Nat.pow 2 52

def ofBits (bits : Nat) : Interval :=
  let fraction := bits % hiddenBit
  let field := bits / hiddenBit
  let significand := if field = 0 then fraction else hiddenBit + fraction
  let gapBelow := if fraction = 0 ∧ 1 < field then 1 else 2
  { low := 4 * significand - gapBelow
    centre := 4 * significand
    high := 4 * significand + 2
    exponent := (max field 1 : Nat) - 1077
    closed := significand % 2 = 0 }

def holds (interval : Interval) (unit step digits : Nat) : Bool :=
  if interval.closed then
    interval.low * unit ≤ digits * step && digits * step ≤ interval.high * unit
  else
    interval.low * unit < digits * step && digits * step < interval.high * unit

def onGrid (interval : Interval) (tie : Tie) (power : Int) : Option Scaled :=
  let unit := Nat.pow 2 interval.exponent.toNat * Nat.pow 10 (-power).toNat
  let step := Nat.pow 2 (-interval.exponent).toNat * Nat.pow 10 power.toNat
  let centre := interval.centre * unit
  let below := centre / step
  let above := below + 1
  let preferAbove :=
    match compare (centre - below * step) (above * step - centre) with
    | .lt => false
    | .gt => true
    | .eq => match tie with
      | .up => true
      | .toEven => below % 2 = 1
  let fits (digits : Nat) := 0 < digits && interval.holds unit step digits
  if fits above && (preferAbove || !fits below) then some ⟨above, power⟩
  else if fits below then some ⟨below, power⟩
  else none

/-- The decimal of fewest digits; of several, the nearest to the centre. No binary64 number
reaches `10 ^ 310`, and every one has a decimal of its own that is a multiple of `10 ^ -349`. -/
def shortest (interval : Interval) (tie : Tie) : Scaled :=
  ((List.range 660).findSome? fun (i : Nat) => interval.onGrid tie (310 - i)).getD ⟨0, 0⟩

end Interval

def signBit : Nat := Nat.pow 2 63

def shortest (tie : Tie) (x : Float) : Scaled :=
  (Interval.ofBits (x.toBits.toNat % signBit)).shortest tie

end Formulary.Decimal
