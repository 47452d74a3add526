import Formulary.Decimal.Shortest

/-!
The written forms of binary64 numbers: the shortest digits, laid out by one record per form.
-/

namespace Formulary.Decimal

structure Layout where
  /-- The powers of ten of a first digit that is written without an exponent; `none` for all. -/
  positional : Option (Int × Int)
  /-- Whether a whole number is written with `.0`. -/
  pointZero : Bool
  tie : Tie

namespace Layout

/-- A number inside a sentence: never an exponent, and nothing after a whole number. -/
def plain : Layout where
  positional := none
  pointZero := false
  tie := .up

/-- A number of a JSON text: from `1e-5` up to `1e16` without an exponent, and never the text of
an integer. -/
def json : Layout where
  positional := some (-5, 15)
  pointZero := true
  tie := .toEven

def zeros (count : Nat) : String :=
  .ofList (List.replicate count '0')

def writePositional (pointZero : Bool) (value : Scaled) : String :=
  let digits := toString value.digits
  if 0 ≤ value.exponent then
    digits ++ zeros value.exponent.toNat ++ (if pointZero then ".0" else "")
  else
    let places := (-value.exponent).toNat
    if digits.length ≤ places then
      "0." ++ zeros (places - digits.length) ++ digits
    else
      let shown := digits.toList
      let whole := digits.length - places
      .ofList (shown.take whole) ++ "." ++ .ofList (shown.drop whole)

def writeExponent (first : Int) (value : Scaled) : String :=
  let mantissa := match (toString value.digits).toList with
    | lead :: [] => String.ofList [lead]
    | lead :: more => .ofList (lead :: '.' :: more)
    | [] => ""
  mantissa ++ "e" ++ (if first < 0 then "-" else "+") ++ toString first.natAbs

def writeScaled (layout : Layout) (value : Scaled) : String :=
  let first := value.exponent + (toString value.digits).length - 1
  match layout.positional with
  | none => writePositional layout.pointZero value
  | some (least, most) =>
    if least ≤ first ∧ first ≤ most then writePositional layout.pointZero value
    else writeExponent first value

def write (layout : Layout) (x : Float) : String :=
  if x.isNaN then "NaN"
  else
    let sign := if x.toBits.toNat < signBit then "" else "-"
    if x.isInf then sign ++ "inf"
    else if x == 0 then sign ++ (if layout.pointZero then "0.0" else "0")
    else sign ++ layout.writeScaled (shortest layout.tie x)

end Layout

end Formulary.Decimal
