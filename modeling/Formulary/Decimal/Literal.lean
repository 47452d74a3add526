/-!
Unsigned decimal literals: the longest one at the start of a text, and the number it denotes.
-/

namespace Formulary.Decimal

def isDigit (c : Char) : Bool :=
  '0' ≤ c && c ≤ '9'

def digitValue (c : Char) : Nat :=
  c.toNat - '0'.toNat

def valueOfDigits (digits : List Char) (higher : Nat) : Nat :=
  digits.foldl (fun value digit => 10 * value + digitValue digit) higher

structure Exponent where
  mark : Char
  sign : Option Char
  digits : List Char
  deriving DecidableEq, Repr

namespace Exponent

def text (exponent : Exponent) : List Char :=
  exponent.mark :: exponent.sign.toList ++ exponent.digits

def value (exponent : Exponent) : Int :=
  if exponent.sign = some '-' then -valueOfDigits exponent.digits 0
  else valueOfDigits exponent.digits 0

/-- The exponent at the start of a text. A mark that no digit follows is no exponent. -/
def scan : List Char → Option Exponent
  | [] => none
  | mark :: rest =>
    if mark = 'e' ∨ mark = 'E' then
      let (sign, rest) := match rest with
        | c :: more => if c = '+' ∨ c = '-' then (some c, more) else (none, rest)
        | [] => (none, rest)
      match rest.takeWhile isDigit with
      | [] => none
      | digits => some ⟨mark, sign, digits⟩
    else none

end Exponent

structure Literal where
  whole : List Char
  fraction : Option (List Char)
  exponent : Option Exponent
  deriving DecidableEq, Repr

namespace Literal

def text (literal : Literal) : List Char :=
  literal.whole ++ (literal.fraction.elim [] ('.' :: ·)) ++ (literal.exponent.elim [] Exponent.text)

def scan (text : List Char) : Literal :=
  let whole := text.takeWhile isDigit
  match text.dropWhile isDigit with
  | '.' :: rest => ⟨whole, some (rest.takeWhile isDigit), Exponent.scan (rest.dropWhile isDigit)⟩
  | rest => ⟨whole, none, Exponent.scan rest⟩

/-- The binary64 number nearest to what the literal denotes, infinite when that is out of range.
A literal without a digit before its exponent denotes nothing. -/
def value? (literal : Literal) : Option Float :=
  let fraction := literal.fraction.getD []
  match literal.whole ++ fraction with
  | [] => none
  | digits =>
    let power := (literal.exponent.elim 0 Exponent.value) - fraction.length
    some (.ofScientific (valueOfDigits digits 0) (power < 0) power.natAbs)

end Literal

end Formulary.Decimal
