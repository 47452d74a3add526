import Formulary.Decimal.Literal
import Formulary.Json.Value
import Formulary.Text.Integer
import Formulary.Text.Position

/-!
Reading of JSON texts. A text that is not JSON is refused with the first fault in it and the place
up to which it had been looked at.

Every reading step returns what it leaves of the text together with a proof that this is less than
it was given; the loops over the items of arrays and objects end for that reason.
-/

namespace Formulary.Json

inductive Cause
  | expectedValue
  | expectedIdentifier
  | expectedKey
  | expectedColon
  | expectedItemEnd
  | expectedFieldEnd
  | trailingComma
  | trailingCharacters
  | invalidNumber
  | numberOutOfRange
  | invalidEscape
  | unpairedEscape
  | loneSurrogate
  | controlCharacter
  | endInText
  | endInValue
  | endInArray
  | endInObject
  | nestedTooDeep
  deriving DecidableEq, Repr

def Cause.message : Cause → String
  | expectedValue => "expected value"
  | expectedIdentifier => "expected ident"
  | expectedKey => "key must be a string"
  | expectedColon => "expected `:`"
  | expectedItemEnd => "expected `,` or `]`"
  | expectedFieldEnd => "expected `,` or `\x7d`"
  | trailingComma => "trailing comma"
  | trailingCharacters => "trailing characters"
  | invalidNumber => "invalid number"
  | numberOutOfRange => "number out of range"
  | invalidEscape => "invalid escape"
  | unpairedEscape => "unexpected end of hex escape"
  | loneSurrogate => "lone leading surrogate in hex escape"
  | controlCharacter => "control character (\\u0000-\\u001F) found while parsing a string"
  | endInText => "EOF while parsing a string"
  | endInValue => "EOF while parsing a value"
  | endInArray => "EOF while parsing a list"
  | endInObject => "EOF while parsing an object"
  | nestedTooDeep => "recursion limit exceeded"

structure Failure where
  cause : Cause
  unread : List Char
  looked : Nat
  deriving DecidableEq, Repr

structure Reading (α : Type) (text : List Char) where
  value : α
  rest : List Char
  shorter : rest.length < text.length

abbrev Reader (α : Type) : Type :=
  (text : List Char) → Except Failure (Reading α text)

structure Passing (α : Type) (text : List Char) where
  value : α
  rest : List Char
  notLonger : rest.length ≤ text.length

def isBlank (c : Char) : Bool :=
  c = ' ' || c = '\n' || c = '\t' || c = '\r'

def skipBlanks (text : List Char) : List Char :=
  text.dropWhile isBlank

theorem skipBlanks_length_le (text : List Char) : (skipBlanks text).length ≤ text.length :=
  (List.dropWhile_suffix isBlank).length_le

theorem length_lt_of_skipBlanks {text rest : List Char} {c : Char}
    (skipped : skipBlanks text = c :: rest) : rest.length < text.length := by
  have := skipBlanks_length_le text
  simp [skipped] at this
  omega

section Inside

variable {α : Type} {text rest : List Char}

theorem Reading.inside (read : Reading α rest) (less : rest.length < text.length) :
    read.rest.length < text.length :=
  Nat.lt_trans read.shorter less

theorem Passing.inside (read : Passing α rest) (less : rest.length < text.length) :
    read.rest.length < text.length :=
  Nat.lt_of_le_of_lt read.notLonger less

theorem Reading.inside_skipped {c : Char} (read : Reading α (c :: rest))
    (skipped : skipBlanks text = c :: rest) : read.rest.length < text.length :=
  Nat.lt_of_lt_of_le read.shorter (skipped ▸ skipBlanks_length_le text)

end Inside

section Text

def readHex : Reader Nat
  | a :: b :: c :: d :: rest =>
    match Text.hexValue? a, Text.hexValue? b, Text.hexValue? c, Text.hexValue? d with
    | some a, some b, some c, some d =>
      .ok ⟨((a * 16 + b) * 16 + c) * 16 + d, rest, by simp; omega⟩
    | _, _, _, _ => .error ⟨.invalidEscape, a :: b :: c :: d :: rest, 4⟩
  | short =>
    if Text.size short < 4 then .error ⟨.endInText, [], 0⟩ else .error ⟨.invalidEscape, short, 4⟩

def isLeading (unit : Nat) : Bool :=
  0xD800 ≤ unit && unit ≤ 0xDBFF

def isTrailing (unit : Nat) : Bool :=
  0xDC00 ≤ unit && unit ≤ 0xDFFF

def readTrailing (leading : Nat) : Reader Char
  | [] => .error ⟨.endInText, [], 0⟩
  | c :: rest =>
    if c ≠ '\\' then .error ⟨.unpairedEscape, c :: rest, 1⟩
    else match rest with
      | [] => .error ⟨.endInText, [], 0⟩
      | d :: digits =>
        if d ≠ 'u' then .error ⟨.unpairedEscape, d :: digits, 1⟩
        else do
          let trailing ← readHex digits
          if isTrailing trailing.value then
            return ⟨.ofNat ((leading - 0xD800) * 0x400 + (trailing.value - 0xDC00) + 0x10000),
              trailing.rest, Nat.lt_succ_of_lt (Nat.lt_succ_of_lt trailing.shorter)⟩
          else throw ⟨.loneSurrogate, trailing.rest, 0⟩

def simpleEscape? : Char → Option Char
  | '"' => some '"'
  | '\\' => some '\\'
  | '/' => some '/'
  | 'b' => some '\x08'
  | 'f' => some '\x0c'
  | 'n' => some '\n'
  | 'r' => some '\r'
  | 't' => some '\t'
  | _ => none

def readEscape : Reader Char
  | [] => .error ⟨.endInText, [], 0⟩
  | c :: rest =>
    match simpleEscape? c with
    | some escaped => .ok ⟨escaped, rest, by simp⟩
    | none =>
      if c ≠ 'u' then .error ⟨.invalidEscape, c :: rest, 1⟩
      else do
        let unit ← readHex rest
        if isTrailing unit.value then throw ⟨.loneSurrogate, unit.rest, 0⟩
        else if isLeading unit.value then
          let pair ← readTrailing unit.value unit.rest
          return ⟨pair.value, pair.rest,
            by have := unit.shorter; have := pair.shorter; simp; omega⟩
        else return ⟨.ofNat unit.value, unit.rest, by have := unit.shorter; simp; omega⟩

def readText (text : List Char) : Except Failure (Reading (List Char) text) :=
  match text with
  | [] => .error ⟨.endInText, [], 0⟩
  | c :: rest =>
    if c = '"' then .ok ⟨[], rest, by simp⟩
    else if c = '\\' then do
      let escaped ← readEscape rest
      let more ← readText escaped.rest
      return ⟨escaped.value :: more.value, more.rest,
        by have := escaped.shorter; have := more.shorter; simp; omega⟩
    else if c.toNat < 0x20 then .error ⟨.controlCharacter, c :: rest, 1⟩
    else do
      let more ← readText rest
      return ⟨c :: more.value, more.rest, by have := more.shorter; simp; omega⟩
termination_by text.length
decreasing_by
  · have := escaped.shorter; simp; omega
  · simp

end Text

section Number

def greatestSignificand : Nat := 18446744073709551615

def greatestMagnitude : Nat := 9223372036854775808

def greatestExponent : Nat := 2147483647

/-- `significand` followed by as many of the digits as it has room for, and how many were left. -/
def accumulate (significand : Nat) : List Char → Nat × Nat
  | [] => (significand, 0)
  | digit :: rest =>
    let longer := 10 * significand + Decimal.digitValue digit
    if longer > greatestSignificand then (significand, rest.length + 1)
    else accumulate longer rest

/-- `x * 10 ^ exponent` by one multiplication or division with a power up to `10 ^ 308`, after
divisions that bring a very small exponent up to that; `none` when the result is out of range. -/
def scale (x : Float) (exponent : Int) : Option Float :=
  if exponent.natAbs ≤ 308 then
    let power := Float.ofScientific 1 false exponent.natAbs
    if 0 ≤ exponent then
      let product := x * power
      if product.isInf then none else some product
    else some (x / power)
  else if x == 0 then some x
  else if 0 ≤ exponent then none
  else scale (x / Float.ofScientific 1 false 308) (exponent + 308)
termination_by (-exponent).toNat
decreasing_by omega

def excess? (digits : List Char) : Option Nat :=
  (List.range digits.length).find? fun count =>
    Decimal.valueOfDigits (digits.take (count + 1)) 0 > greatestExponent

theorem dropDigits_length_le (text : List Char) :
    (text.dropWhile Decimal.isDigit).length ≤ text.length :=
  (List.dropWhile_suffix Decimal.isDigit).length_le

def readWhole : Reader (List Char)
  | [] => .error ⟨.endInValue, [], 0⟩
  | c :: rest =>
    if c = '0' then
      match rest with
      | d :: more =>
        if Decimal.isDigit d then .error ⟨.invalidNumber, d :: more, 1⟩
        else .ok ⟨['0'], d :: more, by simp⟩
      | [] => .ok ⟨['0'], [], by simp⟩
    else if Decimal.isDigit c then
      .ok ⟨c :: rest.takeWhile Decimal.isDigit, rest.dropWhile Decimal.isDigit,
        Nat.lt_succ_of_le (dropDigits_length_le rest)⟩
    else .error ⟨.invalidNumber, c :: rest, 1⟩

def readDigits (text : List Char) : Except Failure (Passing (List Char) text) :=
  match text.takeWhile Decimal.isDigit with
  | [] => .error (if text = [] then ⟨.endInValue, [], 0⟩ else ⟨.invalidNumber, text, 1⟩)
  | digits => .ok ⟨digits, text.dropWhile Decimal.isDigit, dropDigits_length_le text⟩

def readFraction (text : List Char) : Except Failure (Passing (Option (List Char)) text) :=
  match text with
  | [] => .ok ⟨none, [], by simp⟩
  | c :: rest =>
    if c ≠ '.' then .ok ⟨none, c :: rest, by simp⟩
    else do
      let digits ← readDigits rest
      return ⟨some digits.value, digits.rest, by have := digits.notLonger; simp; omega⟩

def readSign (text : List Char) : Passing (Option Char) text :=
  match text with
  | [] => ⟨none, [], by simp⟩
  | c :: rest =>
    if c = '+' ∨ c = '-' then ⟨some c, rest, by simp⟩ else ⟨none, c :: rest, by simp⟩

def readExponent (text : List Char) :
    Except Failure (Passing (Option Decimal.Exponent) text) :=
  match text with
  | [] => .ok ⟨none, [], by simp⟩
  | mark :: rest =>
    if mark ≠ 'e' ∧ mark ≠ 'E' then .ok ⟨none, mark :: rest, by simp⟩
    else do
      let sign := readSign rest
      let digits ← readDigits sign.rest
      return ⟨some ⟨mark, sign.value, digits.value⟩, digits.rest, by
        have := sign.notLonger; have := digits.notLonger; simp; omega⟩

/-- The number that a sign, digits and an exponent denote. An integer that fits 64 bits is kept as
it is; all else is the product of a 64-bit significand and a power of ten. `none` is a number out
of range. -/
def numberOf (negative : Bool) (whole : List Char) (fraction : Option (List Char))
    (exponent : Option Decimal.Exponent) : Option Number :=
  let (significand, dropped) := accumulate 0 whole
  let signed (x : Float) := Number.real (if negative then -x else x)
  if fraction.isNone ∧ exponent.isNone ∧ dropped = 0 then
    if !negative then some (.integer significand)
    else if significand = 0 ∨ significand > greatestMagnitude then
      some (signed significand.toUInt64.toFloat)
    else some (.integer (-significand))
  else
    let places := fraction.getD []
    let (significand, unused) := accumulate significand places
    let power := (dropped : Int) - (places.length - unused : Nat) +
      exponent.elim 0 Decimal.Exponent.value
    (scale significand.toUInt64.toFloat power).map signed

def isZero (whole : List Char) (fraction : Option (List Char)) : Bool :=
  (whole ++ fraction.getD []).all (· = '0')

/-- A number after its sign. An exponent past the greatest one makes every number but zero
overflow or vanish. -/
def readNumber (negative : Bool) (text : List Char) : Except Failure (Reading Number text) := do
  let whole ← readWhole text
  let fraction ← readFraction whole.rest
  let exponent ← readExponent fraction.rest
  have shorter : exponent.rest.length < text.length := by
    have := whole.shorter; have := fraction.notLonger; have := exponent.notLonger; omega
  match exponent.value.bind fun e => (excess? e.digits).map ((e, ·)) with
  | some (e, count) =>
    if e.sign = some '-' ∨ isZero whole.value fraction.value then
      return ⟨.real (if negative then -0.0 else 0.0), exponent.rest, shorter⟩
    else throw ⟨.numberOutOfRange, e.digits.drop (count + 1) ++ exponent.rest, 0⟩
  | none =>
    match numberOf negative whole.value fraction.value exponent.value with
    | some value => return ⟨value, exponent.rest, shorter⟩
    | none => throw ⟨.numberOutOfRange, exponent.rest, 0⟩

end Number

def readIdentifier (expected : List Char) (value : Json) (text : List Char) :
    Except Failure (Passing Json text) :=
  match expected, text with
  | [], text => .ok ⟨value, text, by simp⟩
  | _ :: _, [] => .error ⟨.endInValue, [], 0⟩
  | e :: expected, c :: rest =>
    if e = c then do
      let read ← readIdentifier expected value rest
      return ⟨read.value, read.rest, by have := read.notLonger; simp; omega⟩
    else .error ⟨.expectedIdentifier, c :: rest, 1⟩

def readItems (item : Reader Json) (text : List Char) :
    Except Failure (Reading (List Json) text) :=
  match skipped : skipBlanks text with
  | [] => .error ⟨.endInArray, [], 0⟩
  | c :: rest =>
    have inside := length_lt_of_skipBlanks skipped
    if c = ']' then .ok ⟨[], rest, inside⟩
    else if c ≠ ',' then .error ⟨.expectedItemEnd, c :: rest, 1⟩
    else match skippedNext : skipBlanks rest with
      | [] => .error ⟨.endInValue, [], 0⟩
      | d :: tail =>
        have within := length_lt_of_skipBlanks skippedNext
        if d = ']' then .error ⟨.trailingComma, d :: tail, 1⟩
        else do
          let head ← item (d :: tail)
          let more ← readItems item head.rest
          return ⟨head.value :: more.value, more.rest, by
            have := head.shorter; have := more.shorter; simp at *; omega⟩
termination_by text.length
decreasing_by have := head.shorter; simp at *; omega

def readArray (item : Reader Json) (text : List Char) :
    Except Failure (Reading (List Json) text) :=
  match skipped : skipBlanks text with
  | [] => .error ⟨.endInArray, [], 0⟩
  | c :: rest =>
    have inside := length_lt_of_skipBlanks skipped
    if c = ']' then .ok ⟨[], rest, inside⟩
    else do
      let head ← item (c :: rest)
      let more ← readItems item head.rest
      return ⟨head.value :: more.value, more.rest, by
        have := head.shorter; have := more.shorter; simp at *; omega⟩

def readField (item : Reader Json) (text : List Char) :
    Except Failure (Reading (String × Json) text) := do
  let key ← readText text
  match skipped : skipBlanks key.rest with
  | [] => throw ⟨.endInObject, [], 0⟩
  | c :: rest =>
    have inside := length_lt_of_skipBlanks skipped
    if c ≠ ':' then throw ⟨.expectedColon, c :: rest, 1⟩
    let value ← item rest
    return ⟨(.ofList key.value, value.value), value.rest, by
      have := key.shorter; have := value.shorter; omega⟩

def readFields (item : Reader Json) (text : List Char) :
    Except Failure (Reading (List (String × Json)) text) :=
  match skipped : skipBlanks text with
  | [] => .error ⟨.endInObject, [], 0⟩
  | c :: rest =>
    have inside := length_lt_of_skipBlanks skipped
    if c = '\x7d' then .ok ⟨[], rest, inside⟩
    else if c ≠ ',' then .error ⟨.expectedFieldEnd, c :: rest, 1⟩
    else match skippedNext : skipBlanks rest with
      | [] => .error ⟨.endInValue, [], 0⟩
      | d :: tail =>
        have within := length_lt_of_skipBlanks skippedNext
        if d = '\x7d' then .error ⟨.trailingComma, d :: tail, 1⟩
        else if d ≠ '"' then .error ⟨.expectedKey, d :: tail, 1⟩
        else do
          let head ← readField item tail
          let more ← readFields item head.rest
          return ⟨head.value :: more.value, more.rest, by
            have := head.shorter; have := more.shorter; simp at *; omega⟩
termination_by text.length
decreasing_by have := head.shorter; simp at *; omega

def readObject (item : Reader Json) (text : List Char) :
    Except Failure (Reading (List (String × Json)) text) :=
  match skipped : skipBlanks text with
  | [] => .error ⟨.endInObject, [], 0⟩
  | c :: rest =>
    have inside := length_lt_of_skipBlanks skipped
    if c = '\x7d' then .ok ⟨[], rest, inside⟩
    else if c ≠ '"' then .error ⟨.expectedKey, c :: rest, 1⟩
    else do
      let head ← readField item rest
      let more ← readFields item head.rest
      return ⟨head.value :: more.value, more.rest, by
        have := head.shorter; have := more.shorter; simp at *; omega⟩

def readValue (depth : Nat) (text : List Char) : Except Failure (Reading Json text) :=
  match skipped : skipBlanks text with
  | [] => .error ⟨.endInValue, [], 0⟩
  | c :: rest =>
    have inside := length_lt_of_skipBlanks skipped
    let identifier (expected : String) (value : Json) : Except Failure (Reading Json text) := do
      let read ← readIdentifier expected.toList value rest
      return ⟨read.value, read.rest, read.inside inside⟩
    match c with
    | 'n' => identifier "ull" .null
    | 't' => identifier "rue" (.boolean true)
    | 'f' => identifier "alse" (.boolean false)
    | '"' => do
      let read ← readText rest
      return ⟨.text (.ofList read.value), read.rest, read.inside inside⟩
    | '-' => do
      let read ← readNumber true rest
      return ⟨.number read.value, read.rest, read.inside inside⟩
    | '[' =>
      match depth with
      | 0 => .error ⟨.nestedTooDeep, c :: rest, 1⟩
      | depth + 1 => do
        let read ← readArray (readValue depth) rest
        return ⟨.array read.value, read.rest, read.inside inside⟩
    | '\x7b' =>
      match depth with
      | 0 => .error ⟨.nestedTooDeep, c :: rest, 1⟩
      | depth + 1 => do
        let read ← readObject (readValue depth) rest
        return ⟨ofFields read.value, read.rest, read.inside inside⟩
    | c =>
      if Decimal.isDigit c then do
        let read ← readNumber false (c :: rest)
        return ⟨.number read.value, read.rest, read.inside_skipped skipped⟩
      else .error ⟨.expectedValue, c :: rest, 1⟩

structure Fault where
  cause : Cause
  place : Text.Position
  deriving DecidableEq, Repr

def Fault.message (fault : Fault) : String :=
  s!"{fault.cause.message} at line {fault.place.line} column {fault.place.column}"

def Failure.locate (failure : Failure) (text : List Char) : Fault :=
  ⟨failure.cause,
    Text.Position.start.advance (Text.size text - Text.size failure.unread + failure.looked) text⟩

def greatestDepth : Nat := 127

def read (text : String) : Except Fault Json :=
  match readValue greatestDepth text.toList with
  | .error failure => .error (failure.locate text.toList)
  | .ok value =>
    match skipBlanks value.rest with
    | [] => .ok value.value
    | unread => .error (Failure.locate ⟨.trailingCharacters, unread, 1⟩ text.toList)

end Formulary.Json
