import Formulary.Expression.Segment
import Formulary.Text.Bytes
import Formulary.Text.Slice

/-!
The scanner as a cursor that walks over a text in bytes. All that it looks at it takes as a slice of the
text, and it is lost as soon as one of these is none. Each turn tells where the next one begins; whether
there is a last one is not settled by the definition.
-/

namespace Formulary

/-- Where the scan of a text has come to, with the tokens behind it and the first fault. -/
structure Cursor where
  place : Nat
  tokens : List Token
  fault? : Option ArithmeticFault

inductive Cursor.Turn
  | goes (next : Cursor)
  | ends (answer : Except ExpressionFault (List Token))

namespace Cursor

def start : Cursor :=
  ⟨0, [], none⟩

def pass (stop : Nat) (cursor : Cursor) : Turn :=
  .goes { cursor with place := stop }

def take (symbol : Symbol) (stop : Nat) (cursor : Cursor) : Turn :=
  .goes ⟨stop, cursor.tokens ++ [⟨symbol, ⟨cursor.place, stop⟩⟩], cursor.fault?⟩

def refuse (fault : ArithmeticFault) (stop : Nat) (cursor : Cursor) : Turn :=
  .goes ⟨stop, cursor.tokens, cursor.fault?.or (some fault)⟩

def finish (stop : Nat) (cursor : Cursor) : Turn :=
  match cursor.fault? with
  | some fault => .ends (.error (.arithmetic fault))
  | none => .ends (.ok (cursor.tokens ++ [⟨.finish, ⟨stop, stop⟩⟩]))

/-! Numbers, byte by byte. -/

def isByte (c : Char) (byte : UInt8) : Bool :=
  byte.toNat = c.toNat

def isDigitByte (byte : UInt8) : Bool :=
  '0'.toNat ≤ byte.toNat && byte.toNat ≤ '9'.toNat

def pastDigits (bytes : List UInt8) (place : Nat) : Nat :=
  place + ((bytes.drop place).takeWhile isDigitByte).length

/-- The place behind an exponent at `place`. A mark that no digit follows is left standing. -/
def pastExponent (bytes : List UInt8) (place : Nat) : Nat :=
  if bytes[place]?.any fun byte => isByte 'e' byte || isByte 'E' byte then
    let digits :=
      if bytes[place + 1]?.any fun byte => isByte '+' byte || isByte '-' byte then place + 2
      else place + 1
    if bytes[digits]?.any isDigitByte then pastDigits bytes digits else place
  else place

def pastNumber (bytes : List UInt8) (place : Nat) : Nat :=
  let whole := pastDigits bytes place
  pastExponent bytes <|
    if bytes[whole]?.any (isByte '.') then pastDigits bytes (whole + 1) else whole

def valueOf? (literal : List Char) : Option Float :=
  let number := Decimal.Literal.scan literal
  if number.text = literal then number.value?.filter (·.isFinite) else none

/-! Braces. -/

/-- The place of the first brace. -/
def brace? (text : List Char) : Option Nat :=
  if text.any Lexeme.isBrace then some (Text.size (text.takeWhile (!Lexeme.isBrace ·))) else none

/-- The place behind the closing brace if that is the next one behind the opening brace at `place`. -/
def pastBraces (text : List Char) (place : Nat) : Option (Option Nat) := do
  let (_, inside) ← Text.cut? (place + 1) text
  match brace? inside with
  | none => some none
  | some offset =>
    let (_, behind) ← Text.cut? offset inside
    some (if behind.head? = some '\x7d' then some (place + 1 + offset + 1) else none)

/-! Turns. -/

def turnAtNumber (text : List Char) (cursor : Cursor) : Option Turn := do
  let stop := pastNumber (Text.bytes text) cursor.place
  let literal ← Text.slice? cursor.place stop text
  match valueOf? literal with
  | some value => some (cursor.take (.number value) stop)
  | none => some (cursor.refuse (.invalidNumber literal cursor.place) stop)

def turnAtBrace (text : List Char) (cursor : Cursor) : Option Turn := do
  match ← pastBraces text cursor.place with
  | none => some (cursor.refuse (.unexpectedCharacter '\x7b' cursor.place) (cursor.place + 1))
  | some stop =>
    let snippet ← Text.slice? cursor.place stop text
    match Reference.read snippet with
    | .ok target => some (cursor.take (.reference target) stop)
    | .error reason =>
      some (.ends (.error (.malformedReference snippet ⟨cursor.place, stop⟩ reason)))

def turnAt (text : List Char) (c : Char) (cursor : Cursor) : Option Turn :=
  if Text.isBlank c then some (cursor.pass (cursor.place + c.utf8Size))
  else match Symbol.ofChar? c with
    | some symbol => some (cursor.take symbol (cursor.place + 1))
    | none =>
      if c = '\x7b' then cursor.turnAtBrace text
      else if startsLiteral c then cursor.turnAtNumber text
      else
        let fault := .unexpectedCharacter c cursor.place
        some (cursor.refuse fault (cursor.place + c.utf8Size))

/-- One turn of the scan; none if a slice is none. -/
def turn? (text : List Char) (cursor : Cursor) : Option Turn :=
  match Text.cut? cursor.place text with
  | none => none
  | some (_, []) => some (cursor.finish (Text.size text))
  | some (_, c :: _) => cursor.turnAt text c

/-- What comes of all turns from a cursor on: nothing where a slice is none. -/
inductive Leads (text : List Char) : Cursor → Option (Except ExpressionFault (List Token)) → Prop
  | lost {cursor : Cursor} (nothing : cursor.turn? text = none) : Leads text cursor none
  | done {cursor : Cursor} {answer : Except ExpressionFault (List Token)}
      (last : cursor.turn? text = some (.ends answer)) : Leads text cursor (some answer)
  | on {cursor next : Cursor} {outcome : Option (Except ExpressionFault (List Token))}
      (turns : cursor.turn? text = some (.goes next)) (later : Leads text next outcome) :
      Leads text cursor outcome

end Cursor

end Formulary
