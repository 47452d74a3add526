import Formulary.Expression.Lexer

/-!
How a text falls into segments, from its start to its end: blanks, pairs of braces without a brace
between them, literals as long as they can be, and single characters.
-/

namespace Formulary

inductive Segment
  | blank (c : Char)
  | braced (inside : List Char)
  | literal (number : Decimal.Literal)
  | single (c : Char)

/-- The characters that stand for themselves. -/
def Symbol.ofChar? : Char → Option Symbol
  | '+' => some .plus
  | '-' => some .minus
  | '*' => some .star
  | '/' => some .slash
  | '(' => some .opening
  | ')' => some .closing
  | _ => none

def Braceless (text : List Char) : Prop :=
  ∀ c ∈ text, Lexeme.isBrace c = false

def startsLiteral (c : Char) : Bool :=
  Decimal.isDigit c || c = '.'

namespace Segment

def text : Segment → List Char
  | blank c => [c]
  | braced inside => '\x7b' :: inside ++ ['\x7d']
  | literal number => number.text
  | single c => [c]

/-- Whether a segment may stand before `rest`. An opening brace stands alone only where a second
one, or the end, comes before a closing one. -/
inductive Stands (rest : List Char) : Segment → Prop
  | blank {c : Char} (white : Text.isBlank c = true) : Stands rest (.blank c)
  | braced {inside : List Char} (bare : Braceless inside) : Stands rest (.braced inside)
  | literal {number : Decimal.Literal} (starts : number.text.head?.any startsLiteral = true)
      (longest : Decimal.Literal.scan (number.text ++ rest) = number) :
      Stands rest (.literal number)
  | single {c : Char} (visible : Text.isBlank c = false) (other : startsLiteral c = false)
      (unpaired : c = '\x7b' → ∀ inside after, Braceless inside → rest ≠ inside ++ '\x7d' :: after) :
      Stands rest (.single c)

/-- What a segment at `offset` is to the scanner; blanks are nothing. -/
def lexeme? (offset : Nat) : Segment → Option Lexeme
  | blank _ => none
  | braced inside =>
    match Reference.read (braced inside).text with
    | .ok target => some (.token (.reference target))
    | .error reason => some (.malformed reason)
  | literal number => some (Lexeme.ofLiteral offset number)
  | single c =>
    match Symbol.ofChar? c with
    | some symbol => some (.token symbol)
    | none => some (.stray (.unexpectedCharacter c offset))

def token? (offset : Nat) (segment : Segment) : Option Token :=
  match segment.lexeme? offset with
  | some (.token symbol) => some ⟨symbol, ⟨offset, offset + Text.size segment.text⟩⟩
  | _ => none

def stray? (offset : Nat) (segment : Segment) : Option ArithmeticFault :=
  match segment.lexeme? offset with
  | some (.stray fault) => some fault
  | _ => none

def malformed? (offset : Nat) (segment : Segment) : Option ExpressionFault :=
  match segment.lexeme? offset with
  | some (.malformed reason) =>
    some (.malformedReference segment.text ⟨offset, offset + Text.size segment.text⟩ reason)
  | _ => none

/-- What the segments of a text that starts at `offset` give, each at its own place. -/
def gather (part? : Nat → Segment → Option α) (offset : Nat) : List Segment → List α
  | [] => []
  | segment :: rest =>
    (part? offset segment).toList ++ gather part? (offset + Text.size segment.text) rest

def tokens (segments : List Segment) : List Token :=
  let stop := Text.size (segments.flatMap text)
  gather token? 0 segments ++ [⟨.finish, ⟨stop, stop⟩⟩]

end Segment

inductive Segmented : List Char → List Segment → Prop
  | nil : Segmented [] []
  | cons {segment : Segment} {rest : List Char} {segments : List Segment}
      (stands : segment.Stands rest) (later : Segmented rest segments) :
      Segmented (segment.text ++ rest) (segment :: segments)

/-- Whether `snippet` stands at `offset` in a text and is a pair of braces, of which the second is
the next brace after the first. -/
def Candidate (text : List Char) (offset : Nat) (snippet : List Char) : Prop :=
  ∃ before inside after, text = before ++ snippet ++ after ∧ offset = Text.size before ∧
    snippet = '\x7b' :: inside ++ ['\x7d'] ∧ Braceless inside

structure FirstMalformed (text : List Char) (offset : Nat) (snippet : List Char)
    (reason : ReferenceFault) : Prop where
  candidate : Candidate text offset snippet
  malformed : Reference.read snippet = .error reason
  first : ∀ earlier other, Candidate text earlier other → earlier < offset →
    ∃ target, Reference.read other = .ok target

end Formulary
