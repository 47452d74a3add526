import Formulary.Decimal.Literal
import Formulary.Expression.Reference

/-!
The tokens of a text. A malformed reference anywhere in the text outweighs every character that
starts no token, so the text is scanned to its end before one of those is reported.
-/

namespace Formulary

/-- What stands at the start of a text that does not start with a blank. -/
inductive Lexeme
  | token (symbol : Symbol)
  /-- No token; the scan goes on behind it. -/
  | stray (fault : ArithmeticFault)
  /-- The braces hold no reference; the scan ends. -/
  | malformed (reason : ReferenceFault)

namespace Lexeme

def isBrace (c : Char) : Bool :=
  c = '\x7b' || c = '\x7d'

def braced? (rest : List Char) : Option Nat :=
  match rest.dropWhile (!isBrace ·) with
  | '\x7d' :: _ => some ((rest.takeWhile (!isBrace ·)).length + 1)
  | _ => none

def ofLiteral (offset : Nat) (literal : Decimal.Literal) : Lexeme :=
  match literal.value? with
  | some value =>
    if value.isFinite then .token (.number value)
    else .stray (.invalidNumber literal.text offset)
  | none => .stray (.invalidNumber literal.text offset)

def scan (offset : Nat) (c : Char) (rest : List Char) : Lexeme × Nat :=
  match c with
  | '+' => (.token .plus, 0)
  | '-' => (.token .minus, 0)
  | '*' => (.token .star, 0)
  | '/' => (.token .slash, 0)
  | '(' => (.token .opening, 0)
  | ')' => (.token .closing, 0)
  | c =>
    if c = '\x7b' then
      match braced? rest with
      | none => (.stray (.unexpectedCharacter c offset), 0)
      | some more =>
        match Reference.read (c :: rest.take more) with
        | .ok target => (.token (.reference target), more)
        | .error reason => (.malformed reason, more)
    else if Decimal.isDigit c || c = '.' then
      let literal := Decimal.Literal.scan (c :: rest)
      (ofLiteral offset literal, literal.text.length - 1)
    else (.stray (.unexpectedCharacter c offset), 0)

end Lexeme

namespace Token

/-- The tokens of a text that starts at `offset`, or the first stray character or number in it. -/
def scanFrom (offset : Nat) (text : List Char) :
    Except ExpressionFault (Except ArithmeticFault (List Token)) :=
  match text with
  | [] => .ok (.ok [⟨.finish, ⟨offset, offset⟩⟩])
  | c :: rest =>
    if Text.isBlank c then scanFrom (offset + c.utf8Size) rest
    else
      let (lexeme, more) := Lexeme.scan offset c rest
      let stop := offset + Text.size (c :: rest.take more)
      match lexeme with
      | .malformed reason =>
        .error (.malformedReference (c :: rest.take more) ⟨offset, stop⟩ reason)
      | .stray fault =>
        (scanFrom stop (rest.drop more)).map fun _ => .error fault
      | .token symbol =>
        (scanFrom stop (rest.drop more)).map fun following =>
          following.map (⟨symbol, ⟨offset, stop⟩⟩ :: ·)
termination_by text.length
decreasing_by
  · exact Nat.lt_succ_self rest.length
  all_goals
    rw [List.length_drop]
    exact Nat.lt_succ_of_le (Nat.sub_le rest.length more)

def ofText (text : List Char) : Except ExpressionFault (List Token) :=
  match scanFrom 0 text with
  | .error fault => .error fault
  | .ok (.error fault) => .error (.arithmetic fault)
  | .ok (.ok tokens) => .ok tokens

end Token

end Formulary
