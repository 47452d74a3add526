import Formulary.Expression.Token
import Formulary.Json.Printer
import Formulary.Json.Reader

/-!
Why a text is no expression, or an expression has no value.
-/

namespace Formulary

inductive ReferenceFault
  | notJson (fault : Json.Fault)
  | notObject (found : Json)
  | missingId
  | idNotInteger (found : Json)

def ReferenceFault.message : ReferenceFault → String
  | notJson fault => s!"not a valid object literal: {fault.message}"
  | notObject found => s!"expected an object literal, got `{found.write}`"
  | missingId => "reference is missing the `id` field"
  | idNotInteger found => s!"reference `id` must be an integer, got `{found.write}`"

inductive ArithmeticFault
  | empty
  | unexpectedCharacter (character : Char) (offset : Nat)
  | invalidNumber (literal : List Char) (offset : Nat)
  | unexpectedToken (found : Token)
  | unexpectedEnd
  | unclosed (offset : Nat)
  | nestedTooDeep (limit : Nat)
  | divisionByZero (offset : Nat)
  | notFinite (operator : Operator) (offset : Nat)

def ArithmeticFault.message : ArithmeticFault → String
  | empty => "expression is empty"
  | unexpectedCharacter character offset =>
    s!"unexpected character `{character}` at offset {offset}"
  | invalidNumber literal offset =>
    s!"invalid number literal `{String.ofList literal}` at offset {offset}"
  | unexpectedToken found => s!"unexpected {found.symbol.describe} at offset {found.span.start}"
  | unexpectedEnd => "expression ended where an operand was expected"
  | unclosed offset => s!"parenthesis opened at offset {offset} is never closed"
  | nestedTooDeep limit => s!"expression nesting exceeds {limit} levels"
  | divisionByZero offset => s!"division by zero (divisor at offset {offset})"
  | notFinite operator offset =>
    s!"operator `{operator.symbol}` at offset {offset} produced a non-finite value"

inductive ExpressionFault
  | malformedReference (snippet : List Char) (span : Span) (reason : ReferenceFault)
  | unknownVariable (id : Int)
  | arithmetic (fault : ArithmeticFault)

namespace ExpressionFault

def message : ExpressionFault → String
  | malformedReference snippet span reason =>
    let text := String.ofList snippet
    s!"invalid variable reference `{text}` at {span.start}..{span.stop}: {reason.message}"
  | unknownVariable id => s!"variable not found: {id}"
  | arithmetic fault => fault.message

def cause? : ExpressionFault → Option String
  | arithmetic fault => some fault.message
  | _ => none

end ExpressionFault

end Formulary
