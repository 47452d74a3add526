import Formulary.Decimal.Layout
import Formulary.Expression.Tree

/-!
The tokens of an expression.
-/

namespace Formulary

inductive Symbol
  | number (value : Float)
  | reference (target : Reference)
  | plus
  | minus
  | star
  | slash
  | opening
  | closing
  /-- Stands once, at the end of the text. -/
  | finish

structure Token where
  symbol : Symbol
  span : Span

namespace Symbol

def describe : Symbol → String
  | number value => Decimal.Layout.plain.write value
  | reference target => s!"reference to variable {target.id}"
  | plus => "`+`"
  | minus => "`-`"
  | star => "`*`"
  | slash => "`/`"
  | opening => "`(`"
  | closing => "`)`"
  | finish => "end of expression"

def sign? : Symbol → Option Sign
  | plus => some .plus
  | minus => some .minus
  | _ => none

def sumOperator? : Symbol → Option Operator
  | plus => some .add
  | minus => some .subtract
  | _ => none

def productOperator? : Symbol → Option Operator
  | star => some .multiply
  | slash => some .divide
  | _ => none

end Symbol

end Formulary
