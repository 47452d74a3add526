import Formulary.Record

/-!
Arithmetic expressions over numbers and references to variables. Every node carries the span of
the text that it was read from.
-/

namespace Formulary

structure Span where
  start : Nat
  stop : Nat
  deriving DecidableEq, Repr

def Span.cover (left right : Span) : Span :=
  ⟨min left.start right.start, max left.stop right.stop⟩

/-- A mention of a variable. Only the id says which one is meant. -/
structure Reference where
  id : Int
  name : Option String
  deriving DecidableEq, Repr

inductive Sign
  | plus
  | minus
  deriving DecidableEq, Repr

inductive Operator
  | add
  | subtract
  | multiply
  | divide
  deriving DecidableEq, Repr

def Sign.symbol : Sign → Char
  | plus => '+'
  | minus => '-'

def Operator.symbol : Operator → Char
  | add => '+'
  | subtract => '-'
  | multiply => '*'
  | divide => '/'

inductive Expression
  | number (value : Float) (span : Span)
  | reference (target : Reference) (span : Span)
  | signed (sign : Sign) (operand : Expression) (span : Span)
  | binary (operator : Operator) (left right : Expression) (span : Span)

namespace Expression

def span : Expression → Span
  | number _ span => span
  | reference _ span => span
  | signed _ _ span => span
  | binary _ _ _ span => span

def within (bounds : Span) : Expression → Expression
  | number value _ => number value bounds
  | reference target _ => reference target bounds
  | signed sign operand _ => signed sign operand bounds
  | binary operator left right _ => binary operator left right bounds

def height : Expression → Nat
  | number _ _ => 1
  | reference _ _ => 1
  | signed _ operand _ => operand.height + 1
  | binary _ left right _ => max left.height right.height + 1

/-- The variables mentioned, from left to right and as often as they are. -/
def mentions : Expression → List Int
  | number _ _ => []
  | reference target _ => [target.id]
  | signed _ operand _ => operand.mentions
  | binary _ left right _ => left.mentions ++ right.mentions

/-- The variables mentioned, each once, in the order in which they first appear. -/
def references (expression : Expression) : List Int :=
  expression.mentions.eraseDups

@[simp] theorem span_within (bounds : Span) (expression : Expression) :
    (expression.within bounds).span = bounds := by
  cases expression <;> rfl

@[simp] theorem height_within (bounds : Span) (expression : Expression) :
    (expression.within bounds).height = expression.height := by
  cases expression <;> rfl

@[simp] theorem mentions_within (bounds : Span) (expression : Expression) :
    (expression.within bounds).mentions = expression.mentions := by
  cases expression <;> rfl

end Expression

end Formulary
