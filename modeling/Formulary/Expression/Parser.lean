import Formulary.Expression.Lexer

/-!
Parsing of token sequences. From the loosest to the tightest rule:

    sum     := product (("+" | "-") product)*
    product := operand (("*" | "/") operand)*
    operand := ("+" | "-") operand | NUMBER | REFERENCE | "(" sum ")"

Operators of one level group to the left. Two limits hold: so many signs and parentheses may be
open at once, and so high may the tree become.
-/

namespace Formulary

open ArithmeticFault

def greatestDepth : Nat := 256

def greatestHeight : Nat := 1024

/-- An expression parsed at the start of `tokens`, its height, and the shorter sequence that
follows it. -/
structure Parsed (tokens : List Token) where
  expression : Expression
  height : Nat
  rest : List Token
  shorter : rest.length < tokens.length

abbrev Rule : Type :=
  (tokens : List Token) → Except ArithmeticFault (Parsed tokens)

def grow (height : Nat) : Except ArithmeticFault Nat :=
  if height + 1 > greatestHeight then .error (nestedTooDeep greatestHeight) else .ok (height + 1)

def chainFrom (operator? : Symbol → Option Operator) (rule : Rule) (left : Expression)
    (height : Nat) (tokens : List Token) :
    Except ArithmeticFault { parsed : Expression × Nat × List Token //
      parsed.2.2.length ≤ tokens.length } :=
  match tokens with
  | [] => .ok ⟨(left, height, []), by simp⟩
  | token :: rest =>
    match operator? token.symbol with
    | none => .ok ⟨(left, height, token :: rest), by simp⟩
    | some operator => do
      let right ← rule rest
      let height ← grow (max height right.height)
      let whole := .binary operator left right.expression (left.span.cover right.expression.span)
      let ⟨parsed, shorter⟩ ← chainFrom operator? rule whole height right.rest
      return ⟨parsed, by have := right.shorter; simp; omega⟩
termination_by tokens.length
decreasing_by have := right.shorter; simp; omega

def chain (operator? : Symbol → Option Operator) (rule : Rule) : Rule := fun tokens => do
  let first ← rule tokens
  let ⟨(expression, height, rest), shorter⟩ ←
    chainFrom operator? rule first.expression first.height first.rest
  return ⟨expression, height, rest, by have := first.shorter; simp at shorter; omega⟩

def sumOf (rule : Rule) : Rule :=
  chain Symbol.sumOperator? (chain Symbol.productOperator? rule)

def parenthesized (rule : Rule) (opening : Span) : Rule := fun tokens => do
  let inner ← rule tokens
  match same : inner.rest with
  | [] => throw (unclosed opening.start)
  | token :: rest =>
    match token.symbol with
    | .closing =>
      return ⟨inner.expression.within (opening.cover token.span), inner.height, rest, by
        have := inner.shorter; simp [same] at this; omega⟩
    | .finish => throw (unclosed opening.start)
    | _ => throw (unexpectedToken token)

def signedBy (rule : Rule) (sign : Sign) (span : Span) : Rule := fun tokens => do
  let operand ← rule tokens
  let height ← grow operand.height
  return ⟨.signed sign operand.expression (span.cover operand.expression.span), height,
    operand.rest, operand.shorter⟩

/-- An operand inside which `depth` more signs and parentheses may be opened. -/
def operandWithin (depth : Nat) (tokens : List Token) :
    Except ArithmeticFault (Parsed tokens) :=
  match tokens with
  | [] => .error unexpectedEnd
  | token :: rest =>
    let longer (parsed : Parsed rest) : Parsed (token :: rest) :=
      ⟨parsed.expression, parsed.height, parsed.rest, by have := parsed.shorter; simp; omega⟩
    match token.symbol.sign?, depth with
    | some _, 0 => .error (nestedTooDeep greatestDepth)
    | some sign, depth + 1 => (signedBy (operandWithin depth) sign token.span rest).map longer
    | none, depth =>
      match token.symbol, depth with
      | .number value, _ => .ok ⟨.number value token.span, 1, rest, by simp⟩
      | .reference target, _ => .ok ⟨.reference target token.span, 1, rest, by simp⟩
      | .opening, 0 => .error (nestedTooDeep greatestDepth)
      | .opening, depth + 1 =>
        (parenthesized (sumOf (operandWithin depth)) token.span rest).map longer
      | .finish, _ => .error unexpectedEnd
      | _, _ => .error (unexpectedToken token)

def Expression.ofTokens (tokens : List Token) : Except ArithmeticFault Expression :=
  match tokens with
  | [] => .error empty
  | first :: _ =>
    match first.symbol with
    | .finish => .error empty
    | _ => do
      let parsed ← sumOf (operandWithin greatestDepth) tokens
      match parsed.rest with
      | [] => return parsed.expression
      | token :: _ =>
        match token.symbol with
        | .finish => return parsed.expression
        | _ => throw (unexpectedToken token)

def Expression.parse (text : String) : Except ExpressionFault Expression :=
  match Token.ofText text.toList with
  | .error fault => .error fault
  | .ok tokens =>
    match Expression.ofTokens tokens with
    | .error fault => .error (.arithmetic fault)
    | .ok expression => .ok expression

end Formulary
