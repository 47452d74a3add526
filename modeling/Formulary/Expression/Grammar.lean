import Formulary.Expression.Token

/-!
The grammar of expressions, from the loosest category to the tightest:

    sum     := product (("+" | "-") product)*
    product := operand (("*" | "/") operand)*
    operand := ("+" | "-") operand | primary
    primary := NUMBER | REFERENCE | "(" sum ")"

A derivation has a tree and a nesting: so many signs and parentheses are open at once where most of
them are.
-/

namespace Formulary

inductive Category
  | sum
  | product
  | operand
  | primary

/-- What the categories derive. Each repetition has all that stands before it as its left operand;
parentheses only widen the span of what they enclose. -/
inductive Derives : Category → List Token → Expression → Nat → Prop
  | sum {tokens : List Token} {tree : Expression} {nesting : Nat}
      (first : Derives .product tokens tree nesting) : Derives .sum tokens tree nesting
  | sumMore {before after : List Token} {left right : Expression} {outer inner : Nat}
      {token : Token} {operator : Operator} (front : Derives .sum before left outer)
      (sign : token.symbol.sumOperator? = some operator) (next : Derives .product after right inner) :
      Derives .sum (before ++ token :: after)
        (.binary operator left right (left.span.cover right.span)) (max outer inner)
  | product {tokens : List Token} {tree : Expression} {nesting : Nat}
      (first : Derives .operand tokens tree nesting) : Derives .product tokens tree nesting
  | productMore {before after : List Token} {left right : Expression} {outer inner : Nat}
      {token : Token} {operator : Operator} (front : Derives .product before left outer)
      (sign : token.symbol.productOperator? = some operator)
      (next : Derives .operand after right inner) :
      Derives .product (before ++ token :: after)
        (.binary operator left right (left.span.cover right.span)) (max outer inner)
  | signed {tokens : List Token} {tree : Expression} {nesting : Nat} {token : Token} {sign : Sign}
      (marked : token.symbol.sign? = some sign) (operand : Derives .operand tokens tree nesting) :
      Derives .operand (token :: tokens) (.signed sign tree (token.span.cover tree.span))
        (nesting + 1)
  | operand {tokens : List Token} {tree : Expression} {nesting : Nat}
      (bare : Derives .primary tokens tree nesting) : Derives .operand tokens tree nesting
  | number {token : Token} {value : Float} (read : token.symbol = .number value) :
      Derives .primary [token] (.number value token.span) 0
  | reference {token : Token} {target : Reference} (read : token.symbol = .reference target) :
      Derives .primary [token] (.reference target token.span) 0
  | parenthesized {tokens : List Token} {tree : Expression} {nesting : Nat}
      {opening closing : Token} (opened : opening.symbol = .opening)
      (inside : Derives .sum tokens tree nesting) (closed : closing.symbol = .closing) :
      Derives .primary (opening :: tokens ++ [closing])
        (tree.within (opening.span.cover closing.span)) (nesting + 1)

end Formulary
