import Formulary.Proofs.Tiling

/-!
Blanks between tokens. A text that has more of them is made of the same symbols, and the parser makes of
these the same tree, or stops for the same reason, wherever they stand.
-/

namespace Formulary

open ArithmeticFault

def Token.unplaced (token : Token) : Token :=
  ⟨token.symbol, ⟨0, 0⟩⟩

def Expression.unplaced : Expression → Expression
  | number value _ => number value ⟨0, 0⟩
  | reference target _ => reference target ⟨0, 0⟩
  | signed sign operand _ => signed sign operand.unplaced ⟨0, 0⟩
  | binary operator left right _ => binary operator left.unplaced right.unplaced ⟨0, 0⟩

def ArithmeticFault.unplaced : ArithmeticFault → ArithmeticFault
  | unexpectedCharacter character _ => unexpectedCharacter character 0
  | invalidNumber literal _ => invalidNumber literal 0
  | unexpectedToken found => unexpectedToken found.unplaced
  | unclosed _ => unclosed 0
  | divisionByZero _ => divisionByZero 0
  | notFinite operator _ => notFinite operator 0
  | fault => fault

def ExpressionFault.unplaced : ExpressionFault → ExpressionFault
  | malformedReference snippet _ reason => malformedReference snippet ⟨0, 0⟩ reason
  | arithmetic fault => arithmetic fault.unplaced
  | fault => fault

def Expression.parseUnplaced (text : String) : Except ExpressionFault Expression :=
  ((parse text).mapError ExpressionFault.unplaced).map unplaced

@[simp] theorem Expression.span_unplaced (tree : Expression) : tree.unplaced.span = ⟨0, 0⟩ := by
  cases tree <;> rfl

@[simp] theorem Expression.unplaced_within (bounds : Span) (tree : Expression) :
    (tree.within bounds).unplaced = tree.unplaced := by
  cases tree <;> rfl

@[simp] theorem Expression.within_unplaced (tree : Expression) :
    tree.unplaced.within ⟨0, 0⟩ = tree.unplaced := by
  cases tree <;> rfl

def bared {α β : Type} (bare : α → β) (result : Except ArithmeticFault α) : Except ArithmeticFault β :=
  (result.mapError ArithmeticFault.unplaced).map bare

theorem bared_bind {α β α' β' : Type} {bare : α → α'} {bareNext : β → β'}
    {result : Except ArithmeticFault α} {next : α → Except ArithmeticFault β}
    {next' : α' → Except ArithmeticFault β'}
    (same : ∀ value, result = .ok value → next' (bare value) = bared bareNext (next value)) :
    (bared bare result >>= next') = bared bareNext (result >>= next) := by
  cases result with
  | error fault => rfl
  | ok value => exact same value rfl

theorem bared_grow {β β' : Type} {bareNext : β → β'} {height : Nat}
    {next : Nat → Except ArithmeticFault β} {next' : Nat → Except ArithmeticFault β'}
    (same : ∀ grown, next' grown = bared bareNext (next grown)) :
    (grow height >>= next') = bared bareNext (grow height >>= next) := by
  unfold grow
  split
  · rfl
  · exact same (height + 1)

def unplacedParts : Expression × Nat × List Token → Expression × Nat × List Token
  | (tree, height, rest) => (tree.unplaced, height, rest.map Token.unplaced)

/-- Whether a rule reads the same wherever the tokens stand. -/
def Rule.Placeless (rule : Rule) : Prop :=
  ∀ tokens, rule.read (tokens.map Token.unplaced) = bared unplacedParts (rule.read tokens)

theorem Rule.Placeless.continued {operator? : Symbol → Option Operator} {rule : Rule}
    (placeless : rule.Placeless) (left : Expression) (height : Nat) (tokens : List Token) :
    Rule.continued operator? rule (left.unplaced, height, tokens.map Token.unplaced) =
      bared unplacedParts (Rule.continued operator? rule (left, height, tokens)) := by
  induction size : tokens.length using Nat.strongRecOn generalizing left height tokens with
  | ind _ ih =>
      cases tokens with
      | nil =>
          rw [List.map_nil, Rule.continued_stop (by simp), Rule.continued_stop (by simp)]
          rfl
      | cons token rest =>
          rw [List.map_cons]
          cases sign : operator? token.symbol with
          | none =>
              have stops : operator? token.unplaced.symbol = none := sign
              rw [Rule.continued_stop (by simpa using stops), Rule.continued_stop (by simpa using sign)]
              rfl
          | some operator =>
              have marked : operator? token.unplaced.symbol = some operator := sign
              rw [Rule.continued_cons marked, Rule.continued_cons sign, placeless]
              refine bared_bind fun ⟨right, rightHeight, further⟩ read => ?_
              refine bared_grow fun grown => ?_
              have shorter : further.length < (token :: rest).length :=
                Nat.lt_succ_of_lt (Rule.read_shorter read)
              rw [size] at shorter
              rw [← ih further.length shorter _ grown further rfl]
              simp [unplacedParts, Expression.unplaced, Span.cover]

theorem Rule.Placeless.chain {operator? : Symbol → Option Operator} {rule : Rule}
    (placeless : rule.Placeless) : (Formulary.chain operator? rule).Placeless := by
  intro tokens
  rw [Rule.read_chain, Rule.read_chain, placeless]
  exact bared_bind fun ⟨left, height, rest⟩ _ => placeless.continued left height rest

theorem placeless_sum {rule : Rule} (placeless : rule.Placeless) : (sumOf rule).Placeless :=
  placeless.chain.chain

theorem closed_unplaced (opening : Span) (parts : Expression × Nat × List Token) :
    closed ⟨0, 0⟩ (unplacedParts parts) = bared unplacedParts (closed opening parts) := by
  obtain ⟨tree, height, rest⟩ := parts
  cases rest with
  | nil => rfl
  | cons token rest =>
      obtain ⟨symbol, span⟩ := token
      cases symbol with
      | closing => simp [closed, unplacedParts, bared, Except.map, Except.mapError, Token.unplaced, Span.cover]
      | _ => rfl

theorem signed_unplaced {token : Token} {tokens : List Token} {sign : Sign} {depth : Nat}
    (marked : token.symbol.sign? = some sign) (placeless : Rule.Placeless (operandWithin depth)) :
    Rule.read (operandWithin (depth + 1)) ((token :: tokens).map Token.unplaced) =
      bared unplacedParts (Rule.read (operandWithin (depth + 1)) (token :: tokens)) := by
  have kept : token.unplaced.symbol.sign? = some sign := marked
  rw [List.map_cons, read_signed kept, read_signed marked, placeless]
  refine bared_bind fun ⟨operand, height, rest⟩ _ => ?_
  refine bared_grow fun grown => ?_
  simp [bared, Except.map, Except.mapError, unplacedParts, Expression.unplaced, Token.unplaced, Span.cover]

theorem opening_unplaced {token : Token} {tokens : List Token} {depth : Nat}
    (opens : token.symbol = .opening) (placeless : Rule.Placeless (operandWithin depth)) :
    Rule.read (operandWithin (depth + 1)) ((token :: tokens).map Token.unplaced) =
      bared unplacedParts (Rule.read (operandWithin (depth + 1)) (token :: tokens)) := by
  have kept : token.unplaced.symbol = .opening := opens
  rw [List.map_cons, read_opening kept, read_opening opens, placeless_sum placeless]
  exact bared_bind fun parts _ => closed_unplaced token.span parts

theorem placeless_operand (depth : Nat) : Rule.Placeless (operandWithin depth) := by
  induction depth with
  | zero =>
      intro tokens
      cases tokens with
      | nil => rfl
      | cons token rest =>
          obtain ⟨symbol, span⟩ := token
          cases symbol <;> rfl
  | succ depth ih =>
      intro tokens
      cases tokens with
      | nil => rfl
      | cons token rest =>
          cases kind : token.symbol with
          | plus => exact signed_unplaced (congrArg Symbol.sign? kind) ih
          | minus => exact signed_unplaced (congrArg Symbol.sign? kind) ih
          | opening => exact opening_unplaced kind ih
          | number | reference | star | slash | closing | finish =>
              obtain ⟨symbol, span⟩ := token
              cases kind
              rfl

theorem ended_unplaced (parts : Expression × Nat × List Token) :
    ended (unplacedParts parts) = bared Expression.unplaced (ended parts) := by
  obtain ⟨tree, height, rest⟩ := parts
  cases rest with
  | nil => rfl
  | cons token rest =>
      obtain ⟨symbol, span⟩ := token
      cases symbol <;> rfl

theorem ofTokens_unplaced (tokens : List Token) : Expression.ofTokens (tokens.map Token.unplaced) =
    bared Expression.unplaced (Expression.ofTokens tokens) := by
  cases tokens with
  | nil => rfl
  | cons token rest =>
      by_cases finish : token.symbol = .finish
      · obtain ⟨symbol, span⟩ := token
        cases finish
        rfl
      · have visible : token.unplaced.symbol ≠ .finish := finish
        rw [List.map_cons, ofTokens_eq visible, ofTokens_eq finish, ← List.map_cons,
          placeless_sum (placeless_operand greatestDepth)]
        exact bared_bind fun parts _ => ended_unplaced parts

namespace Decimal

theorem isBlank_of_isDigit {c : Char} (digit : isDigit c = true) : Text.isBlank c = false :=
  isBlank_of_startsLiteral (by simp [startsLiteral, digit])

theorem isBlank_of_mem_digits {c : Char} {text : List Char} (within : c ∈ text.takeWhile isDigit) :
    Text.isBlank c = false :=
  isBlank_of_isDigit (List.mem_takeWhile_imp within)

theorem Exponent.isBlank_of_mem_digits? {mark c : Char} {sign : Option Char} {rest : List Char}
    (marked : Text.isBlank mark = false) (signed : ∀ d ∈ sign.toList, Text.isBlank d = false)
    (within : c ∈ written (ofDigits? mark sign rest)) : Text.isBlank c = false := by
  unfold ofDigits? at within
  cases digits : rest.takeWhile isDigit with
  | nil =>
      rw [digits] at within
      cases within
  | cons digit more =>
      simp only [digits, written, Option.elim_some, text, List.mem_append, List.mem_cons] at within
      rcases within with (rfl | sign) | digit
      · exact marked
      · exact signed c sign
      · rw [← List.mem_cons, ← digits] at digit
        exact isBlank_of_mem_digits digit

theorem Exponent.isBlank_of_mem {c : Char} {text : List Char} (within : c ∈ written (scan text)) :
    Text.isBlank c = false := by
  cases text with
  | nil => cases within
  | cons mark rest =>
      rw [scan_cons] at within
      split at within
      · rename_i known
        have marked : Text.isBlank mark = false := by rcases known with rfl | rfl <;> decide
        cases rest with
        | nil => cases within
        | cons d more =>
            dsimp only at within
            split at within
            · rename_i known
              have signed : Text.isBlank d = false := by rcases known with rfl | rfl <;> decide
              exact isBlank_of_mem_digits? marked (by simpa using signed) within
            · exact isBlank_of_mem_digits? marked (by simp) within
      · cases within

theorem Literal.isBlank_of_mem {c : Char} {text : List Char} (within : c ∈ (scan text).text) :
    Text.isBlank c = false := by
  rw [scan_eq] at within
  by_cases pointed : (text.dropWhile isDigit).head? = some '.'
  · obtain ⟨rest, behind⟩ := List.head?_eq_some_iff.1 pointed
    simp only [behind, Literal.behind, Literal.text, Option.elim_some, List.mem_append, List.mem_cons] at within
    rcases within with (whole | rfl | fraction) | exponent
    · exact isBlank_of_mem_digits whole
    · decide
    · exact isBlank_of_mem_digits fraction
    · exact Exponent.isBlank_of_mem exponent
  · simp only [behind_of_pointless pointed, Literal.text, Option.elim_none, List.append_nil,
      List.mem_append] at within
    rcases within with whole | exponent
    · exact isBlank_of_mem_digits whole
    · exact Exponent.isBlank_of_mem exponent

theorem Literal.scan_before_blank {c : Char} (white : Text.isBlank c = true) (front back : List Char) :
    scan (front ++ c :: back) = scan front := by
  obtain ⟨_, rest, split⟩ := scan_text (front ++ c :: back)
  have fits : (scan (front ++ c :: back)).text.length ≤ front.length := by
    rcases List.append_eq_append_iff.1 split with ⟨between, longer, behind⟩ | ⟨between, shorter, _⟩
    · cases between with
      | nil => simp [longer]
      | cons d more =>
          obtain ⟨rfl, _⟩ := List.cons.inj behind
          have visible := @isBlank_of_mem c (front ++ c :: back) (by simp [longer])
          rw [white] at visible
          cases visible
    · have length := congrArg List.length shorter
      rw [List.length_append] at length
      omega
  exact (scan_of_fits fits).symm

end Decimal

theorem Segment.Stands.behind {segment : Segment} {rest back : List Char} {c : Char} {offset : Nat}
    {token : Token} (stands : segment.Stands rest) (read : segment.token? offset = some token)
    (white : Text.isBlank c = true) : segment.Stands (rest ++ c :: back) := by
  cases stands with
  | blank white => exact .blank white
  | braced bare => exact .braced bare
  | @literal number starts longest =>
      refine .literal starts ?_
      rw [← List.append_assoc, Decimal.Literal.scan_before_blank white, longest]
  | @single d visible other _ =>
      refine .single visible other ?_
      rintro rfl
      cases read

namespace Tiled

variable {offset : Nat} {text front back : List Char} {tokens first second : List Token}

theorem append_blank {c : Char} (tiled : Tiled offset front first) (white : Text.isBlank c = true)
    (later : Tiled (offset + Text.size front) (c :: back) second) :
    Tiled offset (front ++ c :: back) (first ++ second) := by
  induction tiled with
  | nil => exact later
  | @blank offset d rest tokens blank _ ih =>
      refine .blank blank (ih ?_)
      rwa [Nat.add_assoc]
  | @token offset segment rest token tokens stands read _ ih =>
      rw [List.append_assoc]
      refine .token (stands.behind read white) read (ih ?_)
      rwa [Nat.add_assoc, ← Text.size_append]

/-- A text is made of the same symbols at every place. -/
theorem elsewhere (tiled : Tiled offset text tokens) (other : Nat) :
    ∃ moved, Tiled other text moved ∧ moved.map Token.symbol = tokens.map Token.symbol := by
  induction tiled generalizing other with
  | nil => exact ⟨[], .nil, rfl⟩
  | @blank offset c rest tokens white _ ih =>
      obtain ⟨moved, tiled, same⟩ := ih (other + c.utf8Size)
      exact ⟨moved, .blank white tiled, same⟩
  | @token offset segment rest token tokens stands read _ ih =>
      obtain ⟨symbol, found, rfl⟩ := Segment.token?_eq_some_iff.1 read
      obtain ⟨moved, tiled, same⟩ := ih (other + Text.size segment.text)
      refine ⟨⟨symbol, ⟨other, other + Text.size segment.text⟩⟩ :: moved, .token stands ?_ tiled, ?_⟩
      · exact Segment.token?_eq_some_iff.2 ⟨symbol, Segment.lexeme?_of_token found other, rfl⟩
      · rw [List.map_cons, List.map_cons, same]

theorem exists_cut (tiled : Tiled offset (front ++ back) tokens)
    (between : ∀ token ∈ tokens, token.span.stop ≤ offset + Text.size front ∨
      offset + Text.size front ≤ token.span.start) :
    ∃ first second, tokens = first ++ second ∧ Tiled offset front first ∧
      Tiled (offset + Text.size front) back second := by
  generalize whole : front ++ back = text at tiled
  induction tiled generalizing front with
  | nil =>
      obtain ⟨rfl, rfl⟩ := List.append_eq_nil_iff.1 whole
      exact ⟨[], [], rfl, .nil, .nil⟩
  | @blank offset c rest tokens white later ih =>
      cases front with
      | nil =>
          rw [List.nil_append] at whole
          rw [whole]
          exact ⟨[], tokens, rfl, .nil, .blank white later⟩
      | cons d more =>
          obtain ⟨rfl, rfl⟩ := List.cons.inj whole
          rw [Text.size_cons, ← Nat.add_assoc] at between ⊢
          obtain ⟨first, second, rfl, before, behind⟩ := ih between rfl
          exact ⟨first, second, rfl, .blank white before, behind⟩
  | @token offset segment rest token tokens stands read later ih =>
      have here := between token List.mem_cons_self
      rw [Segment.span_of_token? read] at here
      rcases here with inside | ahead
      · obtain ⟨more, rfl, rfl⟩ : ∃ more, front = segment.text ++ more ∧ rest = more ++ back := by
          rcases List.append_eq_append_iff.1 whole with ⟨more, longer, behind⟩ | split
          · have none : more = [] := by
              rw [← Text.size_eq_zero_iff]
              dsimp only at inside
              rw [longer, Text.size_append] at inside
              omega
            subst none
            exact ⟨[], by simpa using longer.symm, by simpa using behind.symm⟩
          · exact split
        rw [Text.size_append, ← Nat.add_assoc] at between ⊢
        obtain ⟨first, second, rfl, before, behind⟩ :=
          ih (fun other within => between other (List.mem_cons_of_mem _ within)) rfl
        exact ⟨token :: first, second, rfl, .token (stands.before read) read before, behind⟩
      · have nothing : front = [] := by
          rw [← Text.size_eq_zero_iff]
          dsimp only at ahead
          omega
        subst nothing
        rw [List.nil_append] at whole
        rw [whole]
        exact ⟨[], token :: tokens, rfl, .nil, .token stands read later⟩

end Tiled

end Formulary
