import Formulary.Proofs.Order
import Formulary.Proofs.Spans

/-!
What an arithmetic fault points at. It is that of the first operation to fail, whose operands have
finite values. A division by zero is reported where the divisor starts in the text; an operation without
a finite result is reported where its left operand starts, or an opening parenthesis before it, and so
never where its operator stands.
-/

namespace Formulary

namespace Segment

variable {segment : Segment} {rest : List Char} {offset : Nat} {token : Token}

theorem exists_visible (stands : segment.Stands rest) (read : segment.token? offset = some token) :
    ∃ c more, segment.text = c :: more ∧ Text.isBlank c = false := by
  cases stands with
  | blank => cases read
  | @braced inside => exact ⟨_, _, rfl, by decide⟩
  | @literal number starts =>
      cases chars : number.text with
      | nil =>
          rw [chars] at starts
          cases starts
      | cons c more =>
          rw [chars] at starts
          exact ⟨c, more, chars, isBlank_of_startsLiteral starts⟩
  | @single c visible => exact ⟨c, [], rfl, visible⟩

theorem text_of_means {operator : Operator} (read : segment.token? offset = some token)
    (means : token.symbol.Means operator) : segment.text = [operator.symbol] := by
  obtain ⟨symbol, found, rfl⟩ := token?_eq_some_iff.1 read
  cases segment with
  | blank c => cases found
  | braced inside =>
      unfold lexeme? at found
      dsimp only at found
      split at found <;> cases found
      rcases means with means | means <;> cases means
  | literal number =>
      have literal := Option.some.inj found
      rcases Lexeme.ofLiteral_cases offset number with ⟨value, same⟩ | same
      · cases literal.symm.trans same
        rcases means with means | means <;> cases means
      · cases literal.symm.trans same
  | single c =>
      unfold lexeme? at found
      dsimp only at found
      split at found
      · rename_i known
        cases found
        -- Every operator is written as the one character that its symbol is read from.
        unfold Symbol.ofChar? at known
        split at known <;> cases known <;> rcases means with means | means <;> cases means <;> rfl
      · cases found

end Segment

theorem Tiled.exists_cons {offset : Nat} {text : List Char} {token : Token} {tokens : List Token}
    (tiled : Tiled offset text (token :: tokens)) : ∃ blanks segment rest,
      text = blanks ++ Segment.text segment ++ rest ∧ Blank blanks ∧ segment.Stands rest ∧
      segment.token? (offset + Text.size blanks) = some token ∧
      Tiled (offset + Text.size (blanks ++ segment.text)) rest tokens := by
  generalize all : token :: tokens = sequence at tiled
  induction tiled with
  | nil => cases all
  | @blank offset c rest _ white later ih =>
      obtain ⟨blanks, segment, more, rfl, blank, stands, read, tiled⟩ := ih all
      rw [Nat.add_assoc] at read tiled
      exact ⟨c :: blanks, segment, more, rfl, List.forall_mem_cons.2 ⟨white, blank⟩, stands, read, tiled⟩
  | @token offset segment rest _ _ stands read later =>
      cases all
      exact ⟨[], segment, rest, rfl, List.forall_mem_nil _, stands, read, later⟩

def Placed (text : List Char) (operator : Operator) (left right : Span) : Prop :=
  ∃ before blanks first after, text = before ++ operator.symbol :: (blanks ++ first :: after) ∧
    left.stop ≤ Text.size before ∧ Blank blanks ∧ Text.isBlank first = false ∧
    right.start = Text.size (before ++ operator.symbol :: blanks)

theorem Tiled.placed {text : List Char} {front before after back : List Token} {token : Token}
    {operator : Operator} {left right : Span}
    (tiled : Tiled 0 text (front ++ before ++ token :: (after ++ back)))
    (means : token.symbol.Means operator) (leftReached : Reaches left before)
    (rightReached : Reaches right after) : Placed text operator left right := by
  have order := tiled.inOrder
  rw [List.append_cons, List.append_assoc front] at order
  have apart := leftReached.apart (.single token) order.front.back
  obtain ⟨ahead, later, rfl, _, tiled⟩ := tiled.exists_append
  obtain ⟨blanks, segment, rest, rfl, _, _, read, tiled⟩ := tiled.exists_cons
  rw [Segment.span_of_token? read] at apart
  obtain ⟨⟨next, leads, start⟩, _⟩ := rightReached
  obtain ⟨more, rfl⟩ := List.head?_eq_some_iff.1 leads
  obtain ⟨gap, other, remains, rfl, blank, stands, found, _⟩ := tiled.exists_cons
  obtain ⟨first, tail, written, visible⟩ := Segment.exists_visible stands found
  have place := congrArg Span.start (Segment.span_of_token? found)
  rw [Segment.text_of_means read means] at place ⊢
  rw [written]
  refine ⟨ahead ++ blanks, gap, first, tail ++ remains, by simp, ?_, blank, visible, ?_⟩
  · simpa using apart
  · rw [← start, place]
    simp [Nat.add_assoc]

theorem Composed.placed {text : List Char} {tokens : List Token} {tree left right : Expression}
    {nesting : Nat} {operator : Operator} {span : Span} (composed : Composed text tokens tree nesting)
    (inside : .binary operator left right span ∈ tree.parts) :
    span.start ≤ left.span.start ∧ left.span.start < left.span.stop ∧
      Placed text operator left.span right.span := by
  obtain ⟨ahead, inner, behind, depth, rfl, found, _⟩ := composed.derived.exists_part inside
  have order := composed.tiled.inOrder.front.back
  have enclosed := (found.operands_in_order order).1 left List.mem_cons_self
  obtain ⟨front, before, token, after, back, _, _, rfl, means, first, _, second, _⟩ := found.exists_binary
  have operands := order.front.back
  have leftReached := first.reaches operands.front
  have rightReached := second.reaches operands.back.tail
  refine ⟨enclosed.1, leftReached.start_lt_stop operands.front, ?_⟩
  refine @Tiled.placed text (ahead ++ front) before after (back ++ behind) token operator _ _ ?_ means
    leftReached rightReached
  simpa using composed.tiled

namespace Expression

variable {text : String} {tree part : Expression} {bindings : Bindings} {fault : ArithmeticFault}

theorem finite_of_mem_parts (finite : tree.Finite) (inside : part ∈ tree.parts) : part.Finite := by
  induction tree with
  | number | reference =>
      rw [List.mem_singleton.1 inside]
      exact finite
  | signed sign operand span ih =>
      rcases List.mem_cons.1 inside with rfl | inside
      · exact finite
      · exact ih finite inside
  | binary operator left right span leftIh rightIh =>
      rcases List.mem_cons.1 inside with rfl | inside
      · exact finite
      · rcases List.mem_append.1 inside with inside | inside
        · exact leftIh finite.1 inside
        · exact rightIh finite.2 inside

theorem evaluate_of_engine (parsed : parse text = .ok tree)
    (failed : bindings.evaluate text = .error (.arithmetic fault)) :
    tree.evaluate bindings = .error (.arithmetic fault) := by
  have looked : tree.evaluateWith (fun id => .ok (bindings.lookup id)) id =
      .error (.arithmetic fault) := by
    rw [← failed, Bindings.evaluate, evaluateText, parsed]
    rfl
  rcases evaluateWith_eq_error looked with
    ⟨_, _, impossible | ⟨_, impossible⟩⟩ | ⟨_, found, same, bound, stopped⟩
  · cases impossible
  · cases impossible
  · cases same
    rw [← evaluate_of_bind bound]
    exact stopped

def FailsOn (operator : Operator) (x y : Float) (right : Expression) (span : Span)
    (fault : ArithmeticFault) : Prop :=
  (operator = .divide ∧ (y == 0) = true ∧ fault = .divisionByZero right.span.start) ∨
    ∃ value, operator.apply? x y = some value ∧ value.isFinite = false ∧
      fault = .notFinite operator span.start

theorem divides_of_apply?_none {operator : Operator} {x y : Float} (none : operator.apply? x y = none) :
    operator = .divide ∧ (y == 0) = true := by
  cases operator with
  | add | subtract | multiply => cases none
  | divide =>
      refine ⟨rfl, ?_⟩
      unfold Operator.apply? at none
      dsimp only at none
      split at none
      · assumption
      · cases none

/-- Whether a fault is that of the first operation to fail. All that is completed before it has a value,
its operands have finite ones, and its operator stands between them in the text. -/
def HasCulprit (text : List Char) (bindings : Bindings) (tree : Expression) (fault : ArithmeticFault) :
    Prop :=
  ∃ earlier operator left right span later x y,
    tree.completed = earlier ++ binary operator left right span :: later ∧
    (∀ part ∈ earlier, part.Valued bindings) ∧
    left.evaluate bindings = .ok x ∧ x.isFinite = true ∧
    right.evaluate bindings = .ok y ∧ y.isFinite = true ∧
    FailsOn operator x y right span fault ∧
    span.start ≤ left.span.start ∧ left.span.start < left.span.stop ∧
    Placed text operator left.span right.span

/-- An arithmetic fault over finite values is that of the first operation to fail, a division by zero at
the place of its divisor; that of an operation without a finite result lies before its operator. -/
theorem exists_culprit (parsed : parse text = .ok tree)
    (solid : ∀ id value, bindings.lookup id = some value → value.isFinite = true)
    (failed : tree.evaluate bindings = .error (.arithmetic fault) ∨
      bindings.evaluate text = .error (.arithmetic fault)) : HasCulprit text.toList bindings tree fault := by
  have stopped : tree.evaluate bindings = .error (.arithmetic fault) :=
    failed.elim id (evaluate_of_engine parsed)
  obtain ⟨tokens, nesting, composed⟩ := exists_composed parsed
  obtain ⟨earlier, part, later, order, valued, strikes⟩ := exists_failsAt stopped
  have inside : part ∈ tree.parts := mem_completed.1 (by simp [order])
  have finite := finite_of_mem_parts (finite_of_parse parsed) inside
  have value_finite {operand : Expression} {value : Float} (numbers : operand.Finite)
      (evaluated : operand.evaluate bindings = .ok value) : value.isFinite = true :=
    isFinite_evaluate numbers solid evaluated
  cases strikes with
  | @undefined operator left right span x y leftValue rightValue none =>
      obtain ⟨divides, zero⟩ := divides_of_apply?_none none
      exact ⟨earlier, operator, left, right, span, later, x, y, order, valued,
        leftValue, value_finite finite.1 leftValue, rightValue, value_finite finite.2 rightValue,
        .inl ⟨divides, zero, rfl⟩, composed.placed inside⟩
  | @unbounded operator left right span x y value leftValue rightValue applied infinite =>
      exact ⟨earlier, operator, left, right, span, later, x, y, order, valued,
        leftValue, value_finite finite.1 leftValue, rightValue, value_finite finite.2 rightValue,
        .inr ⟨value, applied, infinite, rfl⟩, composed.placed inside⟩

theorem exists_culprit_divisor :
    ∃ tree fault, parse "(1 + 2) / ( \x7bid:1\x7d - 3 )" = .ok tree ∧
      (∀ id value, Bindings.lookup [(1, 3)] id = some value → value.isFinite = true) ∧
      tree.evaluate [(1, 3)] = .error (.arithmetic fault) ∧
      fault.message = "division by zero (divisor at offset 10)" ∧
      HasCulprit "(1 + 2) / ( \x7bid:1\x7d - 3 )".toList [(1, 3)] tree fault := by
  have computed : (parse "(1 + 2) / ( \x7bid:1\x7d - 3 )").toOption.map (fun tree =>
      (tree.evaluate [(1, 3)]).mapError ExpressionFault.cause?) =
        some (.error (some "division by zero (divisor at offset 10)")) := by
    decide +kernel
  have solid (id : Int) (value : Float) (found : Bindings.lookup [(1, 3)] id = some value) :
      value.isFinite = true :=
    isFinite_lookup (List.forall_mem_singleton.2 (by decide)) found
  obtain ⟨tree, read, reported⟩ := Option.map_eq_some_iff.1 computed
  obtain ⟨reason, failed, cause⟩ := mapError_eq_error.1 reported
  cases reason with
  | malformedReference | unknownVariable => cases cause
  | arithmetic fault =>
      have parsed := toOption_eq_some.1 read
      exact ⟨tree, fault, parsed, solid, failed, Option.some.inj cause,
        exists_culprit parsed solid (.inl failed)⟩

def operation? : ExpressionFault → Option (Operator × Nat)
  | .malformedReference _ _ _ | .unknownVariable _ => none
  | .arithmetic fault =>
    match fault with
    | .notFinite operator offset => some (operator, offset)
    | .empty | .unexpectedCharacter _ _ | .invalidNumber _ _ | .unexpectedToken _ | .unexpectedEnd
    | .unclosed _ | .nestedTooDeep _ | .divisionByZero _ => none

/-- The place of a product that is too large is that of its first factor, and no asterisk stands there. -/
theorem evaluate_product_offset :
    ∃ tree, parse "1e308 * 10" = .ok tree ∧
      tree.evaluate [] = .error (.arithmetic (.notFinite .multiply 0)) ∧
      ¬ ∃ before after, "1e308 * 10".toList = before ++ Operator.multiply.symbol :: after ∧
        Text.size before = 0 := by
  have computed : (parse "1e308 * 10").toOption.map (fun tree =>
      (tree.evaluate []).mapError operation?) = some (.error (some (.multiply, 0))) := by
    decide +kernel
  obtain ⟨tree, read, reported⟩ := Option.map_eq_some_iff.1 computed
  obtain ⟨reason, failed, named⟩ := mapError_eq_error.1 reported
  have same : reason = .arithmetic (.notFinite .multiply 0) := by
    cases reason with
    | malformedReference | unknownVariable => cases named
    | arithmetic fault =>
        cases fault <;> cases named
        rfl
  refine ⟨tree, toOption_eq_some.1 read, same ▸ failed, ?_⟩
  rintro ⟨before, after, split, start⟩
  cases before with
  | nil => exact absurd (List.cons.inj split).1 (by decide)
  | cons c more =>
      have positive := c.utf8Size_pos
      rw [Text.size_cons] at start
      omega

end Expression

end Formulary
