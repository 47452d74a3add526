import Formulary.Expression.Grammar
import Formulary.Expression.Parser
import Formulary.Proofs.Operation
import Formulary.Proofs.Scan

/-!
The parser against the grammar. What a rule reads, it derives, within the limits; and what is derived
is read, with all that may follow it left over, unless it exceeds a limit.
-/

namespace Formulary

open ArithmeticFault

def Symbol.Means (symbol : Symbol) (operator : Operator) : Prop :=
  symbol.sumOperator? = some operator ∨ symbol.productOperator? = some operator

def Parsed.parts {tokens : List Token} (parsed : Parsed tokens) : Expression × Nat × List Token :=
  (parsed.expression, parsed.height, parsed.rest)

theorem Parsed.map_parts {tokens more : List Token} {longer : Parsed tokens → Parsed more}
    (same : ∀ parsed, (longer parsed).parts = parsed.parts)
    (result : Except ArithmeticFault (Parsed tokens)) :
    (result.map longer).map Parsed.parts = result.map Parsed.parts := by
  cases result with
  | error fault => rfl
  | ok parsed => exact congrArg Except.ok (same parsed)

abbrev Reading : Type := Except ArithmeticFault (Expression × Nat × List Token)

namespace Rule

variable {rule : Rule} {operator? : Symbol → Option Operator} {tokens rest : List Token}
  {tree left : Expression} {height : Nat}

def read (rule : Rule) (tokens : List Token) : Reading :=
  (rule tokens).map Parsed.parts

def continued (operator? : Symbol → Option Operator) (rule : Rule)
    (start : Expression × Nat × List Token) : Reading :=
  (chainFrom operator? rule start.1 start.2.1 start.2.2).map Subtype.val

theorem read_shorter (found : rule.read tokens = .ok (tree, height, rest)) :
    rest.length < tokens.length := by
  unfold read at found
  cases parsing : rule tokens with
  | error fault => simp [parsing, Except.map] at found
  | ok parsed =>
      rw [parsing] at found
      cases found
      exact parsed.shorter

theorem read_chain : (chain operator? rule).read tokens =
    (rule.read tokens >>= continued operator? rule) := by
  unfold read chain continued
  cases rule tokens with
  | error fault => rfl
  | ok first =>
      dsimp only [Except.map, bind, Except.bind, Parsed.parts]
      cases chainFrom operator? rule first.expression first.height first.rest <;> rfl

theorem continued_stop (stops : ∀ token, tokens.head? = some token → operator? token.symbol = none) :
    continued operator? rule (left, height, tokens) = .ok (left, height, tokens) := by
  unfold continued chainFrom
  cases tokens with
  | nil => rfl
  | cons token rest =>
      have none := stops token rfl
      dsimp only
      split
      · rfl
      · rename_i operator found
        rw [none] at found
        cases found

theorem continued_cons {token : Token} {operator : Operator}
    (sign : operator? token.symbol = some operator) :
    continued operator? rule (left, height, token :: rest) =
      (rule.read rest >>= fun right => grow (max height right.2.1) >>= fun height =>
        continued operator? rule (.binary operator left right.1 (left.span.cover right.1.span),
          height, right.2.2)) := by
  unfold continued
  dsimp only
  rw [chainFrom]
  split
  · rename_i none
    rw [sign] at none
    cases none
  · rename_i found same
    rw [sign] at same
    cases same
    unfold read
    cases rule rest with
    | error fault => rfl
    | ok right =>
        dsimp only [Except.map, bind, Except.bind, Parsed.parts]
        cases grow (max height right.height) with
        | error fault => rfl
        | ok grown =>
            dsimp only
            cases chainFrom operator? rule _ grown right.rest <;> rfl

end Rule

section Operands

variable {depth height : Nat} {token : Token} {tokens rest : List Token} {tree : Expression}

theorem read_signed {sign : Sign} (marked : token.symbol.sign? = some sign) :
    Rule.read (operandWithin (depth + 1)) (token :: tokens) =
      (Rule.read (operandWithin depth) tokens >>= fun operand =>
        grow operand.2.1 >>= fun height =>
          .ok (.signed sign operand.1 (token.span.cover operand.1.span), height, operand.2.2)) := by
  have opens : Rule.read (operandWithin (depth + 1)) (token :: tokens) =
      (signedBy (operandWithin depth) sign token.span tokens).map Parsed.parts := by
    obtain ⟨symbol, span⟩ := token
    cases symbol <;> cases marked <;>
      (apply Parsed.map_parts; intro parsed; rfl)
  rw [opens]
  unfold signedBy Rule.read
  cases operandWithin depth tokens with
  | error fault => rfl
  | ok operand =>
      dsimp only [Except.map, bind, Except.bind, Parsed.parts]
      cases grow operand.height <;> rfl

theorem read_signed_zero {sign : Sign} (marked : token.symbol.sign? = some sign) :
    Rule.read (operandWithin 0) (token :: tokens) = .error (nestedTooDeep greatestDepth) := by
  obtain ⟨symbol, span⟩ := token
  cases symbol <;> cases marked <;> rfl

theorem read_number {value : Float} (number : token.symbol = .number value) :
    Rule.read (operandWithin depth) (token :: tokens) =
      .ok (.number value token.span, 1, tokens) := by
  obtain ⟨symbol, span⟩ := token
  cases number
  cases depth <;> rfl

theorem read_reference {target : Reference} (reference : token.symbol = .reference target) :
    Rule.read (operandWithin depth) (token :: tokens) =
      .ok (.reference target token.span, 1, tokens) := by
  obtain ⟨symbol, span⟩ := token
  cases reference
  cases depth <;> rfl

def closed (opening : Span) : Expression × Nat × List Token → Reading
  | (_, _, []) => .error (unclosed opening.start)
  | (inner, height, token :: rest) =>
    match token.symbol with
    | .closing => .ok (inner.within (opening.cover token.span), height, rest)
    | .finish => .error (unclosed opening.start)
    | _ => .error (unexpectedToken token)

theorem closed_closing {opening : Span} {closing : Token} (ends : closing.symbol = .closing) :
    closed opening (tree, height, closing :: rest) =
      .ok (tree.within (opening.cover closing.span), height, rest) := by
  obtain ⟨symbol, span⟩ := closing
  cases ends
  rfl

theorem read_opening (opened : token.symbol = .opening) :
    Rule.read (operandWithin (depth + 1)) (token :: tokens) =
      ((sumOf (operandWithin depth)).read tokens >>= closed token.span) := by
  have opens : Rule.read (operandWithin (depth + 1)) (token :: tokens) =
      (parenthesized (sumOf (operandWithin depth)) token.span tokens).map Parsed.parts := by
    obtain ⟨symbol, span⟩ := token
    cases opened
    apply Parsed.map_parts
    intro parsed
    rfl
  rw [opens]
  unfold parenthesized Rule.read
  cases sumOf (operandWithin depth) tokens with
  | error fault => rfl
  | ok inner =>
      obtain ⟨tree, height, rest, shorter⟩ := inner
      cases rest with
      | nil => rfl
      | cons next more =>
          obtain ⟨symbol, span⟩ := next
          cases symbol <;> rfl

theorem read_opening_zero (opened : token.symbol = .opening) :
    Rule.read (operandWithin 0) (token :: tokens) = .error (nestedTooDeep greatestDepth) := by
  obtain ⟨symbol, span⟩ := token
  cases opened
  rfl

end Operands

theorem grow_eq_ok_iff {height grown : Nat} :
    grow height = .ok grown ↔ grown = height + 1 ∧ height + 1 ≤ greatestHeight := by
  unfold grow
  split
  · rename_i above
    constructor
    · simp
    · rintro ⟨_, low⟩
      omega
  · rename_i low
    rw [Except.ok.injEq]
    constructor
    · rintro rfl
      exact ⟨rfl, by omega⟩
    · rintro ⟨rfl, _⟩
      rfl

theorem grow_of_high {height : Nat} (high : greatestHeight < height + 1) :
    grow height = .error (nestedTooDeep greatestHeight) :=
  if_pos high

theorem one_le_greatestHeight : 1 ≤ greatestHeight := by decide

structure Read (category : Category) (depth : Nat) (tokens : List Token) (tree : Expression)
    (height : Nat) (rest : List Token) : Prop where
  derived : ∃ taken nesting, tokens = taken ++ rest ∧ Derives category taken tree nesting ∧
    nesting ≤ depth
  height_eq : height = tree.height
  low : tree.height ≤ greatestHeight

def Sound (category : Category) (depth : Nat) (rule : Rule) : Prop :=
  ∀ ⦃tokens tree height rest⦄, rule.read tokens = .ok (tree, height, rest) →
    Read category depth tokens tree height rest

section Soundness

variable {inner outer : Category} {operator? : Symbol → Option Operator} {rule : Rule}
  {depth : Nat}

theorem continued_sound
    (more : ∀ {before after left right token operator first second},
      Derives outer before left first → operator? token.symbol = some operator →
        Derives inner after right second →
          Derives outer (before ++ token :: after)
            (.binary operator left right (left.span.cover right.span)) (max first second))
    (sound : Sound inner depth rule) {start tokens rest : List Token} {left tree : Expression}
    {leftHeight height : Nat} (front : Read outer depth start left leftHeight tokens)
    (found : Rule.continued operator? rule (left, leftHeight, tokens) = .ok (tree, height, rest)) :
    Read outer depth start tree height rest := by
  induction size : tokens.length using Nat.strongRecOn
    generalizing tokens left leftHeight with
  | ind _ ih =>
      cases tokens with
      | nil =>
          rw [Rule.continued_stop (by simp)] at found
          cases found
          exact front
      | cons token later =>
          cases sign : operator? token.symbol with
          | none =>
              rw [Rule.continued_stop (by simpa using sign)] at found
              cases found
              exact front
          | some operator =>
              rw [Rule.continued_cons sign] at found
              obtain ⟨⟨right, rightHeight, further⟩, read, grew⟩ := except_bind_eq_ok.1 found
              obtain ⟨grown, growing, went⟩ := except_bind_eq_ok.1 grew
              obtain ⟨rfl, bounded⟩ := grow_eq_ok_iff.1 growing
              have shorter := Rule.read_shorter read
              obtain ⟨⟨before, first, rfl, derived, shallow⟩, sameLeft, _⟩ := front
              obtain ⟨⟨after, second, rfl, derivedRight, shallowRight⟩, sameRight, _⟩ := sound read
              refine ih further.length ?_ ?_ went rfl
              · rw [← size]
                exact Nat.lt_succ_of_lt shorter
              · refine ⟨⟨before ++ token :: after, max first second, ?_, ?_, ?_⟩, ?_, ?_⟩
                · simp
                · exact more derived sign derivedRight
                · exact Nat.max_le.2 ⟨shallow, shallowRight⟩
                · rw [sameLeft, sameRight]
                  rfl
                · rw [sameLeft, sameRight] at bounded
                  exact bounded

theorem chain_sound
    (one : ∀ {tokens tree nesting}, Derives inner tokens tree nesting →
      Derives outer tokens tree nesting)
    (more : ∀ {before after left right token operator first second},
      Derives outer before left first → operator? token.symbol = some operator →
        Derives inner after right second →
          Derives outer (before ++ token :: after)
            (.binary operator left right (left.span.cover right.span)) (max first second))
    (sound : Sound inner depth rule) : Sound outer depth (chain operator? rule) := by
  intro tokens tree height rest found
  rw [Rule.read_chain] at found
  obtain ⟨⟨left, leftHeight, further⟩, read, found⟩ := except_bind_eq_ok.1 found
  obtain ⟨⟨taken, nesting, split, derived, shallow⟩, same, low⟩ := sound read
  exact continued_sound more sound ⟨⟨taken, nesting, split, one derived, shallow⟩, same, low⟩ found

theorem product_sound (sound : Sound .operand depth rule) :
    Sound .product depth (chain Symbol.productOperator? rule) :=
  chain_sound .product .productMore sound

theorem sum_sound (sound : Sound .operand depth rule) : Sound .sum depth (sumOf rule) :=
  chain_sound .sum .sumMore (product_sound sound)

theorem signed_sound {token : Token} {sign : Sign} {tokens rest : List Token} {tree : Expression}
    {height : Nat} (below : ∀ less, depth = less + 1 → Sound .operand less (operandWithin less))
    (marked : token.symbol.sign? = some sign)
    (found : Rule.read (operandWithin depth) (token :: tokens) = .ok (tree, height, rest)) :
    Read .operand depth (token :: tokens) tree height rest := by
  cases depth with
  | zero =>
      rw [read_signed_zero marked] at found
      cases found
  | succ less =>
      rw [read_signed marked] at found
      obtain ⟨⟨operand, operandHeight, _⟩, read, found⟩ := except_bind_eq_ok.1 found
      obtain ⟨grown, growing, found⟩ := except_bind_eq_ok.1 found
      cases found
      obtain ⟨rfl, bounded⟩ := grow_eq_ok_iff.1 growing
      obtain ⟨⟨taken, nesting, rfl, derived, shallow⟩, same, _⟩ := below less rfl read
      refine ⟨⟨token :: taken, nesting + 1, rfl, .signed marked derived, ?_⟩, ?_, ?_⟩
      · exact Nat.succ_le_succ shallow
      · rw [same]
        rfl
      · rw [same] at bounded
        exact bounded

theorem closed_eq_ok {opening : Span} {inner tree : Expression} {innerHeight height : Nat}
    {tokens rest : List Token}
    (found : closed opening (inner, innerHeight, tokens) = .ok (tree, height, rest)) :
    ∃ closing, closing.symbol = .closing ∧ tokens = closing :: rest ∧
      tree = inner.within (opening.cover closing.span) ∧ height = innerHeight := by
  cases tokens with
  | nil => cases found
  | cons closing more =>
      obtain ⟨symbol, span⟩ := closing
      cases symbol <;> cases found
      exact ⟨_, rfl, rfl, rfl, rfl⟩

theorem opening_sound {token : Token} {tokens rest : List Token} {tree : Expression}
    {height : Nat} (below : ∀ less, depth = less + 1 → Sound .operand less (operandWithin less))
    (opened : token.symbol = .opening)
    (found : Rule.read (operandWithin depth) (token :: tokens) = .ok (tree, height, rest)) :
    Read .operand depth (token :: tokens) tree height rest := by
  cases depth with
  | zero =>
      rw [read_opening_zero opened] at found
      cases found
  | succ less =>
      rw [read_opening opened] at found
      obtain ⟨⟨inner, innerHeight, further⟩, read, found⟩ := except_bind_eq_ok.1 found
      obtain ⟨closing, ends, rfl, rfl, rfl⟩ := closed_eq_ok found
      obtain ⟨⟨taken, nesting, rfl, derived, shallow⟩, same, low⟩ :=
        sum_sound (below less rfl) read
      refine ⟨⟨token :: taken ++ [closing], nesting + 1, by simp, ?_, ?_⟩, ?_, ?_⟩
      · exact .operand (.parenthesized opened derived ends)
      · exact Nat.succ_le_succ shallow
      · rw [Expression.height_within, same]
      · rw [Expression.height_within]
        exact low

theorem operand_sound_within
    (below : ∀ less, depth = less + 1 → Sound .operand less (operandWithin less)) :
    Sound .operand depth (operandWithin depth) := by
  intro tokens tree height rest found
  have leaf {token : Token} {bare : Expression} (derived : Derives .primary [token] bare 0)
      (single : bare.height = 1) : Read .operand depth (token :: rest) bare 1 rest := by
    refine ⟨⟨[token], 0, rfl, .operand derived, Nat.zero_le _⟩, single.symm, ?_⟩
    rw [single]
    exact one_le_greatestHeight
  cases tokens with
  | nil => cases depth <;> cases found
  | cons token more =>
      cases kind : token.symbol with
      | number value =>
          rw [read_number kind] at found
          cases found
          exact leaf (.number kind) rfl
      | reference target =>
          rw [read_reference kind] at found
          cases found
          exact leaf (.reference kind) rfl
      | plus => exact signed_sound below (congrArg Symbol.sign? kind) found
      | minus => exact signed_sound below (congrArg Symbol.sign? kind) found
      | opening => exact opening_sound below kind found
      | star | slash | closing | finish =>
          obtain ⟨symbol, span⟩ := token
          cases kind
          cases depth <;> cases found

theorem operand_sound (depth : Nat) : Sound .operand depth (operandWithin depth) := by
  induction depth with
  | zero => exact operand_sound_within (by simp)
  | succ depth ih =>
      refine operand_sound_within ?_
      rintro less ⟨⟩
      exact ih

end Soundness

/-! The other direction: what is derived is read, unless it exceeds a limit. -/

/-- What a rule may answer where a tree of some nesting stands before `rest`: the tree, or, if it
exceeds a limit, that limit. -/
inductive Answers (depth nesting : Nat) (tree : Expression) (rest : List Token) : Reading → Prop
  | read (shallow : nesting ≤ depth) (low : tree.height ≤ greatestHeight) :
      Answers depth nesting tree rest (.ok (tree, tree.height, rest))
  | tooDeep (deep : depth < nesting) :
      Answers depth nesting tree rest (.error (nestedTooDeep greatestDepth))
  | tooHigh (high : greatestHeight < tree.height) :
      Answers depth nesting tree rest (.error (nestedTooDeep greatestHeight))

def Free (operator? : Symbol → Option Operator) (rest : List Token) : Prop :=
  ∀ token, rest.head? = some token → operator? token.symbol = none

namespace Answers

variable {operator? : Symbol → Option Operator} {rule : Rule} {depth nesting : Nat}
  {tree left right : Expression} {rest : List Token} {answer : Reading}

theorem continued_of_free (free : Free operator? rest) (answers : Answers depth nesting tree rest answer) :
    (answer >>= Rule.continued operator? rule) = answer := by
  cases answers with
  | read shallow low => exact Rule.continued_stop free
  | tooDeep deep => rfl
  | tooHigh high => rfl

theorem repeated {outer inner : Nat} {token : Token} {operator : Operator} {more : List Token}
    {first second : Reading} (sign : operator? token.symbol = some operator)
    (before : Answers depth outer left (token :: more) first) (found : rule.read more = second)
    (after : Answers depth inner right rest second) :
    ∃ answer, Answers depth (max outer inner)
        (.binary operator left right (left.span.cover right.span)) rest answer ∧
      (first >>= Rule.continued operator? rule) = (answer >>= Rule.continued operator? rule) := by
  cases before with
  | tooDeep deep => exact ⟨_, .tooDeep (Nat.lt_of_lt_of_le deep (Nat.le_max_left _ _)), rfl⟩
  | tooHigh high =>
      refine ⟨_, .tooHigh ?_, rfl⟩
      simp only [Expression.height]
      omega
  | read shallow low =>
      have unfolded : (Except.ok (left, left.height, token :: more) >>=
          Rule.continued operator? rule) = _ := Rule.continued_cons sign
      rw [unfolded, found]
      cases after with
      | tooDeep deep => exact ⟨_, .tooDeep (Nat.lt_of_lt_of_le deep (Nat.le_max_right _ _)), rfl⟩
      | tooHigh high =>
          refine ⟨_, .tooHigh ?_, rfl⟩
          simp only [Expression.height]
          omega
      | read shallowRight lowRight =>
          by_cases high : greatestHeight < max left.height right.height + 1
          · refine ⟨_, .tooHigh high, ?_⟩
            dsimp only [bind, Except.bind]
            rw [grow_of_high high]
          · have fits := Nat.le_of_not_lt high
            refine ⟨_, .read (Nat.max_le.2 ⟨shallow, shallowRight⟩) fits, ?_⟩
            dsimp only [bind, Except.bind]
            rw [grow_eq_ok_iff.2 ⟨rfl, fits⟩]
            rfl

theorem signed (answers : Answers depth nesting tree rest answer) (sign : Sign) (span : Span) :
    Answers (depth + 1) (nesting + 1) (.signed sign tree (span.cover tree.span)) rest
      (answer >>= fun operand => grow operand.2.1 >>= fun height =>
        .ok (.signed sign operand.1 (span.cover operand.1.span), height, operand.2.2)) := by
  cases answers with
  | tooDeep deep => exact .tooDeep (Nat.succ_lt_succ deep)
  | tooHigh high => exact .tooHigh (Nat.lt_succ_of_lt high)
  | read shallow low =>
      dsimp only [bind, Except.bind]
      by_cases high : greatestHeight < tree.height + 1
      · rw [grow_of_high high]
        exact .tooHigh high
      · have fits := Nat.le_of_not_lt high
        rw [grow_eq_ok_iff.2 ⟨rfl, fits⟩]
        exact .read (Nat.succ_le_succ shallow) fits

theorem parenthesized {closing : Token} (ends : closing.symbol = .closing)
    (answers : Answers depth nesting tree (closing :: rest) answer) (opening : Span) :
    Answers (depth + 1) (nesting + 1) (tree.within (opening.cover closing.span)) rest
      (answer >>= closed opening) := by
  have same := tree.height_within (opening.cover closing.span)
  cases answers with
  | tooDeep deep => exact .tooDeep (Nat.succ_lt_succ deep)
  | tooHigh high => exact .tooHigh (by rwa [same])
  | read shallow low =>
      have enclosed : Answers (depth + 1) (nesting + 1)
          (tree.within (opening.cover closing.span)) rest _ :=
        .read (Nat.succ_le_succ shallow) (by rwa [same])
      rwa [same, ← closed_closing ends] at enclosed

end Answers

def RuleAnswers (category : Category) (tokens : List Token) (tree : Expression) (nesting : Nat) :
    Prop :=
  ∀ depth rest,
    match category with
    | .sum => Free Symbol.productOperator? rest →
        ∃ answer, Answers depth nesting tree rest answer ∧
          (sumOf (operandWithin depth)).read (tokens ++ rest) =
            (answer >>= Rule.continued Symbol.sumOperator?
              (chain Symbol.productOperator? (operandWithin depth)))
    | .product =>
        ∃ answer, Answers depth nesting tree rest answer ∧
          (chain Symbol.productOperator? (operandWithin depth)).read (tokens ++ rest) =
            (answer >>= Rule.continued Symbol.productOperator? (operandWithin depth))
    | .operand | .primary =>
        Answers depth nesting tree rest (Rule.read (operandWithin depth) (tokens ++ rest))

theorem Derives.answered {category : Category} {tokens : List Token} {tree : Expression}
    {nesting : Nat} (derived : Derives category tokens tree nesting) :
    RuleAnswers category tokens tree nesting := by
  induction derived with
  | sum first ih =>
      intro depth rest free
      obtain ⟨answer, answers, found⟩ := ih depth rest
      rw [answers.continued_of_free free] at found
      refine ⟨answer, answers, ?_⟩
      unfold sumOf
      rw [Rule.read_chain, found]
  | @sumMore before after left right outer inner token operator front sign next frontIh nextIh =>
      intro depth rest free
      have other : Symbol.productOperator? token.symbol = none := by
        cases kind : token.symbol <;> rw [kind] at sign <;> first | rfl | cases sign
      obtain ⟨first, answersFirst, foundFirst⟩ := frontIh depth (token :: after ++ rest) (by
        rintro _ ⟨⟩
        exact other)
      obtain ⟨second, answersSecond, foundSecond⟩ := nextIh depth rest
      rw [answersSecond.continued_of_free free] at foundSecond
      obtain ⟨answer, answers, same⟩ := Answers.repeated sign answersFirst foundSecond answersSecond
      refine ⟨answer, answers, ?_⟩
      rw [List.append_assoc, foundFirst, same]
  | product first ih =>
      intro depth rest
      exact ⟨_, ih depth rest, Rule.read_chain⟩
  | @productMore before after left right outer inner token operator front sign next frontIh nextIh =>
      intro depth rest
      obtain ⟨first, answersFirst, foundFirst⟩ := frontIh depth (token :: after ++ rest)
      obtain ⟨answer, answers, same⟩ :=
        Answers.repeated sign answersFirst rfl (nextIh depth rest)
      refine ⟨answer, answers, ?_⟩
      rw [List.append_assoc, foundFirst, same]
  | @signed tokens tree nesting token sign marked operand ih =>
      intro depth rest
      dsimp only
      rw [List.cons_append]
      cases depth with
      | zero =>
          rw [read_signed_zero marked]
          exact .tooDeep (Nat.succ_pos nesting)
      | succ depth =>
          rw [read_signed marked]
          exact (ih depth rest).signed sign token.span
  | operand bare ih => exact ih
  | @number token value kind =>
      intro depth rest
      dsimp only
      rw [List.singleton_append, read_number kind]
      exact .read (Nat.zero_le depth) one_le_greatestHeight
  | @reference token target kind =>
      intro depth rest
      dsimp only
      rw [List.singleton_append, read_reference kind]
      exact .read (Nat.zero_le depth) one_le_greatestHeight
  | @parenthesized tokens tree nesting opening closing opened inside ends ih =>
      intro depth rest
      dsimp only
      rw [List.cons_append, List.cons_append, List.append_assoc, List.singleton_append]
      cases depth with
      | zero =>
          rw [read_opening_zero opened]
          exact .tooDeep (Nat.succ_pos nesting)
      | succ depth =>
          have free (operator? : Symbol → Option Operator) (none : operator? .closing = none) :
              Free operator? (closing :: rest) := by
            rintro _ ⟨⟩
            rw [ends, none]
          obtain ⟨answer, answers, found⟩ := ih depth (closing :: rest) (free _ rfl)
          rw [read_opening opened, found, answers.continued_of_free (free _ rfl)]
          exact answers.parenthesized ends opening.span

theorem Derives.ne_nil {category : Category} {tokens : List Token} {tree : Expression}
    {nesting : Nat} (derived : Derives category tokens tree nesting) : tokens ≠ [] := by
  induction derived with
  | sum _ ih | product _ ih | operand _ ih => exact ih
  | sumMore | productMore => simp
  | signed | number | reference | parenthesized => exact List.cons_ne_nil _ _

theorem Derives.ne_finish {category : Category} {tokens : List Token} {tree : Expression}
    {nesting : Nat} (derived : Derives category tokens tree nesting) :
    ∀ token ∈ tokens, token.symbol ≠ .finish := by
  induction derived with
  | sum _ ih | product _ ih | operand _ ih => exact ih
  | @sumMore _ _ _ _ _ _ token _ _ sign _ frontIh nextIh
  | @productMore _ _ _ _ _ _ token _ _ sign _ frontIh nextIh =>
      intro other within
      rcases List.mem_append.1 within with within | within
      · exact frontIh other within
      · rcases List.mem_cons.1 within with rfl | within
        · intro finish
          rw [finish] at sign
          cases sign
        · exact nextIh other within
  | signed marked _ ih =>
      intro other within
      rcases List.mem_cons.1 within with rfl | within
      · intro finish
        rw [finish] at marked
        cases marked
      · exact ih other within
  | number kind | reference kind =>
      intro other within
      rw [List.eq_of_mem_singleton within, kind]
      exact nofun
  | parenthesized opened _ closed ih =>
      intro other within
      rcases List.mem_append.1 within with within | within
      · rcases List.mem_cons.1 within with rfl | within
        · rw [opened]
          exact nofun
        · exact ih other within
      · rw [List.eq_of_mem_singleton within, closed]
        exact nofun

def ended : Expression × Nat × List Token → Except ArithmeticFault Expression
  | (tree, _, []) => .ok tree
  | (tree, _, token :: _) =>
    match token.symbol with
    | .finish => .ok tree
    | _ => .error (unexpectedToken token)

theorem ofTokens_eq {first : Token} {more : List Token} (visible : first.symbol ≠ .finish) :
    Expression.ofTokens (first :: more) =
      ((sumOf (operandWithin greatestDepth)).read (first :: more) >>= ended) := by
  unfold Expression.ofTokens Rule.read
  dsimp only
  split
  · rename_i finish
    exact absurd finish visible
  · cases sumOf (operandWithin greatestDepth) (first :: more) with
    | error fault => rfl
    | ok parsed =>
        obtain ⟨tree, height, rest, shorter⟩ := parsed
        cases rest with
        | nil => rfl
        | cons token later =>
            obtain ⟨symbol, span⟩ := token
            cases symbol <;> rfl

section Sequences

variable {body : List Token} {last : Token} {tree : Expression} {nesting : Nat}

theorem ofTokens_sound (ends : last.symbol = .finish)
    (visible : ∀ token ∈ body, token.symbol ≠ .finish)
    (found : Expression.ofTokens (body ++ [last]) = .ok tree) :
    ∃ nesting, Derives .sum body tree nesting ∧ nesting ≤ greatestDepth ∧
      tree.height ≤ greatestHeight := by
  cases body with
  | nil =>
      unfold Expression.ofTokens at found
      simp [ends] at found
  | cons first more =>
      rw [List.cons_append, ofTokens_eq (visible first List.mem_cons_self)] at found
      obtain ⟨⟨parsed, height, rest⟩, read, ending⟩ := except_bind_eq_ok.1 found
      obtain ⟨⟨taken, nesting, split, derived, shallow⟩, _, low⟩ :=
        sum_sound (operand_sound greatestDepth) read
      have free := derived.ne_finish
      cases rest with
      | nil =>
          rw [List.append_nil, ← List.cons_append] at split
          exact absurd ends (free last (by simp [← split]))
      | cons token later =>
          have stop : token.symbol = .finish ∧ parsed = tree := by
            unfold ended at ending
            dsimp only at ending
            split at ending
            · rename_i finish
              exact ⟨finish, Except.ok.inj ending⟩
            · cases ending
          obtain ⟨finish, rfl⟩ := stop
          refine ⟨nesting, ?_, shallow, low⟩
          rw [← List.cons_append] at split
          rcases List.append_eq_append_iff.1 split with ⟨between, same, behind⟩ | ⟨between, same, behind⟩
          · cases between with
            | nil =>
                rw [List.append_nil] at same
                rwa [← same]
            | cons other between => simp at behind
          · cases between with
            | nil =>
                rw [List.append_nil] at same
                rwa [same]
            | cons other between =>
                rw [List.cons_append, List.cons.injEq] at behind
                rw [behind.1] at finish
                exact absurd finish (visible other (by simp [same]))

theorem ofTokens_answers (ends : last.symbol = .finish)
    (derived : Derives .sum body tree nesting) :
    ∃ answer, Answers greatestDepth nesting tree [last] answer ∧
      Expression.ofTokens (body ++ [last]) = (answer >>= ended) := by
  have free (operator? : Symbol → Option Operator) (none : operator? .finish = none) :
      Free operator? [last] := by
    rintro _ ⟨⟩
    rw [ends, none]
  obtain ⟨answer, answers, found⟩ := derived.answered greatestDepth [last] (free _ rfl)
  rw [answers.continued_of_free (free _ rfl)] at found
  refine ⟨answer, answers, ?_⟩
  cases body with
  | nil => exact absurd rfl derived.ne_nil
  | cons first more =>
      rw [List.cons_append] at found ⊢
      rw [ofTokens_eq (derived.ne_finish first List.mem_cons_self), found]

theorem ended_finish (ends : last.symbol = .finish) (height : Nat) :
    ended (tree, height, [last]) = .ok tree := by
  obtain ⟨symbol, span⟩ := last
  cases ends
  rfl

theorem ofTokens_complete (ends : last.symbol = .finish)
    (derived : Derives .sum body tree nesting) (shallow : nesting ≤ greatestDepth)
    (low : tree.height ≤ greatestHeight) :
    Expression.ofTokens (body ++ [last]) = .ok tree := by
  obtain ⟨answer, answers, found⟩ := ofTokens_answers ends derived
  rw [found]
  cases answers with
  | read => exact ended_finish ends tree.height
  | tooDeep deep => exact absurd shallow (Nat.not_le_of_lt deep)
  | tooHigh high => exact absurd low (Nat.not_le_of_lt high)

theorem ofTokens_exceeding (ends : last.symbol = .finish)
    (derived : Derives .sum body tree nesting)
    (exceeds : greatestDepth < nesting ∨ greatestHeight < tree.height) :
    greatestDepth < nesting ∧
        Expression.ofTokens (body ++ [last]) = .error (nestedTooDeep greatestDepth) ∨
      greatestHeight < tree.height ∧
        Expression.ofTokens (body ++ [last]) = .error (nestedTooDeep greatestHeight) := by
  obtain ⟨answer, answers, found⟩ := ofTokens_answers ends derived
  rw [found]
  cases answers with
  | read shallow low => omega
  | tooDeep deep => exact .inl ⟨deep, rfl⟩
  | tooHigh high => exact .inr ⟨high, rfl⟩

end Sequences

def Rule.Measures (rule : Rule) : Prop :=
  ∀ tokens parsed, rule tokens = .ok parsed → parsed.height = parsed.expression.height

theorem Sound.measures {category : Category} {depth : Nat} {rule : Rule}
    (sound : Sound category depth rule) : rule.Measures := by
  intro tokens parsed found
  have read : rule.read tokens = .ok parsed.parts := by
    unfold Rule.read
    rw [found]
    rfl
  exact (sound read).height_eq

/-- Parsing follows the grammar on tokens before the end: it gives the trees that are derived
within both limits, names a limit that a derivation exceeds, and refuses all that is not derived. -/
structure FollowsGrammar (body : List Token) (last : Token) : Prop where
  accepts : ∀ tree, Expression.ofTokens (body ++ [last]) = .ok tree ↔
    ∃ nesting, Derives .sum body tree nesting ∧ nesting ≤ greatestDepth ∧
      tree.height ≤ greatestHeight
  exceeding : ∀ tree nesting, Derives .sum body tree nesting →
    greatestDepth < nesting ∨ greatestHeight < tree.height →
      greatestDepth < nesting ∧
          Expression.ofTokens (body ++ [last]) = .error (nestedTooDeep greatestDepth) ∨
        greatestHeight < tree.height ∧
          Expression.ofTokens (body ++ [last]) = .error (nestedTooDeep greatestHeight)
  refuses : (¬ ∃ tree nesting, Derives .sum body tree nesting) →
    ∃ fault, Expression.ofTokens (body ++ [last]) = .error fault

theorem followsGrammar {body : List Token} {last : Token} (ends : last.symbol = .finish)
    (visible : ∀ token ∈ body, token.symbol ≠ .finish) : FollowsGrammar body last where
  accepts tree := by
    constructor
    · exact ofTokens_sound ends visible
    · rintro ⟨nesting, derived, shallow, low⟩
      exact ofTokens_complete ends derived shallow low
  exceeding tree nesting derived exceeds := ofTokens_exceeding ends derived exceeds
  refuses underivable := by
    cases found : Expression.ofTokens (body ++ [last]) with
    | error fault => exact ⟨fault, rfl⟩
    | ok tree =>
        obtain ⟨nesting, derived, _⟩ := ofTokens_sound ends visible found
        exact absurd ⟨tree, nesting, derived⟩ underivable

/-- The tokens of every text are parsed as the grammar says, and every rule carries along the height
of the tree that it builds. -/
theorem text_followsGrammar {text : List Char} {tokens : List Token}
    (scanned : Token.ofText text = .ok tokens) :
    (∃ body last, tokens = body ++ [last] ∧ last.symbol = .finish ∧
      (∀ token ∈ body, token.symbol ≠ .finish) ∧ FollowsGrammar body last) ∧
    ∀ depth, Rule.Measures (operandWithin depth) ∧
      Rule.Measures (chain Symbol.productOperator? (operandWithin depth)) ∧
      Rule.Measures (sumOf (operandWithin depth)) := by
  constructor
  · obtain ⟨body, last, same, ends, visible⟩ := ofText_eq_ok scanned
    exact ⟨body, last, same, ends, visible, followsGrammar ends visible⟩
  · intro depth
    have sound := operand_sound depth
    exact ⟨sound.measures, (product_sound sound).measures, (sum_sound sound).measures⟩

theorem text_followsGrammar_signed :
    ∃ tokens, Token.ofText "-(1 + 2) * 3".toList = .ok tokens ∧
      (∃ body last, tokens = body ++ [last] ∧ last.symbol = .finish ∧
        (∀ token ∈ body, token.symbol ≠ .finish) ∧ FollowsGrammar body last) ∧
      ∀ depth, Rule.Measures (operandWithin depth) ∧
        Rule.Measures (chain Symbol.productOperator? (operandWithin depth)) ∧
        Rule.Measures (sumOf (operandWithin depth)) := by
  have scans : (Token.ofText "-(1 + 2) * 3".toList).isOk = true := by decide +kernel
  cases scanned : Token.ofText "-(1 + 2) * 3".toList with
  | error fault =>
      rw [scanned] at scans
      cases scans
  | ok tokens => exact ⟨tokens, rfl, text_followsGrammar scanned⟩

end Formulary
