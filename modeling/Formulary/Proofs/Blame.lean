import Formulary.Proofs.Grammar

/-!
What the parser blames for a sequence that it refuses. It stops at the first token with which no
sentence goes on, or at the end of a sequence that a sentence could go on from: behind an operator or
an opening parenthesis for want of an operand, and behind an operand for want of a closing one.
-/

namespace Formulary

open ArithmeticFault

def Begins (category : Category) (tokens : List Token) : Prop :=
  ∃ rest tree nesting, Derives category (tokens ++ rest) tree nesting

def Viable (tokens : List Token) : Prop :=
  Begins .sum tokens

def unmatched (opened : List Token) : List Token → List Token
  | [] => opened
  | token :: rest =>
    match token.symbol with
    | .opening => unmatched (token :: opened) rest
    | .closing => unmatched opened.tail rest
    | _ => unmatched opened rest

def Symbol.WantsOperand (symbol : Symbol) : Prop :=
  (∃ operator, symbol.Means operator) ∨ symbol = .opening

/-- What the tokens before the end are refused for. -/
inductive Blames (body : List Token) : ArithmeticFault → Prop
  | empty (nothing : body = []) : Blames body empty
  | token {before after : List Token} {token : Token} (split : body = before ++ token :: after)
      (possible : Viable before) (impossible : ¬ Viable (before ++ [token])) :
      Blames body (unexpectedToken token)
  | ending {before : List Token} {last : Token} (split : body = before ++ [last])
      (wants : last.symbol.WantsOperand) (possible : Viable body) : Blames body unexpectedEnd
  | unclosed {before operand : List Token} {tree : Expression} {nesting : Nat} {opening : Token}
      (split : body = before ++ operand) (complete : Derives .operand operand tree nesting)
      (possible : Viable body) (innermost : (unmatched [] body).head? = some opening) :
      Blames body (unclosed opening.span.start)
  | tooDeep {limit : Nat} : Blames body (nestedTooDeep limit)

structure Headway where
  wanting : Bool
  opened : List Token

namespace Headway

def step? (headway : Headway) (token : Token) : Option Headway :=
  match headway.wanting, token.symbol with
  | true, .number _ => some ⟨false, headway.opened⟩
  | true, .reference _ => some ⟨false, headway.opened⟩
  | true, .opening => some ⟨true, token :: headway.opened⟩
  | true, .plus => some headway
  | true, .minus => some headway
  | false, .plus => some ⟨true, headway.opened⟩
  | false, .minus => some ⟨true, headway.opened⟩
  | false, .star => some ⟨true, headway.opened⟩
  | false, .slash => some ⟨true, headway.opened⟩
  | false, .closing =>
    match headway.opened with
    | [] => none
    | _ :: outer => some ⟨false, outer⟩
  | _, _ => none

def run? (headway : Headway) (tokens : List Token) : Option Headway :=
  tokens.foldlM step? headway

variable {headway next : Headway} {token : Token} {before after : List Token} {opened : List Token}

theorem run?_append : headway.run? (before ++ after) = (headway.run? before).bind (run? · after) :=
  List.foldlM_append

theorem run?_cons : headway.run? (token :: after) = (headway.step? token).bind (run? · after) :=
  List.foldlM_cons

theorem run?_singleton : headway.run? [token] = headway.step? token := by
  rw [run?_cons]
  cases headway.step? token <;> rfl

theorem step?_operator {operator : Operator} (means : token.symbol.Means operator) :
    step? ⟨false, opened⟩ token = some ⟨true, opened⟩ := by
  obtain ⟨symbol, span⟩ := token
  cases symbol <;> rcases means with sign | sign <;> first | rfl | cases sign

theorem step?_sign {sign : Sign} (marked : token.symbol.sign? = some sign) :
    step? ⟨true, opened⟩ token = some ⟨true, opened⟩ := by
  obtain ⟨symbol, span⟩ := token
  cases symbol <;> first | rfl | cases marked

theorem step?_opening (opens : token.symbol = .opening) :
    step? ⟨true, opened⟩ token = some ⟨true, token :: opened⟩ := by
  obtain ⟨symbol, span⟩ := token
  cases opens
  rfl

theorem wantsOperand_of_step? (stepped : headway.step? token = some ⟨true, opened⟩) :
    token.symbol.WantsOperand := by
  obtain ⟨symbol, span⟩ := token
  obtain ⟨wanting, outer⟩ := headway
  cases symbol with
  | plus | minus => exact .inl ⟨_, .inl rfl⟩
  | star | slash => exact .inl ⟨_, .inr rfl⟩
  | opening => exact .inr rfl
  | number | reference | finish => cases wanting <;> cases stepped
  | closing => cases wanting <;> cases outer <;> cases stepped

theorem unmatched_of_step? (stepped : headway.step? token = some next) :
    unmatched headway.opened (token :: after) = unmatched next.opened after := by
  obtain ⟨symbol, span⟩ := token
  obtain ⟨wanting, outer⟩ := headway
  cases symbol with
  | closing =>
      cases wanting <;> cases outer <;> cases stepped
      rfl
  | _ => cases wanting <;> cases stepped <;> rfl

theorem unmatched_of_run? (ran : headway.run? before = some next) :
    unmatched headway.opened before = next.opened := by
  induction before generalizing headway with
  | nil =>
      cases ran
      rfl
  | cons token rest ih =>
      rw [run?_cons] at ran
      obtain ⟨middle, stepped, ran⟩ := Option.bind_eq_some_iff.1 ran
      rw [unmatched_of_step? stepped, ih ran]

end Headway

theorem Derives.run? {category : Category} {tokens : List Token} {tree : Expression} {nesting : Nat}
    (derived : Derives category tokens tree nesting) (opened : List Token) :
    Headway.run? ⟨true, opened⟩ tokens = some ⟨false, opened⟩ := by
  induction derived generalizing opened with
  | sum _ ih | product _ ih | operand _ ih => exact ih opened
  | sumMore front sign next frontIh nextIh =>
      rw [Headway.run?_append, frontIh, Option.bind_some, Headway.run?_cons,
        Headway.step?_operator (.inl sign), Option.bind_some, nextIh]
  | productMore front sign next frontIh nextIh =>
      rw [Headway.run?_append, frontIh, Option.bind_some, Headway.run?_cons,
        Headway.step?_operator (.inr sign), Option.bind_some, nextIh]
  | signed marked operand ih =>
      rw [Headway.run?_cons, Headway.step?_sign marked, Option.bind_some, ih]
  | @number token value read | @reference token target read =>
      obtain ⟨symbol, span⟩ := token
      cases read
      rfl
  | @parenthesized tokens tree nesting opening closing opens inside closes ih =>
      rw [List.cons_append, Headway.run?_cons, Headway.step?_opening opens, Option.bind_some,
        Headway.run?_append, ih, Option.bind_some, Headway.run?_singleton]
      obtain ⟨symbol, span⟩ := closing
      cases closes
      rfl

theorem not_viable_of_run? {tokens : List Token} (stuck : Headway.run? ⟨true, []⟩ tokens = none) :
    ¬ Viable tokens := by
  rintro ⟨rest, tree, nesting, derived⟩
  have ran := derived.run? []
  rw [Headway.run?_append, stuck] at ran
  cases ran

/-! Where a rule stops, from the innermost one outwards. -/

def Ends (tokens : List Token) : Prop :=
  ∃ body last, tokens = body ++ [last] ∧ last.symbol = .finish

inductive Stops (category : Category) (tokens : List Token) : ArithmeticFault → Prop
  | tooDeep {limit : Nat} : Stops category tokens (nestedTooDeep limit)
  | token {before after : List Token} {token : Token} (split : tokens = before ++ token :: after)
      (visible : token.symbol ≠ .finish) (possible : Begins category before)
      (stuck : ∀ opened, Headway.run? ⟨true, opened⟩ (before ++ [token]) = none) :
      Stops category tokens (unexpectedToken token)
  | ending {before after : List Token} {last : Token} (split : tokens = before ++ last :: after)
      (ends : last.symbol = .finish) (possible : Begins category before)
      (wanting : ∀ opened, ∃ inside, Headway.run? ⟨true, opened⟩ before = some ⟨true, inside⟩) :
      Stops category tokens unexpectedEnd
  | unclosed {before operand after : List Token} {last opening : Token} {tree : Expression}
      {nesting : Nat} (split : tokens = before ++ operand ++ last :: after)
      (ends : last.symbol = .finish) (possible : Begins category (before ++ operand))
      (complete : Derives .operand operand tree nesting)
      (inside : ∀ opened, ∃ outer,
        Headway.run? ⟨true, opened⟩ (before ++ operand) = some ⟨false, opening :: outer⟩) :
      Stops category tokens (unclosed opening.span.start)

theorem Stops.behind {inner outer : Category} {front tokens : List Token} {fault : ArithmeticFault}
    (stops : Stops inner tokens fault)
    (begins : ∀ before, Begins inner before → Begins outer (front ++ before))
    (ran : ∀ opened, ∃ inside, Headway.run? ⟨true, opened⟩ front = some ⟨true, inside⟩) :
    Stops outer (front ++ tokens) fault := by
  have through (more : List Token) (opened : List Token) : ∃ inside,
      Headway.run? ⟨true, opened⟩ (front ++ more) = Headway.run? ⟨true, inside⟩ more := by
    obtain ⟨inside, ran⟩ := ran opened
    exact ⟨inside, by rw [Headway.run?_append, ran, Option.bind_some]⟩
  cases stops with
  | tooDeep => exact .tooDeep
  | @token before after token split visible possible stuck =>
      have whole : front ++ tokens = front ++ before ++ token :: after := by
        rw [split, List.append_assoc]
      refine .token whole visible (begins _ possible) fun opened => ?_
      obtain ⟨inside, same⟩ := through (before ++ [token]) opened
      rw [List.append_assoc, same, stuck]
  | @ending before after last split ends possible wanting =>
      have whole : front ++ tokens = front ++ before ++ last :: after := by
        rw [split, List.append_assoc]
      refine .ending whole ends (begins _ possible) fun opened => ?_
      obtain ⟨inside, same⟩ := through before opened
      rw [same]
      exact wanting inside
  | @unclosed before operand after last opening tree nesting split ends possible complete closes =>
      have whole : front ++ tokens = front ++ before ++ operand ++ last :: after := by
        rw [split, List.append_assoc, List.append_assoc, List.append_assoc]
      refine .unclosed whole ends ?_ complete fun opened => ?_
      · rw [List.append_assoc]
        exact begins _ possible
      · obtain ⟨inside, same⟩ := through (before ++ operand) opened
        rw [List.append_assoc, same]
        exact closes inside

def Accounted (category : Category) (rule : Rule) : Prop :=
  ∀ ⦃tokens fault⦄, Ends tokens → rule.read tokens = .error fault → Stops category tokens fault

theorem Ends.behind {taken rest : List Token} (ends : Ends (taken ++ rest))
    (visible : ∀ token ∈ taken, token.symbol ≠ .finish) : Ends rest := by
  obtain ⟨body, last, same, finish⟩ := ends
  rcases List.eq_nil_or_concat rest with rfl | ⟨front, final, rfl⟩
  · rw [List.append_nil] at same
    exact absurd finish (visible last (by simp [same]))
  · rw [List.concat_eq_append, ← List.append_assoc] at same
    obtain ⟨_, same⟩ := List.append_inj' same rfl
    cases same
    exact ⟨front, last, List.concat_eq_append, finish⟩

theorem Ends.ne_nil {tokens : List Token} (ends : Ends tokens) : tokens ≠ [] := by
  rintro rfl
  obtain ⟨body, last, same, _⟩ := ends
  simp at same

theorem Ends.tail {token : Token} {rest : List Token} (ends : Ends (token :: rest))
    (visible : token.symbol ≠ .finish) : Ends rest :=
  @Ends.behind [token] rest ends (by simpa using visible)

structure Repeats (inner outer : Category) (operator? : Symbol → Option Operator) : Prop where
  one : ∀ {tokens tree nesting}, Derives inner tokens tree nesting → Derives outer tokens tree nesting
  more : ∀ {before after left right token operator first second},
    Derives outer before left first → operator? token.symbol = some operator →
      Derives inner after right second →
        Derives outer (before ++ token :: after)
          (.binary operator left right (left.span.cover right.span)) (max first second)
  operator : ∀ {symbol : Symbol} {operator}, operator? symbol = some operator → symbol.Means operator

theorem repeats_sum : Repeats .product .sum Symbol.sumOperator? := ⟨.sum, .sumMore, .inl⟩

theorem repeats_product : Repeats .operand .product Symbol.productOperator? :=
  ⟨.product, .productMore, .inr⟩

section Chains

variable {inner outer : Category} {operator? : Symbol → Option Operator} {rule : Rule}
  {depth : Nat} {fault : ArithmeticFault} {taken rest : List Token} {left : Expression} {nesting : Nat}

theorem Repeats.visible (repeats : Repeats inner outer operator?) {symbol : Symbol} {operator : Operator}
    (found : operator? symbol = some operator) : symbol ≠ .finish := by
  rintro rfl
  rcases repeats.operator found with found | found <;> cases found

theorem Stops.right {token : Token} {operator : Operator} (repeats : Repeats inner outer operator?)
    (front : Derives outer taken left nesting) (found : operator? token.symbol = some operator)
    (stops : Stops inner rest fault) : Stops outer (taken ++ token :: rest) fault := by
  rw [List.append_cons]
  refine stops.behind ?_ ?_
  · rintro before ⟨more, right, inside, derived⟩
    have whole := repeats.more front found derived
    rw [List.append_cons, ← List.append_assoc] at whole
    exact ⟨more, _, _, whole⟩
  · intro opened
    refine ⟨opened, ?_⟩
    rw [Headway.run?_append, front.run?, Option.bind_some, Headway.run?_singleton,
      Headway.step?_operator (repeats.operator found)]

theorem grow_eq_error {height : Nat} (failed : grow height = .error fault) :
    fault = nestedTooDeep greatestHeight := by
  unfold grow at failed
  split at failed <;> cases failed
  rfl

theorem continued_accounted (repeats : Repeats inner outer operator?) (sound : Sound inner depth rule)
    (accounted : Accounted inner rule) {height : Nat} (front : Derives outer taken left nesting)
    (ends : Ends rest) (failed : Rule.continued operator? rule (left, height, rest) = .error fault) :
    Stops outer (taken ++ rest) fault := by
  induction size : rest.length using Nat.strongRecOn
    generalizing taken rest left height nesting with
  | ind _ ih =>
      cases rest with
      | nil => exact absurd rfl ends.ne_nil
      | cons token later =>
          cases found : operator? token.symbol with
          | none =>
              rw [Rule.continued_stop (by simpa using found)] at failed
              cases failed
          | some operator =>
              have endsLater := ends.tail (repeats.visible found)
              rw [Rule.continued_cons found] at failed
              rcases except_bind_eq_error.1 failed with stopped | ⟨⟨right, _, further⟩, read, later⟩
              · exact (accounted endsLater stopped).right repeats front found
              · rcases except_bind_eq_error.1 later with grown | ⟨_, _, went⟩
                · rw [grow_eq_error grown]
                  exact .tooDeep
                · have shorter := Rule.read_shorter read
                  obtain ⟨⟨between, second, rfl, derived, _⟩, _, _⟩ := sound read
                  have stops := ih further.length (size ▸ Nat.lt_succ_of_lt shorter)
                    (repeats.more front found derived) (endsLater.behind derived.ne_finish) went rfl
                  rwa [List.append_assoc] at stops

theorem chain_accounted (repeats : Repeats inner outer operator?) (sound : Sound inner depth rule)
    (accounted : Accounted inner rule) : Accounted outer (chain operator? rule) := by
  intro tokens fault ends failed
  rw [Rule.read_chain] at failed
  rcases except_bind_eq_error.1 failed with stopped | ⟨⟨left, height, rest⟩, read, went⟩
  · refine @Stops.behind inner outer [] _ _ (accounted ends stopped) ?_ fun opened => ⟨opened, rfl⟩
    rintro before ⟨more, tree, nesting, derived⟩
    exact ⟨more, tree, nesting, repeats.one derived⟩
  · obtain ⟨⟨taken, nesting, rfl, derived, _⟩, _, _⟩ := sound read
    exact continued_accounted repeats sound accounted (repeats.one derived)
      (ends.behind derived.ne_finish) went

theorem continued_leaves {left : Expression × Nat × List Token} {tree : Expression} {height : Nat}
    {Behind : List Token → Prop}
    (leaves : ∀ tokens tree height rest, rule.read tokens = .ok (tree, height, rest) → Behind rest)
    (start : Behind left.2.2) (found : Rule.continued operator? rule left = .ok (tree, height, rest)) :
    Behind rest ∧ Free operator? rest := by
  obtain ⟨first, firstHeight, tokens⟩ := left
  induction size : tokens.length using Nat.strongRecOn generalizing tokens first firstHeight with
  | ind _ ih =>
      cases tokens with
      | nil =>
          rw [Rule.continued_stop (by simp)] at found
          cases found
          exact ⟨start, by simp [Free]⟩
      | cons token later =>
          cases sign : operator? token.symbol with
          | none =>
              rw [Rule.continued_stop (by simpa using sign)] at found
              cases found
              exact ⟨start, by simpa [Free] using sign⟩
          | some operator =>
              rw [Rule.continued_cons sign] at found
              obtain ⟨⟨right, rightHeight, further⟩, read, grew⟩ := except_bind_eq_ok.1 found
              obtain ⟨grown, _, went⟩ := except_bind_eq_ok.1 grew
              exact ih further.length (size ▸ Nat.lt_succ_of_lt (Rule.read_shorter read)) _ _ _
                (leaves _ _ _ _ read) went rfl

end Chains

theorem chain_leaves {operator? : Symbol → Option Operator} {rule : Rule} {Behind : List Token → Prop}
    (leaves : ∀ tokens tree height rest, rule.read tokens = .ok (tree, height, rest) → Behind rest)
    {tokens rest : List Token} {tree : Expression} {height : Nat}
    (found : (chain operator? rule).read tokens = .ok (tree, height, rest)) :
    Behind rest ∧ Free operator? rest := by
  rw [Rule.read_chain] at found
  obtain ⟨left, read, went⟩ := except_bind_eq_ok.1 found
  exact continued_leaves leaves (leaves _ _ _ _ read) went

theorem sum_leaves {rule : Rule} {tokens rest : List Token} {tree : Expression} {height : Nat}
    (found : (sumOf rule).read tokens = .ok (tree, height, rest)) :
    Free Symbol.productOperator? rest ∧ Free Symbol.sumOperator? rest :=
  chain_leaves (fun _ _ _ _ read => (chain_leaves (fun _ _ _ _ _ => trivial) read).2) found

theorem sum_accounted {depth : Nat} {rule : Rule} (sound : Sound .operand depth rule)
    (accounted : Accounted .operand rule) : Accounted .sum (sumOf rule) :=
  chain_accounted repeats_sum (product_sound sound) (chain_accounted repeats_product sound accounted)

section Operands

variable {token : Token} {tokens rest taken : List Token} {tree : Expression} {depth nesting : Nat}
  {fault : ArithmeticFault}

theorem begins_nil : Begins .operand [] :=
  ⟨[⟨.number 0, ⟨0, 0⟩⟩], _, _, .operand (.number rfl)⟩

theorem Begins.parenthesized (opens : token.symbol = .opening) {before : List Token}
    (begins : Begins .sum before) : Begins .operand (token :: before) := by
  obtain ⟨rest, tree, nesting, derived⟩ := begins
  have closed : Derives .primary (token :: (before ++ rest) ++ [⟨.closing, ⟨0, 0⟩⟩]) _ _ :=
    .parenthesized opens derived rfl
  rw [List.cons_append, List.append_assoc] at closed
  exact ⟨rest ++ [⟨.closing, ⟨0, 0⟩⟩], _, _, .operand closed⟩

theorem signed_accounted {sign : Sign}
    (below : ∀ less, depth = less + 1 → Accounted .operand (operandWithin less))
    (marked : token.symbol.sign? = some sign) (ends : Ends rest)
    (failed : Rule.read (operandWithin depth) (token :: rest) = .error fault) :
    Stops .operand (token :: rest) fault := by
  cases depth with
  | zero =>
      rw [read_signed_zero marked] at failed
      cases failed
      exact .tooDeep
  | succ less =>
      rw [read_signed marked] at failed
      rcases except_bind_eq_error.1 failed with stopped | ⟨operand, _, failed⟩
      · refine @Stops.behind .operand .operand [token] _ _ (below less rfl ends stopped) ?_ ?_
        · rintro before ⟨more, tree, nesting, derived⟩
          exact ⟨more, _, _, .signed marked derived⟩
        · intro opened
          exact ⟨opened, by rw [Headway.run?_singleton, Headway.step?_sign marked]⟩
      · rcases except_bind_eq_error.1 failed with grown | ⟨_, _, impossible⟩
        · rw [grow_eq_error grown]
          exact .tooDeep
        · cases impossible

theorem Derives.exists_operand {category : Category} (derived : Derives category tokens tree nesting) :
    ∃ before operand last nested, tokens = before ++ operand ∧
      Derives .operand operand last nested := by
  induction derived with
  | sum _ ih | product _ ih => exact ih
  | @sumMore before _ _ _ _ _ token _ _ _ _ _ ih =>
      obtain ⟨front, operand, last, nested, rfl, derived⟩ := ih
      exact ⟨before ++ token :: front, operand, last, nested, by simp, derived⟩
  | @productMore before after _ _ _ _ token _ _ _ next _ _ =>
      exact ⟨before ++ [token], after, _, _, by simp, next⟩
  | signed marked operand _ => exact ⟨[], _, _, _, rfl, .signed marked operand⟩
  | operand bare _ => exact ⟨[], _, _, _, rfl, .operand bare⟩
  | number read => exact ⟨[], _, _, _, rfl, .operand (.number read)⟩
  | reference read => exact ⟨[], _, _, _, rfl, .operand (.reference read)⟩
  | parenthesized opens inside closes _ =>
      exact ⟨[], _, _, _, rfl, .operand (.parenthesized opens inside closes)⟩

theorem Headway.step?_of_free {opened : List Token}
    (free : Free Symbol.productOperator? (token :: rest) ∧ Free Symbol.sumOperator? (token :: rest))
    (unclosed : token.symbol = .closing → opened = []) : step? ⟨false, opened⟩ token = none := by
  obtain ⟨noProduct, noSum⟩ := free
  have noProduct := noProduct token rfl
  have noSum := noSum token rfl
  obtain ⟨symbol, span⟩ := token
  cases symbol with
  | plus | minus => cases noSum
  | star | slash => cases noProduct
  | closing =>
      rw [unclosed rfl]
      rfl
  | number | reference | opening | finish => rfl

theorem closed_accounted (opens : token.symbol = .opening) (derived : Derives .sum taken tree nesting)
    (free : Free Symbol.productOperator? rest ∧ Free Symbol.sumOperator? rest) (ends : Ends rest)
    {height : Nat} (failed : closed token.span (tree, height, rest) = .error fault) :
    Stops .operand (token :: taken ++ rest) fault := by
  have begins : Begins .operand (token :: taken) :=
    Begins.parenthesized opens ⟨[], tree, nesting, by rwa [List.append_nil]⟩
  have ran (opened : List Token) :
      Headway.run? ⟨true, opened⟩ (token :: taken) = some ⟨false, token :: opened⟩ := by
    rw [Headway.run?_cons, Headway.step?_opening opens, Option.bind_some, derived.run?]
  cases rest with
  | nil => exact absurd rfl ends.ne_nil
  | cons next later =>
      cases kind : next.symbol with
      | finish =>
          have raised : fault = unclosed token.span.start := by
            unfold closed at failed
            simp only [kind] at failed
            cases failed
            rfl
          rw [raised]
          obtain ⟨before, operand, last, nested, rfl, complete⟩ := derived.exists_operand
          have whole : token :: (before ++ operand) ++ next :: later =
              token :: before ++ operand ++ next :: later := rfl
          exact .unclosed whole kind begins complete fun opened => ⟨opened, ran opened⟩
      | closing =>
          rw [closed_closing kind] at failed
          cases failed
      | number | reference | plus | minus | star | slash | opening =>
          have raised : fault = unexpectedToken next := by
            unfold closed at failed
            simp only [kind] at failed
            cases failed
            rfl
          rw [raised]
          refine .token rfl (by simp [kind]) begins fun opened => ?_
          rw [Headway.run?_append, ran, Option.bind_some, Headway.run?_singleton,
            Headway.step?_of_free free (by simp [kind])]

theorem opening_accounted
    (below : ∀ less, depth = less + 1 → Accounted .operand (operandWithin less))
    (opens : token.symbol = .opening) (ends : Ends rest)
    (failed : Rule.read (operandWithin depth) (token :: rest) = .error fault) :
    Stops .operand (token :: rest) fault := by
  cases depth with
  | zero =>
      rw [read_opening_zero opens] at failed
      cases failed
      exact .tooDeep
  | succ less =>
      rw [read_opening opens] at failed
      have sound := operand_sound less
      rcases except_bind_eq_error.1 failed with stopped | ⟨⟨inner, height, further⟩, read, unended⟩
      · have stops := sum_accounted sound (below less rfl) ends stopped
        refine @Stops.behind .sum .operand [token] _ _ stops (fun _ => Begins.parenthesized opens) ?_
        intro opened
        exact ⟨token :: opened, by rw [Headway.run?_singleton, Headway.step?_opening opens]⟩
      · obtain ⟨⟨taken, nesting, rfl, derived, _⟩, _, _⟩ := sum_sound sound read
        exact closed_accounted opens derived (sum_leaves read) (ends.behind derived.ne_finish) unended

theorem operand_accounted_within
    (below : ∀ less, depth = less + 1 → Accounted .operand (operandWithin less)) :
    Accounted .operand (operandWithin depth) := by
  intro tokens fault ends failed
  cases tokens with
  | nil => exact absurd rfl ends.ne_nil
  | cons token rest =>
      cases kind : token.symbol with
      | number value =>
          rw [read_number kind] at failed
          cases failed
      | reference target =>
          rw [read_reference kind] at failed
          cases failed
      | plus | minus =>
          exact signed_accounted below (congrArg Symbol.sign? kind) (ends.tail (by simp [kind])) failed
      | opening => exact opening_accounted below kind (ends.tail (by simp [kind])) failed
      | finish =>
          have raised : fault = unexpectedEnd := by
            obtain ⟨symbol, span⟩ := token
            cases kind
            cases depth <;> cases failed <;> rfl
          rw [raised]
          exact @Stops.ending _ _ [] _ _ rfl kind begins_nil fun opened => ⟨opened, rfl⟩
      | star | slash | closing =>
          have raised : fault = unexpectedToken token := by
            obtain ⟨symbol, span⟩ := token
            cases kind
            cases depth <;> cases failed <;> rfl
          rw [raised]
          refine @Stops.token _ _ [] _ _ rfl (by simp [kind]) begins_nil fun opened => ?_
          rw [List.nil_append, Headway.run?_singleton]
          unfold Headway.step?
          simp only [kind]

theorem operand_accounted (depth : Nat) : Accounted .operand (operandWithin depth) := by
  induction depth with
  | zero => exact operand_accounted_within (by simp)
  | succ depth ih =>
      refine operand_accounted_within ?_
      rintro less ⟨⟩
      exact ih

end Operands

section Sequences

variable {body : List Token} {last : Token} {fault : ArithmeticFault}

theorem exists_wanting {tokens : List Token} {headway : Headway} {opened : List Token}
    (something : tokens ≠ []) (ran : headway.run? tokens = some ⟨true, opened⟩) :
    ∃ before final, tokens = before ++ [final] ∧ final.symbol.WantsOperand := by
  rcases List.eq_nil_or_concat tokens with rfl | ⟨before, final, rfl⟩
  · exact absurd rfl something
  · rw [List.concat_eq_append, Headway.run?_append] at ran
    obtain ⟨middle, _, stepped⟩ := Option.bind_eq_some_iff.1 ran
    rw [Headway.run?_singleton] at stepped
    exact ⟨before, final, List.concat_eq_append, Headway.wantsOperand_of_step? stepped⟩

theorem eq_of_finish (ends : last.symbol = .finish) (visible : ∀ token ∈ body, token.symbol ≠ .finish)
    {before after : List Token} {token : Token} (split : body ++ [last] = before ++ token :: after) :
    (token.symbol = .finish ∧ before = body) ∨ ∃ more, body = before ++ token :: more := by
  rcases List.append_eq_append_iff.1 split with ⟨between, rfl, behind⟩ | ⟨between, rfl, behind⟩
  · cases between with
    | nil =>
        cases behind
        exact .inl ⟨ends, List.append_nil body⟩
    | cons first more => simp at behind
  · cases between with
    | nil =>
        cases behind
        exact .inl ⟨ends, (List.append_nil before).symm⟩
    | cons first more =>
        obtain ⟨rfl, _⟩ := List.cons.inj behind
        exact .inr ⟨more, rfl⟩

theorem Stops.blames (ends : last.symbol = .finish) (visible : ∀ token ∈ body, token.symbol ≠ .finish)
    (something : body ≠ []) (stops : Stops .sum (body ++ [last]) fault) : Blames body fault := by
  cases stops with
  | tooDeep => exact .tooDeep
  | @token before after token split shown possible stuck =>
      rcases eq_of_finish ends visible split with ⟨finish, _⟩ | ⟨more, same⟩
      · exact absurd finish shown
      · exact .token same possible (not_viable_of_run? (stuck []))
  | @ending before after final split finish possible wanting =>
      rcases eq_of_finish ends visible split with ⟨_, rfl⟩ | ⟨more, same⟩
      · obtain ⟨inside, ran⟩ := wanting []
        obtain ⟨front, symbol, same, wants⟩ := exists_wanting something ran
        exact .ending same wants possible
      · exact absurd finish (visible final (by simp [same]))
  | @unclosed before operand after final opening tree nesting split finish possible complete inside =>
      rcases eq_of_finish ends visible split with ⟨_, same⟩ | ⟨more, same⟩
      · obtain ⟨outer, ran⟩ := inside []
        rw [same] at ran possible
        refine .unclosed same.symm complete possible ?_
        rw [show unmatched [] body = opening :: outer from Headway.unmatched_of_run? ran]
        rfl
      · exact absurd finish (visible final (by simp [same]))

theorem blames_of_ended {taken rest : List Token} {tree : Expression} {nesting height : Nat}
    (derived : Derives .sum taken tree nesting) (split : body ++ [last] = taken ++ rest)
    (ends : last.symbol = .finish) (visible : ∀ token ∈ body, token.symbol ≠ .finish)
    (free : Free Symbol.productOperator? rest ∧ Free Symbol.sumOperator? rest)
    (failed : ended (tree, height, rest) = .error fault) : Blames body fault := by
  cases rest with
  | nil => cases failed
  | cons token later =>
      unfold ended at failed
      dsimp only at failed
      rcases eq_of_finish ends visible split with ⟨finish, _⟩ | ⟨more, same⟩
      · simp only [finish] at failed
        cases failed
      · have shown := visible token (by simp [same])
        have raised : fault = unexpectedToken token := by
          split at failed
          · rename_i finish
            exact absurd finish shown
          · cases failed
            rfl
        rw [raised]
        refine .token same ⟨[], tree, nesting, by rwa [List.append_nil]⟩ (not_viable_of_run? ?_)
        rw [Headway.run?_append, derived.run?, Option.bind_some, Headway.run?_singleton,
          Headway.step?_of_free free fun _ => rfl]

theorem ofTokens_blames (ends : last.symbol = .finish)
    (visible : ∀ token ∈ body, token.symbol ≠ .finish)
    (failed : Expression.ofTokens (body ++ [last]) = .error fault) : Blames body fault := by
  cases body with
  | nil =>
      have raised : Expression.ofTokens [last] = .error empty := by
        unfold Expression.ofTokens
        simp only [ends]
      rw [List.nil_append, raised] at failed
      cases failed
      exact .empty rfl
  | cons first more =>
      rw [List.cons_append, ofTokens_eq (visible first List.mem_cons_self)] at failed
      have sound := operand_sound greatestDepth
      rcases except_bind_eq_error.1 failed with stopped | ⟨⟨tree, height, rest⟩, read, unended⟩
      · have stops := sum_accounted sound (operand_accounted greatestDepth)
          ⟨first :: more, last, rfl, ends⟩ stopped
        exact stops.blames ends visible (List.cons_ne_nil _ _)
      · obtain ⟨⟨taken, nesting, split, derived, _⟩, _, _⟩ := sum_sound sound read
        exact blames_of_ended derived split ends visible (sum_leaves read) unended

end Sequences

/-- The tokens of a text that is refused are refused at the first that cannot be: of those before the
end some may be the start of a sentence, and the first with which they are not is blamed; if all of
them are, it is blamed that they end, behind an operator or an opening parenthesis, or behind an
operand with a parenthesis open, of which the innermost is named. Nothing is empty but no tokens. -/
theorem text_blames {text : List Char} {tokens : List Token} (scanned : Token.ofText text = .ok tokens) :
    ∃ body last, tokens = body ++ [last] ∧ last.symbol = .finish ∧
      (∀ token ∈ body, token.symbol ≠ .finish) ∧
      (∀ fault, Expression.ofTokens tokens = .error fault → Blames body fault) ∧
      (Expression.ofTokens tokens = .error empty ↔ body = []) := by
  obtain ⟨body, last, rfl, ends, visible⟩ := ofText_eq_ok scanned
  refine ⟨body, last, rfl, ends, visible, fun fault => ofTokens_blames ends visible, ?_, ?_⟩
  · intro failed
    cases ofTokens_blames ends visible failed with
    | empty nothing => exact nothing
  · rintro rfl
    unfold Expression.ofTokens
    simp only [List.nil_append, ends]

theorem text_blames_innermost :
    ∃ tokens body last fault, Token.ofText "2 * (3 + (4".toList = .ok tokens ∧ tokens = body ++ [last] ∧
      Expression.ofTokens tokens = .error fault ∧
      fault.message = "parenthesis opened at offset 9 is never closed" ∧ Blames body fault ∧
      Expression.ofTokens tokens ≠ .error empty ∧ body ≠ [] := by
  have computed : (Token.ofText "2 * (3 + (4".toList).toOption.map (fun tokens =>
      ((Expression.ofTokens tokens).map fun _ => ()).mapError ArithmeticFault.message) =
        some (.error "parenthesis opened at offset 9 is never closed") := by
    decide +kernel
  obtain ⟨tokens, read, refused⟩ := Option.map_eq_some_iff.1 computed
  obtain ⟨fault, failed, reads⟩ := mapError_eq_error.1 refused
  have scanned := toOption_eq_some.1 read
  obtain ⟨body, last, split, _, _, blames, nothing⟩ := text_blames scanned
  cases outcome : Expression.ofTokens tokens with
  | ok tree =>
      rw [outcome] at failed
      cases failed
  | error reason =>
      rw [outcome] at failed
      cases failed
      have filled : (.error fault : Except ArithmeticFault Expression) ≠ .error empty := by
        rintro ⟨⟩
        exact absurd reads (by decide)
      exact ⟨tokens, body, last, fault, scanned, split, outcome, reads, blames _ outcome, outcome ▸ filled,
        fun void => filled (outcome ▸ nothing.2 void)⟩

end Formulary
