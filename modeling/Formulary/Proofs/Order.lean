import Formulary.Proofs.Parts

/-!
The order of evaluation. What an operation is applied to is completed before it, the left operand
first; and an expression fails as the first of its parts that has no value. Variables that are looked
up beforehand make no other difference than that a missing one is noticed earlier.
-/

namespace Formulary

theorem find?_eraseDups {α : Type} [BEq α] [LawfulBEq α] (wanted : α → Bool) (list : List α) :
    list.eraseDups.find? wanted = list.find? wanted := by
  induction size : list.length using Nat.strongRecOn generalizing list with
  | ind _ ih =>
      cases list with
      | nil => rfl
      | cons first rest =>
          rw [List.eraseDups_cons]
          cases found : wanted first with
          | true => rw [List.find?_cons_of_pos found, List.find?_cons_of_pos found]
          | false =>
              have unwanted : ¬ wanted first = true := by simp [found]
              have shorter : (rest.filter fun other => !other == first).length < (first :: rest).length :=
                Nat.lt_succ_of_le (List.length_filter_le _ rest)
              rw [List.find?_cons_of_neg unwanted, List.find?_cons_of_neg unwanted,
                ih _ (size ▸ shorter) _ rfl, List.find?_filter]
              congr 1
              funext other
              by_cases same : other = first
              · simp [same, found]
              · simp [same]

def Bindings.lacks (bindings : Bindings) (id : Int) : Bool :=
  (bindings.lookup id).isNone

namespace Expression

variable {tree part left right : Expression} {bindings others : Bindings} {fault : ExpressionFault}
  {value : Float}

def completed : Expression → List Expression
  | number value span => [number value span]
  | reference target span => [reference target span]
  | signed sign operand span => operand.completed ++ [signed sign operand span]
  | binary operator left right span =>
    left.completed ++ right.completed ++ [binary operator left right span]

def Valued (bindings : Bindings) (tree : Expression) : Prop :=
  ∃ value, tree.evaluate bindings = .ok value

inductive Strikes (bindings : Bindings) : Expression → ExpressionFault → Prop
  | missing {target : Reference} {span : Span} (unbound : bindings.lookup target.id = none) :
      Strikes bindings (reference target span) (.unknownVariable target.id)
  | undefined {operator : Operator} {left right : Expression} {span : Span} {x y : Float}
      (leftValue : left.evaluate bindings = .ok x) (rightValue : right.evaluate bindings = .ok y)
      (none : operator.apply? x y = none) :
      Strikes bindings (binary operator left right span)
        (.arithmetic (.divisionByZero right.span.start))
  | unbounded {operator : Operator} {left right : Expression} {span : Span} {x y value : Float}
      (leftValue : left.evaluate bindings = .ok x) (rightValue : right.evaluate bindings = .ok y)
      (applied : operator.apply? x y = some value) (infinite : value.isFinite = false) :
      Strikes bindings (binary operator left right span)
        (.arithmetic (.notFinite operator span.start))

/-- Whether an expression fails at a part of it, which strikes when all that is completed earlier has
a value. -/
def FailsAt (bindings : Bindings) (tree : Expression) (before : List Expression) (part : Expression)
    (after : List Expression) (fault : ExpressionFault) : Prop :=
  tree.completed = before ++ part :: after ∧ (∀ earlier ∈ before, earlier.Valued bindings) ∧
    Strikes bindings part fault

theorem mem_completed : part ∈ tree.completed ↔ part ∈ tree.parts := by
  induction tree with
  | number | reference => rfl
  | signed sign operand span ih =>
      rw [completed, parts, List.mem_append, List.mem_singleton, List.mem_cons, ih, or_comm]
  | binary operator left right span leftIh rightIh =>
      rw [completed, parts, List.mem_append, List.mem_append, List.mem_singleton, List.mem_cons,
        List.mem_append, leftIh, rightIh, or_comm]

theorem valued_of_mem_completed (evaluated : tree.evaluate bindings = .ok value)
    (inside : part ∈ tree.completed) : part.Valued bindings := by
  induction tree generalizing value with
  | number | reference =>
      rw [List.mem_singleton.1 inside]
      exact ⟨value, evaluated⟩
  | signed sign operand span ih =>
      rcases List.mem_append.1 inside with inside | inside
      · obtain ⟨inner, computed, _⟩ := except_bind_eq_ok.1 evaluated
        exact ih computed inside
      · rw [List.mem_singleton.1 inside]
        exact ⟨value, evaluated⟩
  | binary operator left right span leftIh rightIh =>
      obtain ⟨⟨x, leftValue⟩, ⟨y, rightValue⟩, _⟩ := isFinite_of_binary evaluated
      rcases List.mem_append.1 inside with inside | inside
      · rcases List.mem_append.1 inside with inside | inside
        · exact leftIh leftValue inside
        · exact rightIh rightValue inside
      · rw [List.mem_singleton.1 inside]
        exact ⟨value, evaluated⟩

theorem strikes_of_operands {operator : Operator} {span : Span} {x y : Float}
    (leftValue : left.evaluate bindings = .ok x) (rightValue : right.evaluate bindings = .ok y)
    (failed : (binary operator left right span).evaluate bindings = .error fault) :
    Strikes bindings (binary operator left right span) fault := by
  rw [evaluate, leftValue, rightValue] at failed
  dsimp only [Bind.bind, Except.bind] at failed
  cases applied : operator.apply? x y with
  | none =>
      rw [applied] at failed
      cases failed
      exact .undefined leftValue rightValue applied
  | some value =>
      rw [applied] at failed
      cases finite : value.isFinite with
      | true =>
          simp only [finite] at failed
          cases failed
      | false =>
          simp only [finite] at failed
          cases failed
          exact .unbounded leftValue rightValue applied finite

theorem FailsAt.widen {whole : Expression} {front back before after : List Expression}
    (fails : FailsAt bindings tree before part after fault)
    (order : whole.completed = front ++ tree.completed ++ back)
    (valued : ∀ earlier ∈ front, earlier.Valued bindings) :
    FailsAt bindings whole (front ++ before) part (after ++ back) fault := by
  obtain ⟨split, earlier, strikes⟩ := fails
  refine ⟨?_, ?_, strikes⟩
  · rw [order, split]
    simp
  · intro other inside
    rcases List.mem_append.1 inside with inside | inside
    · exact valued other inside
    · exact earlier other inside

theorem exists_failsAt (failed : tree.evaluate bindings = .error fault) :
    ∃ before part after, FailsAt bindings tree before part after fault := by
  induction tree generalizing fault with
  | number value span => cases failed
  | reference target span =>
      rw [evaluate] at failed
      cases found : bindings.lookup target.id with
      | some value =>
          rw [found] at failed
          cases failed
      | none =>
          rw [found] at failed
          cases failed
          exact ⟨[], _, [], rfl, List.forall_mem_nil _, .missing found⟩
  | signed sign operand span ih =>
      rcases except_bind_eq_error.1 failed with failed | ⟨inner, _, impossible⟩
      · obtain ⟨before, part, after, fails⟩ := ih failed
        exact ⟨[] ++ before, part, after ++ [_], fails.widen rfl (List.forall_mem_nil _)⟩
      · cases impossible
  | binary operator left right span leftIh rightIh =>
      rcases except_bind_eq_error.1 failed with leftFailed | ⟨x, leftValue, later⟩
      · obtain ⟨before, part, after, fails⟩ := leftIh leftFailed
        exact ⟨[] ++ before, part, after ++ (right.completed ++ [_]),
          fails.widen (List.append_assoc _ _ _) (List.forall_mem_nil _)⟩
      · have leftValued (part : Expression) (inside : part ∈ left.completed) : part.Valued bindings :=
          valued_of_mem_completed leftValue inside
        rcases except_bind_eq_error.1 later with rightFailed | ⟨y, rightValue, _⟩
        · obtain ⟨before, part, after, fails⟩ := rightIh rightFailed
          exact ⟨_, part, _, fails.widen rfl leftValued⟩
        · refine ⟨left.completed ++ right.completed, _, [], rfl, ?_,
            strikes_of_operands leftValue rightValue failed⟩
          intro earlier inside
          rcases List.mem_append.1 inside with inside | inside
          · exact leftValued earlier inside
          · exact valued_of_mem_completed rightValue inside

def mention? : Expression → Option Int
  | reference target _ => some target.id
  | _ => none

theorem mentions_eq (tree : Expression) : tree.mentions = tree.completed.filterMap mention? := by
  induction tree with
  | number | reference => rfl
  | signed sign operand span ih =>
      rw [mentions, completed, List.filterMap_append, ih]
      exact (List.append_nil _).symm
  | binary operator left right span leftIh rightIh =>
      rw [mentions, completed, List.filterMap_append, List.filterMap_append, leftIh, rightIh]
      exact (List.append_nil _).symm

theorem evaluate_congr (same : ∀ id ∈ tree.mentions, bindings.lookup id = others.lookup id) :
    tree.evaluate bindings = tree.evaluate others := by
  induction tree with
  | number value span => rfl
  | reference target span => rw [evaluate, evaluate, same target.id List.mem_cons_self]
  | signed sign operand span ih => rw [evaluate, evaluate, ih same]
  | binary operator left right span leftIh rightIh =>
      rw [evaluate, evaluate, leftIh fun id inside => same id (List.mem_append_left _ inside),
        rightIh fun id inside => same id (List.mem_append_right _ inside)]

theorem bound_of_valued {target : Reference} {span : Span}
    (valued : (reference target span).Valued bindings) :
    ∃ bound, bindings.lookup target.id = some bound := by
  obtain ⟨value, evaluated⟩ := valued
  cases found : bindings.lookup target.id with
  | some bound => exact ⟨bound, rfl⟩
  | none =>
      rw [evaluate, found] at evaluated
      cases evaluated

theorem evaluateWith_eq {ε : Type} (lookup : Int → Except ε (Option Float)) (raise : ExpressionFault → ε)
    (tree : Expression) : tree.evaluateWith lookup raise =
      (bind lookup raise tree.references >>= fun found => (tree.evaluate found).mapError raise) := by
  unfold evaluateWith
  cases bind lookup raise tree.references with
  | error reason => rfl
  | ok found =>
      dsimp only [Bind.bind, Except.bind]
      cases tree.evaluate found <;> rfl

theorem lookup_of_bind {ε : Type} {lookup : Int → Except ε (Option Float)} {raise : ExpressionFault → ε}
    {found : Bindings} (bound : bind lookup raise tree.references = .ok found) {id : Int}
    (mentioned : id ∈ tree.mentions) :
    ∃ value, found.lookup id = some value ∧ lookup id = .ok (some value) := by
  obtain ⟨ids, values⟩ := bind_eq_ok_iff.1 bound
  obtain ⟨value, present⟩ := lookup_of_ids ids mentioned
  obtain ⟨binding, first, rfl⟩ := Option.map_eq_some_iff.1 present
  have same : binding.1 = id := by simpa using List.find?_some first
  refine ⟨binding.2, present, ?_⟩
  rw [← same]
  exact values binding (List.mem_of_find?_eq_some first)

theorem evaluate_of_bind {found : Bindings}
    (bound : bind (fun id => .ok (bindings.lookup id)) id tree.references = .ok found) :
    tree.evaluate found = tree.evaluate bindings := by
  refine evaluate_congr fun id mentioned => ?_
  obtain ⟨value, present, looked⟩ := lookup_of_bind bound mentioned
  rw [present, Except.ok.inj looked]

theorem lacks_eq_false_iff {id : Int} :
    bindings.lacks id = false ↔ ∃ value, bindings.lookup id = some value := by
  unfold Bindings.lacks
  cases bindings.lookup id <;> simp

theorem exists_first_missing {id : Int} (first : tree.references.find? bindings.lacks = some id) :
    ∃ before target span after, tree.completed = before ++ reference target span :: after ∧
      target.id = id ∧ bindings.lookup id = none ∧
      ∀ other ∈ before.filterMap mention?, bindings.lacks other = false := by
  unfold references at first
  rw [find?_eraseDups, mentions_eq, List.find?_eq_some_iff_append] at first
  obtain ⟨missing, earlier, later, split, bound⟩ := first
  obtain ⟨before, behind, order, rfl, found⟩ := List.filterMap_eq_append_iff.1 split
  obtain ⟨between, part, after, rfl, silent, mentioned, _⟩ := List.filterMap_eq_cons_iff.1 found
  cases part with
  | number | signed | binary => cases mentioned
  | reference target span =>
      cases mentioned
      refine ⟨before ++ between, target, span, after, by simp [order], rfl, ?_, ?_⟩
      · exact Option.isNone_iff_eq_none.1 missing
      · intro other inside
        rw [List.filterMap_append, List.filterMap_eq_nil_iff.2 silent, List.append_nil] at inside
        simpa using bound other inside

theorem fails_until_missing {before after : List Expression} {target : Reference} {span : Span}
    (order : tree.completed = before ++ reference target span :: after)
    (missing : bindings.lookup target.id = none)
    (bound : ∀ id ∈ before.filterMap mention?, bindings.lacks id = false) :
    tree.evaluate bindings = .error (.unknownVariable target.id) ∨
      ∃ reason first operation rest, tree.evaluate bindings = .error (.arithmetic reason) ∧
        before = first ++ operation :: rest ∧
        FailsAt bindings tree first operation (rest ++ reference target span :: after)
          (.arithmetic reason) := by
  have unvalued : ¬ (reference target span).Valued bindings := by
    intro valued
    obtain ⟨value, found⟩ := bound_of_valued valued
    rw [missing] at found
    cases found
  have inside : reference target span ∈ tree.completed := by simp [order]
  cases evaluated : tree.evaluate bindings with
  | ok value => exact absurd (valued_of_mem_completed evaluated inside) unvalued
  | error fault =>
      obtain ⟨first, part, later, split, valued, strikes⟩ := exists_failsAt evaluated
      have places := order.symm.trans split
      rcases List.append_eq_append_iff.1 places with ⟨between, same, behind⟩ | ⟨rest, same, behind⟩
      · cases between with
        | nil =>
            obtain ⟨rfl, _⟩ := List.cons.inj behind
            cases strikes with
            | missing => exact .inl rfl
        | cons leaf between =>
            obtain ⟨rfl, _⟩ := List.cons.inj behind
            exact absurd (valued _ (by simp [same])) unvalued
      · cases rest with
        | nil =>
            obtain ⟨rfl, _⟩ := List.cons.inj behind
            cases strikes with
            | missing => exact .inl rfl
        | cons operation rest =>
            obtain ⟨rfl, rfl⟩ := List.cons.inj behind
            cases strikes with
            | @missing other place unbound =>
                have mentioned : other.id ∈ before.filterMap mention? :=
                  List.mem_filterMap.2 ⟨reference other place, by simp [same], rfl⟩
                have found := bound other.id mentioned
                rw [Bindings.lacks, unbound] at found
                cases found
            | undefined leftValue rightValue none =>
                exact .inr ⟨_, first, _, rest, rfl, same, split, valued,
                  .undefined leftValue rightValue none⟩
            | unbounded leftValue rightValue applied infinite =>
                exact .inr ⟨_, first, _, rest, rfl, same, split, valued,
                  .unbounded leftValue rightValue applied infinite⟩

theorem evaluateWith_of_bound
    (bound : ∀ id ∈ tree.references, ∃ value, bindings.lookup id = some value) :
    tree.evaluateWith (fun id => .ok (bindings.lookup id)) id = tree.evaluate bindings := by
  rw [evaluateWith_eq]
  cases found : bind (fun id => .ok (bindings.lookup id)) id tree.references with
  | ok values =>
      change (tree.evaluate values).mapError id = _
      rw [evaluate_of_bind found]
      cases tree.evaluate bindings <;> rfl
  | error reason =>
      obtain ⟨before, id, after, split, _, fails | ⟨missing, _⟩⟩ := bind_eq_error_iff.1 found
      · cases fails
      · obtain ⟨value, present⟩ := bound id (by simp [split])
        rw [present] at missing
        cases missing

theorem evaluateWith_of_missing {first : Int}
    (found : tree.references.find? bindings.lacks = some first) :
    tree.evaluateWith (fun id => .ok (bindings.lookup id)) id =
      .error (.unknownVariable first) := by
  obtain ⟨missing, before, after, split, earlier⟩ := List.find?_eq_some_iff_append.1 found
  have bound : Bound (fun id => (.ok (bindings.lookup id) : Except ExpressionFault _)) before := by
    intro other inside
    obtain ⟨value, present⟩ := lacks_eq_false_iff.1 (by simpa using earlier other inside)
    exact ⟨value, congrArg Except.ok present⟩
  have unbound : bindings.lookup first = none := Option.isNone_iff_eq_none.1 missing
  rw [evaluateWith_eq, bind_eq_error_iff.2
    ⟨before, first, after, split, bound, .inr ⟨congrArg Except.ok unbound, rfl⟩⟩]
  rfl

theorem evaluateWith_eq_error {ε : Type} {lookup : Int → Except ε (Option Float)}
    {raise : ExpressionFault → ε} {reason : ε} (failed : tree.evaluateWith lookup raise = .error reason) :
    (∃ id ∈ tree.references, lookup id = .error reason ∨
      lookup id = .ok none ∧ reason = raise (.unknownVariable id)) ∨
    ∃ why found, reason = raise (.arithmetic why) ∧ bind lookup raise tree.references = .ok found ∧
      tree.evaluate found = .error (.arithmetic why) := by
  rw [evaluateWith_eq, except_bind_eq_error] at failed
  rcases failed with failed | ⟨found, bound, failed⟩
  · obtain ⟨before, id, after, split, _, fails⟩ := bind_eq_error_iff.1 failed
    exact .inl ⟨id, by simp [split], fails⟩
  · obtain ⟨fault, stopped, rfl⟩ := mapError_eq_error.1 failed
    have looked (id : Int) (mentioned : id ∈ tree.mentions) :
        ∃ value, found.lookup id = some value := by
      obtain ⟨value, present, _⟩ := lookup_of_bind bound mentioned
      exact ⟨value, present⟩
    obtain ⟨why, rfl⟩ := evaluate_error_of_bound looked stopped
    exact .inr ⟨why, found, rfl, bound, stopped⟩

/-- The two ways of evaluation agree up to the look-up: they give the same values, and the same faults
if no variable is missing. Otherwise looking up beforehand reports the first that is, which evaluation
on the way reports as well, unless something fails arithmetically that is completed before it is
reached. And whatever the look-up, it alone makes a variable unknown. -/
theorem evaluateWith_agrees (tree : Expression) (bindings : Bindings) :
    let beforehand := tree.evaluateWith (fun id => .ok (bindings.lookup id)) id
    let onTheWay := tree.evaluate bindings
    (∀ value, beforehand = .ok value ↔ onTheWay = .ok value) ∧
    ((∀ id ∈ tree.references, ∃ value, bindings.lookup id = some value) → beforehand = onTheWay) ∧
    (∀ id, tree.references.find? bindings.lacks = some id →
      beforehand = .error (.unknownVariable id) ∧
      ∃ before target span after,
        tree.completed = before ++ reference target span :: after ∧ target.id = id ∧
        (∀ other ∈ before.filterMap mention?, bindings.lacks other = false) ∧
        (onTheWay = .error (.unknownVariable id) ∨
          ∃ reason first operation rest, onTheWay = .error (.arithmetic reason) ∧
            before = first ++ operation :: rest ∧
            FailsAt bindings tree first operation (rest ++ reference target span :: after)
              (.arithmetic reason))) ∧
    ∀ {ε : Type} (lookup : Int → Except ε (Option Float)) (raise : ExpressionFault → ε) reason,
      tree.evaluateWith lookup raise = .error reason →
        (∃ id ∈ tree.references, lookup id = .error reason ∨
          lookup id = .ok none ∧ reason = raise (.unknownVariable id)) ∨
        ∃ why found, reason = raise (.arithmetic why) ∧
          bind lookup raise tree.references = .ok found ∧
          tree.evaluate found = .error (.arithmetic why) := by
  intro beforehand onTheWay
  refine ⟨fun value => ?_, evaluateWith_of_bound, fun id first => ⟨evaluateWith_of_missing first, ?_⟩,
    fun _ _ _ => evaluateWith_eq_error⟩
  · cases first : tree.references.find? bindings.lacks with
    | none =>
        have bound (id : Int) (inside : id ∈ tree.references) : ∃ value, bindings.lookup id = some value :=
          lacks_eq_false_iff.1 (by simpa using List.find?_eq_none.1 first id inside)
        rw [show beforehand = onTheWay from evaluateWith_of_bound bound]
    | some id =>
        obtain ⟨before, target, span, after, order, rfl, missing, bound⟩ := exists_first_missing first
        have unknown : beforehand = .error (.unknownVariable target.id) := evaluateWith_of_missing first
        rcases fails_until_missing order missing bound with failed | ⟨_, _, _, _, failed, _⟩ <;>
          simp [unknown, onTheWay, failed]
  · obtain ⟨before, target, span, after, order, rfl, missing, bound⟩ := exists_first_missing first
    exact ⟨before, target, span, after, order, rfl, bound, fails_until_missing order missing bound⟩

def divisionFirst : Expression :=
  .binary .add (.binary .divide (.number 1 ⟨0, 1⟩) (.number 0 ⟨4, 5⟩) ⟨0, 5⟩)
    (.reference ⟨2, none⟩ ⟨8, 14⟩) ⟨0, 14⟩

theorem evaluateWith_agrees_divisionFirst :
    divisionFirst.references.find? (Bindings.lacks []) = some 2 ∧
      divisionFirst.evaluateWith (fun _ => .ok none) id = .error (.unknownVariable 2) ∧
      divisionFirst.evaluate [] = .error (.arithmetic (.divisionByZero 4)) ∧
      (∀ id ∈ divisionFirst.references, ∃ value, Bindings.lookup [(2, 1)] id = some value) ∧
      divisionFirst.evaluateWith (fun id => .ok (Bindings.lookup [(2, 1)] id)) id =
        divisionFirst.evaluate [(2, 1)] := by
  have missing : divisionFirst.references.find? (Bindings.lacks []) = some 2 := by decide
  have bound : ∀ id ∈ divisionFirst.references, ∃ value, Bindings.lookup [(2, 1)] id = some value := by
    intro id inside
    rw [List.mem_singleton.1 (show id ∈ [2] from inside)]
    exact ⟨1, rfl⟩
  exact ⟨missing, ((evaluateWith_agrees divisionFirst []).2.2.1 2 missing).1, rfl, bound,
    (evaluateWith_agrees divisionFirst [(2, 1)]).2.1 bound⟩

end Expression

end Formulary
