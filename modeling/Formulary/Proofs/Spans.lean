import Formulary.Proofs.Parts

/-!
The spans of a tree. That of a part reaches from the first of the tokens that the part is derived from
to the last one, and what a text has there is an expression of its own, which is this part.
-/

namespace Formulary

structure Reaches (span : Span) (tokens : List Token) : Prop where
  first : ∃ token, tokens.head? = some token ∧ token.span.start = span.start
  last : ∃ token, tokens.getLast? = some token ∧ token.span.stop = span.stop

theorem InOrder.sublist {tokens fewer : List Token} (order : InOrder tokens)
    (fewer_sublist : fewer.Sublist tokens) : InOrder fewer :=
  ⟨fun token inside => order.nonempty token (fewer_sublist.subset inside), order.apart.sublist fewer_sublist⟩

theorem InOrder.front {first second : List Token} (order : InOrder (first ++ second)) : InOrder first :=
  order.sublist (List.sublist_append_left _ _)

theorem InOrder.back {first second : List Token} (order : InOrder (first ++ second)) : InOrder second :=
  order.sublist (List.sublist_append_right _ _)

theorem InOrder.tail {token : Token} {tokens : List Token} (order : InOrder (token :: tokens)) :
    InOrder tokens :=
  order.sublist (List.sublist_cons_self _ _)

theorem Reaches.single (token : Token) : Reaches token.span [token] :=
  ⟨⟨token, rfl, rfl⟩, token, rfl, rfl⟩

theorem Reaches.bounds {span : Span} {tokens : List Token} (reaches : Reaches span tokens)
    (order : InOrder tokens) : ∀ token ∈ tokens,
      span.start ≤ token.span.start ∧ token.span.stop ≤ span.stop := by
  intro token inside
  obtain ⟨⟨first, leading, start⟩, last, trailing, stop⟩ := reaches
  constructor
  · obtain ⟨more, rfl⟩ := List.head?_eq_some_iff.1 leading
    rcases List.mem_cons.1 inside with rfl | later
    · exact Nat.le_of_eq start.symm
    · have proper := order.nonempty first List.mem_cons_self
      have behind := (List.pairwise_cons.1 order.apart).1 token later
      omega
  · obtain ⟨more, rfl⟩ := List.getLast?_eq_some_iff.1 trailing
    rcases List.mem_append.1 inside with earlier | final
    · have proper := order.nonempty last (List.mem_append_right _ List.mem_cons_self)
      have ahead := (List.pairwise_append.1 order.apart).2.2 token earlier last List.mem_cons_self
      omega
    · rw [List.mem_singleton.1 final]
      exact Nat.le_of_eq stop

theorem Reaches.start_lt_stop {span : Span} {tokens : List Token} (reaches : Reaches span tokens)
    (order : InOrder tokens) : span.start < span.stop := by
  obtain ⟨first, leading, start⟩ := reaches.first
  have inside := List.mem_of_head? leading
  have proper := order.nonempty first inside
  have below := (reaches.bounds order first inside).2
  omega

theorem Reaches.encloses {outer span : Span} {tokens inner : List Token} (whole : Reaches outer tokens)
    (part : Reaches span inner) (order : InOrder tokens) (within : ∀ token ∈ inner, token ∈ tokens) :
    outer.start ≤ span.start ∧ span.stop ≤ outer.stop := by
  obtain ⟨⟨first, leading, start⟩, last, trailing, stop⟩ := part
  rw [← start, ← stop]
  exact ⟨(whole.bounds order first (within first (List.mem_of_head? leading))).1,
    (whole.bounds order last (within last (List.mem_of_getLast? trailing))).2⟩

theorem Reaches.apart {left right : Span} {before after : List Token} (first : Reaches left before)
    (second : Reaches right after) (order : InOrder (before ++ after)) : left.stop ≤ right.start := by
  obtain ⟨_, last, trailing, stop⟩ := first
  obtain ⟨⟨next, leading, start⟩, _⟩ := second
  rw [← stop, ← start]
  exact (List.pairwise_append.1 order.apart).2.2 last (List.mem_of_getLast? trailing) next
    (List.mem_of_head? leading)

theorem Reaches.cover {left right : Span} {before middle after : List Token}
    (first : Reaches left before) (second : Reaches right after)
    (order : InOrder (before ++ middle ++ after)) :
    Reaches (left.cover right) (before ++ middle ++ after) := by
  have proper := first.start_lt_stop order.front.front
  have nonempty := second.start_lt_stop order.back
  have apart := first.apart second (order.sublist ((List.sublist_append_left _ _).append_right _))
  obtain ⟨⟨leading, starts, start⟩, _⟩ := first
  obtain ⟨_, trailing, ends, stop⟩ := second
  refine ⟨⟨leading, ?_, ?_⟩, trailing, ?_, ?_⟩
  · rw [List.append_assoc, List.head?_append, starts]
    rfl
  · rw [start]
    exact (Nat.min_eq_left (by omega)).symm
  · rw [List.getLast?_append, ends]
    rfl
  · rw [stop]
    exact (Nat.max_eq_right (by omega)).symm

theorem Derives.reaches {category : Category} {tokens : List Token} {tree : Expression} {nesting : Nat}
    (derived : Derives category tokens tree nesting) (order : InOrder tokens) :
    Reaches tree.span tokens := by
  induction derived with
  | sum _ ih | product _ ih | operand _ ih => exact ih order
  | @sumMore before after _ _ _ _ token _ _ _ _ frontIh nextIh
  | @productMore before after _ _ _ _ token _ _ _ _ frontIh nextIh =>
      have front := frontIh order.front
      have next := nextIh order.back.tail
      rw [List.append_cons] at order ⊢
      exact front.cover next order
  | @signed tokens _ _ token _ _ _ ih =>
      exact @Reaches.cover _ _ [token] [] tokens (.single token) (ih order.tail) order
  | number | reference => exact .single _
  | @parenthesized tokens _ _ opening closing =>
      rw [Expression.span_within]
      exact @Reaches.cover _ _ [opening] tokens [closing] (.single opening) (.single closing) order

theorem Derives.toSum {category : Category} {tokens : List Token} {tree : Expression} {nesting : Nat}
    (derived : Derives category tokens tree nesting) : Derives .sum tokens tree nesting := by
  cases category with
  | sum => exact derived
  | product => exact .sum derived
  | operand => exact .sum (.product derived)
  | primary => exact .sum (.product (.operand derived))

namespace Expression

theorem within_eq_signed {tree operand : Expression} {bounds span : Span} {sign : Sign}
    (same : tree.within bounds = .signed sign operand span) :
    tree = .signed sign operand tree.span := by
  cases tree <;> cases same
  rfl

theorem within_eq_binary {tree left right : Expression} {bounds span : Span} {operator : Operator}
    (same : tree.within bounds = .binary operator left right span) :
    tree = .binary operator left right tree.span := by
  cases tree <;> cases same
  rfl

end Expression

theorem Derives.exists_signed {category : Category} {tokens : List Token} {operand : Expression}
    {nesting : Nat} {sign : Sign} {span : Span}
    (derived : Derives category tokens (.signed sign operand span) nesting) :
    ∃ front token inner back depth, tokens = front ++ token :: inner ++ back ∧
      token.symbol.sign? = some sign ∧ Derives .sum inner operand depth ∧ depth ≤ nesting := by
  generalize same : Expression.signed sign operand span = tree at derived
  induction derived generalizing span with
  | sum _ ih | product _ ih | operand _ ih => exact ih same
  | sumMore | productMore | number | reference => cases same
  | @signed tokens _ depth token _ marked inside =>
      cases same
      exact ⟨[], token, tokens, [], depth, by simp, marked, inside.toSum, Nat.le_succ _⟩
  | @parenthesized tokens _ _ opening closing _ _ _ ih =>
      obtain ⟨front, token, inner, back, depth, rfl, marked, inside, shallow⟩ :=
        ih (Expression.within_eq_signed same.symm).symm
      exact ⟨opening :: front, token, inner, back ++ [closing], depth, by simp, marked, inside,
        Nat.le_succ_of_le shallow⟩

theorem Derives.exists_binary {category : Category} {tokens : List Token} {left right : Expression}
    {nesting : Nat} {operator : Operator} {span : Span}
    (derived : Derives category tokens (.binary operator left right span) nesting) :
    ∃ front before token after back outer inner,
      tokens = front ++ (before ++ token :: after) ++ back ∧ token.symbol.Means operator ∧
        Derives .sum before left outer ∧ outer ≤ nesting ∧
        Derives .sum after right inner ∧ inner ≤ nesting := by
  generalize same : Expression.binary operator left right span = tree at derived
  induction derived generalizing span with
  | sum _ ih | product _ ih | operand _ ih => exact ih same
  | signed | number | reference => cases same
  | @sumMore before after _ _ outer inner token _ front sign next =>
      cases same
      exact ⟨[], before, token, after, [], outer, inner, by simp, .inl sign, front,
        Nat.le_max_left _ _, next.toSum, Nat.le_max_right _ _⟩
  | @productMore before after _ _ outer inner token _ front sign next =>
      cases same
      exact ⟨[], before, token, after, [], outer, inner, by simp, .inr sign, front.toSum,
        Nat.le_max_left _ _, next.toSum, Nat.le_max_right _ _⟩
  | @parenthesized tokens _ _ opening closing _ _ _ ih =>
      obtain ⟨front, before, token, after, back, outer, inner, rfl, sign, first, low, second, shallow⟩ :=
        ih (Expression.within_eq_binary same.symm).symm
      exact ⟨opening :: front, before, token, after, back ++ [closing], outer, inner, by simp, sign,
        first, Nat.le_succ_of_le low, second, Nat.le_succ_of_le shallow⟩

theorem Derives.exists_part {category : Category} {tokens : List Token} {tree part : Expression}
    {nesting : Nat} (derived : Derives category tokens tree nesting) (inside : part ∈ tree.parts) :
    ∃ front inner back depth, tokens = front ++ inner ++ back ∧ Derives .sum inner part depth ∧
      depth ≤ nesting := by
  induction tree generalizing category tokens nesting with
  | number | reference =>
      rw [List.mem_singleton.1 inside]
      exact ⟨[], tokens, [], nesting, by simp, derived.toSum, Nat.le_refl _⟩
  | signed sign operand span ih =>
      rcases List.mem_cons.1 inside with rfl | inside
      · exact ⟨[], tokens, [], nesting, by simp, derived.toSum, Nat.le_refl _⟩
      · obtain ⟨front, token, more, back, depth, rfl, _, later, low⟩ := derived.exists_signed
        obtain ⟨ahead, inner, behind, deep, rfl, found, shallow⟩ := ih later inside
        exact ⟨front ++ token :: ahead, inner, behind ++ back, deep, by simp, found,
          Nat.le_trans shallow low⟩
  | binary operator left right span leftIh rightIh =>
      rcases List.mem_cons.1 inside with rfl | inside
      · exact ⟨[], tokens, [], nesting, by simp, derived.toSum, Nat.le_refl _⟩
      · obtain ⟨front, before, token, after, back, outer, deeper, rfl, _, first, low, second, high⟩ :=
          derived.exists_binary
        rcases List.mem_append.1 inside with inside | inside
        · obtain ⟨ahead, inner, behind, deep, rfl, found, shallow⟩ := leftIh first inside
          exact ⟨front ++ ahead, inner, behind ++ token :: after ++ back, deep, by simp, found,
            Nat.le_trans shallow low⟩
        · obtain ⟨ahead, inner, behind, deep, rfl, found, shallow⟩ := rightIh second inside
          exact ⟨front ++ before ++ token :: ahead, inner, behind ++ back, deep, by simp, found,
            Nat.le_trans shallow high⟩

namespace Expression

theorem height_le_of_mem_parts {tree part : Expression} (inside : part ∈ tree.parts) :
    part.height ≤ tree.height := by
  induction tree with
  | number | reference => rw [List.mem_singleton.1 inside]
  | signed sign operand span ih =>
      rcases List.mem_cons.1 inside with rfl | inside
      · exact Nat.le_refl _
      · exact Nat.le_succ_of_le (ih inside)
  | binary operator left right span leftIh rightIh =>
      rcases List.mem_cons.1 inside with rfl | inside
      · exact Nat.le_refl _
      · rcases List.mem_append.1 inside with inside | inside
        · exact Nat.le_succ_of_le (Nat.le_trans (leftIh inside) (Nat.le_max_left _ _))
        · exact Nat.le_succ_of_le (Nat.le_trans (rightIh inside) (Nat.le_max_right _ _))

def rebase (origin : Nat) : Expression → Expression
  | number value span => number value (span.rebase origin)
  | reference target span => reference target (span.rebase origin)
  | signed sign operand span => signed sign (operand.rebase origin) (span.rebase origin)
  | binary operator left right span =>
    binary operator (left.rebase origin) (right.rebase origin) (span.rebase origin)

variable {tree : Expression} {origin : Nat}

@[simp] theorem span_rebase : (tree.rebase origin).span = tree.span.rebase origin := by
  cases tree <;> rfl

@[simp] theorem height_rebase : (tree.rebase origin).height = tree.height := by
  induction tree with
  | number | reference => rfl
  | signed sign operand span ih => rw [rebase, height, height, ih]
  | binary operator left right span leftIh rightIh => rw [rebase, height, height, leftIh, rightIh]

@[simp] theorem rebase_within {bounds : Span} :
    (tree.within bounds).rebase origin = (tree.rebase origin).within (bounds.rebase origin) := by
  cases tree <;> rfl

end Expression

theorem Span.rebase_cover (left right : Span) (origin : Nat) :
    (left.cover right).rebase origin = (left.rebase origin).cover (right.rebase origin) := by
  simp only [rebase, cover, Span.mk.injEq]
  omega

theorem Derives.rebase {category : Category} {tokens : List Token} {tree : Expression} {nesting : Nat}
    (derived : Derives category tokens tree nesting) (origin : Nat) :
    Derives category (tokens.map (Token.rebase origin)) (tree.rebase origin) nesting := by
  induction derived with
  | sum _ ih => exact .sum ih
  | product _ ih => exact .product ih
  | operand _ ih => exact .operand ih
  | sumMore _ sign _ frontIh nextIh =>
      rw [List.map_append, Expression.rebase, Span.rebase_cover, ← Expression.span_rebase,
        ← Expression.span_rebase]
      exact .sumMore frontIh sign nextIh
  | productMore _ sign _ frontIh nextIh =>
      rw [List.map_append, Expression.rebase, Span.rebase_cover, ← Expression.span_rebase,
        ← Expression.span_rebase]
      exact .productMore frontIh sign nextIh
  | signed marked _ ih =>
      rw [Expression.rebase, Span.rebase_cover, ← Expression.span_rebase]
      exact .signed marked ih
  | number read => exact .number read
  | reference read => exact .reference read
  | parenthesized opened _ closed ih =>
      rw [List.map_append, Expression.rebase_within, Span.rebase_cover]
      exact .parenthesized opened ih closed

def Expression.operands : Expression → List Expression
  | number _ _ | reference _ _ => []
  | signed _ operand _ => [operand]
  | binary _ left right _ => [left, right]

/-- Whether the span of a part of a text is that of a slice of it, which is parsed to this part alone,
and encloses the operands of the part one behind the other. -/
structure Faithful (text : List Char) (part : Expression) : Prop where
  nonempty : part.span.start < part.span.stop
  inside : ∀ operand ∈ part.operands,
    part.span.start ≤ operand.span.start ∧ operand.span.stop ≤ part.span.stop
  apart : part.operands.Pairwise fun first second => first.span.stop ≤ second.span.start
  again : ∃ before slice after, text = before ++ slice ++ after ∧
    part.span = ⟨Text.size before, Text.size (before ++ slice)⟩ ∧
    Expression.parse (String.ofList slice) = .ok (part.rebase part.span.start)

theorem Composed.exists_slice {text : List Char} {front inner back : List Token} {tree part : Expression}
    {nesting depth : Nat} (composed : Composed text (front ++ inner ++ back) tree nesting)
    (found : Derives .sum inner part depth) (shallow : depth ≤ greatestDepth)
    (low : part.height ≤ greatestHeight) :
    ∃ before slice after, text = before ++ slice ++ after ∧
      part.span = ⟨Text.size before, Text.size (before ++ slice)⟩ ∧
      Expression.parse (String.ofList slice) = .ok (part.rebase part.span.start) := by
  obtain ⟨ahead, behind, rfl, leading, _⟩ := composed.tiled.exists_append
  obtain ⟨before, middle, rfl, _, tiled⟩ := leading.exists_append
  obtain ⟨blanks, slice, after, rfl, _, _, tight, ⟨first, starts, start⟩, last, ends, stop⟩ :=
    tiled.exists_between found.ne_nil
  rw [Nat.zero_add, ← Text.size_append] at tight start stop
  have reached := found.reaches tight.inOrder
  obtain ⟨⟨_, leads, begins⟩, _, trails, finishes⟩ := reached
  cases leads.symm.trans starts
  cases trails.symm.trans ends
  have span : part.span = ⟨Text.size (before ++ blanks), Text.size (before ++ blanks ++ slice)⟩ := by
    rw [Text.size_append (before ++ blanks), ← stop, ← start, begins, finishes]
  refine ⟨before ++ blanks, slice, after ++ behind, by simp, span, ?_⟩
  rw [span]
  have alone : Composed slice (inner.map (Token.rebase (Text.size (before ++ blanks))))
      (part.rebase (Text.size (before ++ blanks))) depth :=
    ⟨tight.rebase, found.rebase _, shallow, by rwa [Expression.height_rebase]⟩
  exact alone.parse_eq

theorem Derives.operands_in_order {category : Category} {tokens : List Token} {part : Expression}
    {nesting : Nat} (derived : Derives category tokens part nesting) (order : InOrder tokens) :
    (∀ operand ∈ part.operands,
      part.span.start ≤ operand.span.start ∧ operand.span.stop ≤ part.span.stop) ∧
    part.operands.Pairwise fun first second => first.span.stop ≤ second.span.start := by
  have whole := derived.reaches order
  cases part with
  | number | reference => exact ⟨List.forall_mem_nil _, .nil⟩
  | signed sign operand span =>
      obtain ⟨front, token, inner, back, depth, rfl, _, found, _⟩ := derived.exists_signed
      have reached := found.reaches order.front.back.tail
      exact ⟨List.forall_mem_singleton.2 (whole.encloses reached order fun _ inside => by simp [inside]),
        List.pairwise_singleton _ _⟩
  | binary operator left right span =>
      obtain ⟨front, before, token, after, back, outer, inner, rfl, _, first, _, second, _⟩ :=
        derived.exists_binary
      have between := order.front.back
      have leftReached := first.reaches between.front
      have rightReached := second.reaches between.back.tail
      have both : InOrder (before ++ after) := between.sublist ((List.sublist_cons_self _ _).append_left _)
      refine ⟨List.forall_mem_cons.2 ⟨?_, List.forall_mem_singleton.2 ?_⟩, ?_⟩
      · exact whole.encloses leftReached order fun _ inside => by simp [inside]
      · exact whole.encloses rightReached order fun _ inside => by simp [inside]
      · exact List.pairwise_pair.2 (leftReached.apart rightReached both)

namespace Expression

variable {text : String} {tree : Expression}

/-- The spans of all parts of a parsed text are faithful to it. -/
theorem spans_faithful (parsed : parse text = .ok tree) : ∀ part ∈ tree.parts,
    Faithful text.toList part := by
  intro part inside
  obtain ⟨tokens, nesting, composed⟩ := exists_composed parsed
  obtain ⟨front, inner, back, depth, rfl, found, shallow⟩ := composed.derived.exists_part inside
  have order := composed.tiled.inOrder.front.back
  obtain ⟨enclosed, apart⟩ := found.operands_in_order order
  exact ⟨(found.reaches order).start_lt_stop order, enclosed, apart,
    composed.exists_slice found (Nat.le_trans shallow composed.shallow)
      (Nat.le_trans (height_le_of_mem_parts inside) composed.low)⟩

theorem spans_faithful_parenthesized :
    ∃ tree, parse " 2*( \x7bname:\"é\",id:1\x7d - -3)" = .ok tree ∧
      tree.parts.map span = [⟨1, 27⟩, ⟨1, 2⟩, ⟨3, 27⟩, ⟨5, 21⟩, ⟨24, 26⟩, ⟨25, 26⟩] ∧
      ∀ part ∈ tree.parts, Faithful " 2*( \x7bname:\"é\",id:1\x7d - -3)".toList part := by
  have computed : (parse " 2*( \x7bname:\"é\",id:1\x7d - -3)").toOption.map (·.parts.map span) =
      some [⟨1, 27⟩, ⟨1, 2⟩, ⟨3, 27⟩, ⟨5, 21⟩, ⟨24, 26⟩, ⟨25, 26⟩] := by
    decide +kernel
  obtain ⟨tree, read, spans⟩ := Option.map_eq_some_iff.1 computed
  have parsed := toOption_eq_some.1 read
  exact ⟨tree, parsed, spans, spans_faithful parsed⟩

end Expression

end Formulary
