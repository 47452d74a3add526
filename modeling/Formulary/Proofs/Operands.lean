import Formulary.Proofs.Spans
import Mathlib.Data.List.Induction

/-!
The operands of a parsed text. The leaves of the tree are the numbers and the references of the text,
each of them and in their order, whatever the operators do to group them; and the references of the
tree are those of the text, each at its first place.
-/

namespace Formulary

def Symbol.isOperand : Symbol → Bool
  | number _ | reference _ => true
  | _ => false

def Symbol.mention? : Symbol → Option Int
  | reference target => some target.id
  | _ => none

structure Token.Encloses (outer inner : Token) : Prop where
  symbol : outer.symbol = inner.symbol
  start : outer.span.start ≤ inner.span.start
  stop : inner.span.stop ≤ outer.span.stop

theorem Symbol.Means.not_operand {symbol : Symbol} {operator : Operator}
    (means : symbol.Means operator) : symbol.isOperand = false := by
  rcases means with sum | product
  · cases symbol <;> cases sum <;> rfl
  · cases symbol <;> cases product <;> rfl

theorem Symbol.not_operand_of_sign {symbol : Symbol} {sign : Sign} (marked : symbol.sign? = some sign) :
    symbol.isOperand = false := by
  cases symbol <;> cases marked <;> rfl

theorem Token.Encloses.refl (token : Token) : token.Encloses token :=
  ⟨rfl, Nat.le_refl _, Nat.le_refl _⟩

namespace Expression

def leaves : Expression → List Token
  | number value span => [⟨.number value, span⟩]
  | reference target span => [⟨.reference target, span⟩]
  | signed _ operand _ => operand.leaves
  | binary _ left right _ => left.leaves ++ right.leaves

theorem mentions_eq_leaves (tree : Expression) :
    tree.mentions = tree.leaves.filterMap (·.symbol.mention?) := by
  induction tree with
  | number | reference => rfl
  | signed sign operand span ih => exact ih
  | binary operator left right span leftIh rightIh =>
      rw [mentions, leaves, List.filterMap_append, leftIh, rightIh]

theorem enclosing_within {tree : Expression} {bounds : Span} {tokens : List Token}
    (enclosing : List.Forall₂ Token.Encloses tree.leaves tokens)
    (start : bounds.start ≤ tree.span.start) (stop : tree.span.stop ≤ bounds.stop) :
    List.Forall₂ Token.Encloses (tree.within bounds).leaves tokens := by
  cases tree with
  | number value span | reference target span =>
      cases enclosing with
      | cons encloses none =>
          exact .cons ⟨encloses.symbol, start.trans encloses.start, encloses.stop.trans stop⟩ none
  | signed | binary => exact enclosing

end Expression

theorem Derives.enclosing {category : Category} {tokens : List Token} {tree : Expression} {nesting : Nat}
    (derived : Derives category tokens tree nesting) (order : InOrder tokens) :
    List.Forall₂ Token.Encloses tree.leaves (tokens.filter (·.symbol.isOperand)) := by
  induction derived with
  | sum _ ih | product _ ih | operand _ ih => exact ih order
  | @sumMore before after _ _ _ _ token _ _ sign _ frontIh nextIh =>
      rw [List.filter_append, List.filter_cons_of_neg (by simp [Symbol.Means.not_operand (.inl sign)])]
      exact List.rel_append (frontIh order.front) (nextIh order.back.tail)
  | @productMore before after _ _ _ _ token _ _ sign _ frontIh nextIh =>
      rw [List.filter_append, List.filter_cons_of_neg (by simp [Symbol.Means.not_operand (.inr sign)])]
      exact List.rel_append (frontIh order.front) (nextIh order.back.tail)
  | @signed tokens _ _ token _ marked _ ih =>
      rw [List.filter_cons_of_neg (by simp [Symbol.not_operand_of_sign marked])]
      exact ih order.tail
  | number read | reference read =>
      rw [List.filter_singleton, read]
      exact .cons ⟨read.symm, Nat.le_refl _, Nat.le_refl _⟩ .nil
  | @parenthesized tokens tree _ opening closing opened inside closed ih =>
      have kept : (opening :: tokens ++ [closing]).filter (·.symbol.isOperand) =
          tokens.filter (·.symbol.isOperand) := by
        simp [opened, closed, Symbol.isOperand]
      rw [kept]
      have whole := (Derives.parenthesized opened inside closed).reaches order
      rw [Expression.span_within] at whole
      have inner := inside.reaches order.front.tail
      obtain ⟨start, stop⟩ := whole.encloses inner order fun _ within => by simp [within]
      exact Expression.enclosing_within (ih order.front.tail) start stop

/-- Whether a list is another one without what stands in it again. -/
inductive Thinned : List Int → List Int → Prop
  | nil : Thinned [] []
  | first {all kept : List Int} {id : Int} (thinned : Thinned all kept) (new : id ∉ all) :
      Thinned (all ++ [id]) (kept ++ [id])
  | again {all kept : List Int} {id : Int} (thinned : Thinned all kept) (old : id ∈ all) :
      Thinned (all ++ [id]) kept

theorem thinned_eraseDups (all : List Int) : Thinned all all.eraseDups := by
  induction all using List.reverseRecOn with
  | nil => exact .nil
  | append_singleton all id ih =>
      rw [List.eraseDups_append]
      by_cases old : id ∈ all
      · simpa [List.removeAll, old] using ih.again old
      · simpa [List.removeAll, old, List.eraseDups_cons] using ih.first old

theorem Symbol.ofChar?_ne_reference {c : Char} {symbol : Symbol} {target : Reference}
    (known : ofChar? c = some symbol) : symbol ≠ .reference target := by
  unfold ofChar? at known
  split at known <;> cases known <;> exact nofun

theorem Segment.reference_iff {segment : Segment} {offset : Nat} {token : Token} {target : Reference}
    (read : segment.token? offset = some token) : token.symbol = .reference target ↔
      (∃ inside, segment = .braced inside) ∧ Reference.read segment.text = .ok target := by
  obtain ⟨symbol, found, rfl⟩ := token?_eq_some_iff.1 read
  unfold lexeme? at found
  cases segment with
  | blank c => cases found
  | braced inside =>
      cases known : Reference.read (braced inside).text with
      | error reason =>
          simp only [known, Option.some.injEq] at found
          cases found
      | ok other =>
          simp only [known, Option.some.injEq, Lexeme.token.injEq] at found
          simp [← found]
  | literal number =>
      rcases Lexeme.ofLiteral_cases offset number with ⟨value, number⟩ | stray
      · simp only [number, Option.some.injEq, Lexeme.token.injEq] at found
        simp [← found]
      · simp only [stray, Option.some.injEq] at found
        cases found
  | single c =>
      cases known : Symbol.ofChar? c with
      | none =>
          simp only [known, Option.some.injEq] at found
          cases found
      | some other =>
          simp only [known, Option.some.injEq, Lexeme.token.injEq] at found
          subst found
          simp [Symbol.ofChar?_ne_reference known]

theorem Tiled.references_iff {offset : Nat} {text : List Char} {tokens : List Token} {target : Reference}
    (tiled : Tiled offset text tokens) : (∃ token ∈ tokens, token.symbol = .reference target) ↔
      ∃ place snippet, Candidate text place snippet ∧ Reference.read snippet = .ok target := by
  induction tiled with
  | nil =>
      constructor
      · rintro ⟨_, ⟨⟩, _⟩
      · rintro ⟨_, _, ⟨before, inside, after, empty, _, rfl, _⟩, _⟩
        simp at empty
  | @blank offset c rest tokens white later ih =>
      rw [ih]
      constructor
      · rintro ⟨place, snippet, candidate, read⟩
        exact ⟨_, snippet, candidate.behind [c], read⟩
      · rintro ⟨place, snippet, candidate, read⟩
        have stands : (Segment.blank c).Stands rest := .blank white
        rcases Candidate.at_or_behind stands candidate with ⟨_, ⟨⟩, _⟩ | ⟨later, _, behind⟩
        exact ⟨later, snippet, behind, read⟩
  | @token offset segment rest token tokens stands known later ih =>
      rw [List.exists_mem_cons_iff, ih, Segment.reference_iff known]
      constructor
      · rintro (⟨⟨inside, rfl⟩, read⟩ | ⟨place, snippet, candidate, read⟩)
        · cases stands with
          | braced bare => exact ⟨0, _, candidate_braced bare rest, read⟩
        · exact ⟨_, snippet, candidate.behind segment.text, read⟩
      · rintro ⟨place, snippet, candidate, read⟩
        rcases candidate.at_or_behind stands with ⟨inside, braced, _, rfl⟩ | ⟨later, _, behind⟩
        · exact .inl ⟨⟨inside, braced⟩, read⟩
        · exact .inr ⟨later, snippet, behind, read⟩

namespace Expression

variable {text : String} {tree : Expression}

theorem mentions_of_enclosing {leaves tokens : List Token}
    (enclosing : List.Forall₂ Token.Encloses leaves tokens) :
    leaves.filterMap (·.symbol.mention?) = tokens.filterMap (·.symbol.mention?) := by
  induction enclosing with
  | nil => rfl
  | cons encloses _ ih => simp only [List.filterMap_cons, encloses.symbol, ih]

theorem filterMap_operands (tokens : List Token) :
    (tokens.filter (·.symbol.isOperand)).filterMap (·.symbol.mention?) =
      tokens.filterMap (·.symbol.mention?) := by
  rw [List.filterMap_filter]
  refine List.filterMap_congr fun token _ => ?_
  cases token.symbol <;> rfl

theorem mem_mentions_iff {tokens : List Token} {id : Int} :
    id ∈ tokens.filterMap (·.symbol.mention?) ↔
      ∃ target : Reference, (∃ token ∈ tokens, token.symbol = .reference target) ∧ target.id = id := by
  rw [List.mem_filterMap]
  constructor
  · rintro ⟨token, inside, mention⟩
    cases symbol : token.symbol with
    | reference target =>
        rw [symbol] at mention
        exact ⟨target, ⟨token, inside, symbol⟩, Option.some.inj mention⟩
    | _ =>
        rw [symbol] at mention
        cases mention
  · rintro ⟨target, ⟨token, inside, symbol⟩, rfl⟩
    exact ⟨token, inside, by rw [symbol]; rfl⟩

/-- The leaves of a parsed text are its numbers and references, one by one and in their order; its
references are those of the text without their repetitions, so that they are what the braces of the
text are read as. -/
theorem operands_kept (parsed : parse text = .ok tree) :
    ∃ tokens, Token.ofText text.toList = .ok tokens ∧
      List.Forall₂ Token.Encloses tree.leaves (tokens.filter (·.symbol.isOperand)) ∧
      Thinned (tokens.filterMap (·.symbol.mention?)) tree.references ∧
      ∀ id, id ∈ tree.references ↔ ∃ offset snippet target, Candidate text.toList offset snippet ∧
        Reference.read snippet = .ok target ∧ target.id = id := by
  obtain ⟨tokens, nesting, composed⟩ := exists_composed parsed
  have enclosing := composed.derived.enclosing composed.tiled.inOrder
  have mentions : tree.mentions = tokens.filterMap (·.symbol.mention?) := by
    rw [mentions_eq_leaves, mentions_of_enclosing enclosing, filterMap_operands]
  refine ⟨_, ofText_eq_ok_iff.2 ⟨tokens, composed.tiled, rfl⟩, ?_, ?_, ?_⟩
  · simpa [Symbol.isOperand] using enclosing
  · have same := thinned_eraseDups tree.mentions
    simpa [mentions, references, Symbol.mention?] using same
  · intro id
    rw [references, List.mem_eraseDups, mentions, mem_mentions_iff]
    simp only [composed.tiled.references_iff]
    constructor
    · rintro ⟨target, ⟨offset, snippet, candidate, read⟩, same⟩
      exact ⟨offset, snippet, target, candidate, read, same⟩
    · rintro ⟨offset, snippet, target, candidate, read, same⟩
      exact ⟨target, ⟨offset, snippet, candidate, read⟩, same⟩

theorem operands_kept_repeated :
    ∃ tree, parse "\x7bid:2\x7d*(3) - \x7bid:1\x7d/\x7bid:2\x7d" = .ok tree ∧
      tree.references = [2, 1] ∧
      ∃ tokens, Token.ofText "\x7bid:2\x7d*(3) - \x7bid:1\x7d/\x7bid:2\x7d".toList = .ok tokens ∧
        List.Forall₂ Token.Encloses tree.leaves (tokens.filter (·.symbol.isOperand)) ∧
        Thinned (tokens.filterMap (·.symbol.mention?)) tree.references ∧
        ∀ id, id ∈ tree.references ↔ ∃ offset snippet target,
          Candidate "\x7bid:2\x7d*(3) - \x7bid:1\x7d/\x7bid:2\x7d".toList offset snippet ∧
            Reference.read snippet = .ok target ∧ target.id = id := by
  have computed : (parse "\x7bid:2\x7d*(3) - \x7bid:1\x7d/\x7bid:2\x7d").toOption.map references =
      some [2, 1] := by
    decide +kernel
  obtain ⟨tree, read, found⟩ := Option.map_eq_some_iff.1 computed
  have parsed := toOption_eq_some.1 read
  exact ⟨tree, parsed, found, operands_kept parsed⟩

end Expression

end Formulary
