import Formulary.Proofs.Operation
import Formulary.Proofs.Scan
import Formulary.Recalculation

/-!
The stages of an evaluation: references, tokens, the parser, the look-up of variables, arithmetic. Of
the faults of a text the one that counts is that of the first stage that has any.
-/

namespace Formulary

section Stages

variable {ε : Type} {lookup : Int → Except ε (Option Float)} {fault : ExpressionFault → ε}
  {text : List Char} {segments : List Segment}

def WellReferenced (text : List Char) : Prop :=
  ∀ offset snippet, Candidate text offset snippet → ∃ target, Reference.read snippet = .ok target

def FirstStray (text : List Char) (reason : ArithmeticFault) : Prop :=
  WellReferenced text ∧ ∃ segments, Segmented text segments ∧
    (Segment.gather Segment.stray? 0 segments).head? = some reason

def Tokenized (text : List Char) (tokens : List Token) : Prop :=
  WellReferenced text ∧ ∃ segments, Segmented text segments ∧
    Segment.gather Segment.stray? 0 segments = [] ∧ tokens = Segment.tokens segments

def Parses (text : List Char) (tree : Expression) : Prop :=
  ∃ tokens, Tokenized text tokens ∧ Expression.ofTokens tokens = .ok tree

def Bound (lookup : Int → Except ε (Option Float)) (ids : List Int) : Prop :=
  ∀ id ∈ ids, ∃ value, lookup id = .ok (some value)

/-- What a text comes to, by the stage at which it stops. -/
inductive Staged (lookup : Int → Except ε (Option Float)) (fault : ExpressionFault → ε)
    (text : List Char) : Except ε Float → Prop
  | malformed {offset : Nat} {snippet : List Char} {reason : ReferenceFault}
      (first : FirstMalformed text offset snippet reason) :
      Staged lookup fault text (.error (fault (.malformedReference snippet
        ⟨offset, offset + Text.size snippet⟩ reason)))
  | stray {reason : ArithmeticFault} (first : FirstStray text reason) :
      Staged lookup fault text (.error (fault (.arithmetic reason)))
  | unparsed {tokens : List Token} {reason : ArithmeticFault} (tokenized : Tokenized text tokens)
      (refused : Expression.ofTokens tokens = .error reason) :
      Staged lookup fault text (.error (fault (.arithmetic reason)))
  | missing {tree : Expression} {before after : List Int} {id : Int} (parses : Parses text tree)
      (mentioned : tree.references = before ++ id :: after) (found : Bound lookup before)
      (missing : lookup id = .ok none) : Staged lookup fault text (.error (fault (.unknownVariable id)))
  | failed {tree : Expression} {before after : List Int} {id : Int} {reason : ε}
      (parses : Parses text tree) (mentioned : tree.references = before ++ id :: after)
      (found : Bound lookup before) (fails : lookup id = .error reason) :
      Staged lookup fault text (.error reason)
  | undefined {tree : Expression} {bindings : Bindings} {reason : ArithmeticFault}
      (parses : Parses text tree) (ids : bindings.map (·.1) = tree.references)
      (values : ∀ binding ∈ bindings, lookup binding.1 = .ok (some binding.2))
      (undefined : tree.evaluate bindings = .error (.arithmetic reason)) :
      Staged lookup fault text (.error (fault (.arithmetic reason)))
  | evaluated {tree : Expression} {bindings : Bindings} {value : Float}
      (parses : Parses text tree) (ids : bindings.map (·.1) = tree.references)
      (values : ∀ binding ∈ bindings, lookup binding.1 = .ok (some binding.2))
      (result : tree.evaluate bindings = .ok value) : Staged lookup fault text (.ok value)

theorem ofText_of_firstMalformed {offset : Nat} {snippet : List Char} {reason : ReferenceFault}
    (first : FirstMalformed text offset snippet reason) :
    Token.ofText text =
      .error (.malformedReference snippet ⟨offset, offset + Text.size snippet⟩ reason) := by
  obtain ⟨segments, segmented⟩ := exists_segmented text
  rw [segmented.ofText_eq]
  cases found : Segment.gather Segment.malformed? 0 segments with
  | nil =>
      obtain ⟨target, read⟩ := segmented.malformed_none found first.candidate
      rw [first.malformed] at read
      cases read
  | cons earliest more =>
      obtain ⟨place, other, why, also, rfl⟩ :=
        segmented.malformed_some (congrArg List.head? found)
      obtain ⟨rfl, rfl, rfl⟩ := first.unique also
      rw [Nat.zero_add]
      rfl

theorem WellReferenced.malformed_nil (sound : WellReferenced text)
    (segmented : Segmented text segments) : Segment.gather Segment.malformed? 0 segments = [] := by
  cases found : Segment.gather Segment.malformed? 0 segments with
  | nil => rfl
  | cons fault more =>
      obtain ⟨offset, snippet, reason, first, _⟩ :=
        segmented.malformed_some (congrArg List.head? found)
      obtain ⟨target, read⟩ := sound offset snippet first.candidate
      rw [first.malformed] at read
      cases read

theorem ofText_of_firstStray {reason : ArithmeticFault} (first : FirstStray text reason) :
    Token.ofText text = .error (.arithmetic reason) := by
  obtain ⟨sound, segments, segmented, stray⟩ := first
  rw [segmented.ofText_eq, sound.malformed_nil segmented, stray]
  rfl

theorem ofText_of_tokenized {tokens : List Token} (tokenized : Tokenized text tokens) :
    Token.ofText text = .ok tokens := by
  obtain ⟨sound, segments, segmented, clean, rfl⟩ := tokenized
  rw [segmented.ofText_eq, sound.malformed_nil segmented, clean]
  rfl

theorem lexed (text : List Char) :
    (∃ offset snippet reason, FirstMalformed text offset snippet reason) ∨
      (∃ reason, FirstStray text reason) ∨ ∃ tokens, Tokenized text tokens := by
  obtain ⟨segments, segmented⟩ := exists_segmented text
  cases found : Segment.gather Segment.malformed? 0 segments with
  | cons earliest more =>
      obtain ⟨offset, snippet, reason, first, _⟩ :=
        segmented.malformed_some (congrArg List.head? found)
      exact .inl ⟨offset, snippet, reason, first⟩
  | nil =>
      have sound : WellReferenced text := fun _ _ candidate => segmented.malformed_none found candidate
      cases strays : Segment.gather Segment.stray? 0 segments with
      | cons reason more =>
          exact .inr (.inl ⟨reason, sound, segments, segmented, congrArg List.head? strays⟩)
      | nil => exact .inr (.inr ⟨_, sound, segments, segmented, strays, rfl⟩)

theorem exists_firstMalformed :
    (∃ offset snippet reason, FirstMalformed text offset snippet reason) ↔
      ∃ offset snippet reason, Candidate text offset snippet ∧
        Reference.read snippet = .error reason := by
  constructor
  · rintro ⟨offset, snippet, reason, first⟩
    exact ⟨offset, snippet, reason, first.candidate, first.malformed⟩
  · rintro ⟨offset, snippet, reason, candidate, malformed⟩
    have unsound (sound : WellReferenced text) : False := by
      obtain ⟨target, read⟩ := sound offset snippet candidate
      rw [malformed] at read
      cases read
    rcases lexed text with first | ⟨_, sound, _⟩ | ⟨_, sound, _⟩
    · exact first
    · exact (unsound sound).elim
    · exact (unsound sound).elim

theorem bind_cons {id : Int} {rest : List Int} : Expression.bind lookup fault (id :: rest) =
    (lookup id >>= fun
      | none => .error (fault (.unknownVariable id))
      | some value => (Expression.bind lookup fault rest).map ((id, value) :: ·)) := by
  rw [Expression.bind]
  cases lookup id with
  | error reason => rfl
  | ok found =>
      cases found with
      | none => rfl
      | some value => cases Expression.bind lookup fault rest <;> rfl

theorem bind_eq_ok_iff {ids : List Int} {bindings : Bindings} :
    Expression.bind lookup fault ids = .ok bindings ↔
      bindings.map (·.1) = ids ∧ ∀ binding ∈ bindings, lookup binding.1 = .ok (some binding.2) := by
  induction ids generalizing bindings with
  | nil =>
      rw [List.map_eq_nil_iff]
      constructor
      · rintro ⟨⟩
        exact ⟨rfl, nofun⟩
      · rintro ⟨rfl, _⟩
        rfl
  | cons id rest ih =>
      rw [bind_cons, except_bind_eq_ok]
      constructor
      · rintro ⟨found, looked, later⟩
        cases found with
        | none => cases later
        | some value =>
            cases bound : Expression.bind lookup fault rest with
            | error reason => simp [bound, Except.map] at later
            | ok tail =>
                rw [bound] at later
                cases later
                obtain ⟨ids, values⟩ := ih.1 bound
                refine ⟨congrArg (id :: ·) ids, ?_⟩
                intro binding within
                rcases List.mem_cons.1 within with rfl | within
                · exact looked
                · exact values binding within
      · rintro ⟨ids, values⟩
        cases bindings with
        | nil => cases ids
        | cons first tail =>
            obtain ⟨rfl, rest_ids⟩ := List.cons.inj ids
            refine ⟨some first.2, values first List.mem_cons_self, ?_⟩
            have bound := ih.2 ⟨rest_ids,
              fun binding within => values binding (List.mem_cons_of_mem _ within)⟩
            dsimp only
            rw [bound]
            rfl

theorem bind_eq_error_iff {ids : List Int} {reason : ε} :
    Expression.bind lookup fault ids = .error reason ↔
      ∃ before id after, ids = before ++ id :: after ∧ Bound lookup before ∧
        (lookup id = .error reason ∨ lookup id = .ok none ∧ reason = fault (.unknownVariable id)) := by
  induction ids with
  | nil =>
      constructor
      · rintro ⟨⟩
      · rintro ⟨before, id, after, empty, _⟩
        simp at empty
  | cons id rest ih =>
      rw [bind_cons, except_bind_eq_error]
      constructor
      · rintro (failed | ⟨found, looked, later⟩)
        · exact ⟨[], id, rest, rfl, nofun, .inl failed⟩
        · cases found with
          | none =>
              cases later
              exact ⟨[], id, rest, rfl, nofun, .inr ⟨looked, rfl⟩⟩
          | some value =>
              cases bound : Expression.bind lookup fault rest with
              | ok tail => simp [bound, Except.map] at later
              | error first =>
                  rw [bound] at later
                  cases later
                  obtain ⟨before, other, after, rfl, found, fails⟩ := ih.1 bound
                  refine ⟨id :: before, other, after, rfl, ?_, fails⟩
                  intro earlier within
                  rcases List.mem_cons.1 within with rfl | within
                  · exact ⟨value, looked⟩
                  · exact found earlier within
      · rintro ⟨before, other, after, same, found, fails⟩
        cases before with
        | nil =>
            obtain ⟨rfl, rfl⟩ := List.cons.inj same
            rcases fails with failed | ⟨missing, rfl⟩
            · exact .inl failed
            · exact .inr ⟨none, missing, rfl⟩
        | cons first before =>
            obtain ⟨rfl, rfl⟩ := List.cons.inj same
            obtain ⟨value, looked⟩ := found id List.mem_cons_self
            have failed := ih.2 ⟨before, other, after, rfl,
              fun earlier within => found earlier (List.mem_cons_of_mem _ within), fails⟩
            refine .inr ⟨some value, looked, ?_⟩
            dsimp only
            rw [failed]
            rfl

theorem lookup_of_ids {tree : Expression} {bindings : Bindings}
    (ids : bindings.map (·.1) = tree.references) {id : Int} (mentioned : id ∈ tree.mentions) :
    ∃ value, bindings.lookup id = some value := by
  have listed : id ∈ bindings.map (·.1) := by
    rw [ids]
    exact List.mem_eraseDups.2 mentioned
  obtain ⟨binding, within, same⟩ := List.mem_map.1 listed
  unfold Bindings.lookup
  generalize searched : bindings.find? _ = found
  cases found with
  | some first => exact ⟨first.2, rfl⟩
  | none =>
      have other := List.find?_eq_none.1 searched binding within
      simp [same] at other

theorem evaluate_error_of_bound {tree : Expression} {bindings : Bindings}
    {reason : ExpressionFault}
    (bound : ∀ id ∈ tree.mentions, ∃ value, bindings.lookup id = some value)
    (failed : tree.evaluate bindings = .error reason) : ∃ undefined, reason = .arithmetic undefined := by
  induction tree generalizing reason with
  | number value span => cases failed
  | reference target span =>
      obtain ⟨value, found⟩ := bound target.id List.mem_cons_self
      rw [Expression.evaluate, found] at failed
      cases failed
  | signed sign operand span ih =>
      rcases except_bind_eq_error.1 failed with failed | ⟨value, _, impossible⟩
      · exact ih bound failed
      · cases impossible
  | binary operator left right span leftIh rightIh =>
      rcases except_bind_eq_error.1 failed with failed | ⟨x, _, later⟩
      · exact leftIh (fun id within => bound id (List.mem_append_left _ within)) failed
      · rcases except_bind_eq_error.1 later with failed | ⟨y, _, applied⟩
        · exact rightIh (fun id within => bound id (List.mem_append_right _ within)) failed
        · cases result : operator.apply? x y with
          | none =>
              rw [result] at applied
              cases applied
              exact ⟨_, rfl⟩
          | some value =>
              rw [result] at applied
              cases finite : value.isFinite with
              | true =>
                  simp only [finite] at applied
                  cases applied
              | false =>
                  simp only [finite] at applied
                  cases applied
                  exact ⟨_, rfl⟩

theorem parse_of_parses {text : String} {tree : Expression} (parses : Parses text.toList tree) :
    Expression.parse text = .ok tree := by
  obtain ⟨tokens, tokenized, parsed⟩ := parses
  unfold Expression.parse
  rw [ofText_of_tokenized tokenized]
  dsimp only
  rw [parsed]

theorem evaluateText_of_parse {text : String} {tree : Expression}
    (parsed : Expression.parse text = .ok tree) :
    Expression.evaluateText lookup fault text =
      (Expression.bind lookup fault tree.references >>= fun bindings =>
        (tree.evaluate bindings).mapError fault) := by
  unfold Expression.evaluateText Expression.evaluateWith
  rw [parsed]
  dsimp only [mapError_ok, bind, Except.bind]
  cases Expression.bind lookup fault tree.references with
  | error reason => rfl
  | ok bindings => 
      dsimp only
      cases tree.evaluate bindings <;> rfl

theorem evaluateText_of_parse_error {text : String} {reason : ExpressionFault}
    (failed : Expression.parse text = .error reason) :
    Expression.evaluateText lookup fault text = .error (fault reason) := by
  unfold Expression.evaluateText
  rw [failed]
  rfl

theorem parse_of_ofText_error {text : String} {reason : ExpressionFault}
    (failed : Token.ofText text.toList = .error reason) :
    Expression.parse text = .error reason := by
  unfold Expression.parse
  rw [failed]

theorem parse_of_refused {text : String} {tokens : List Token} {reason : ArithmeticFault}
    (tokenized : Tokenized text.toList tokens) (refused : Expression.ofTokens tokens = .error reason) :
    Expression.parse text = .error (.arithmetic reason) := by
  unfold Expression.parse
  rw [ofText_of_tokenized tokenized]
  dsimp only
  rw [refused]

theorem Staged.evaluateText_eq {text : String} {outcome : Except ε Float}
    (staged : Staged lookup fault text.toList outcome) :
    Expression.evaluateText lookup fault text = outcome := by
  cases staged with
  | malformed first =>
      exact evaluateText_of_parse_error (parse_of_ofText_error (ofText_of_firstMalformed first))
  | stray first =>
      exact evaluateText_of_parse_error (parse_of_ofText_error (ofText_of_firstStray first))
  | unparsed tokenized refused =>
      exact evaluateText_of_parse_error (parse_of_refused tokenized refused)
  | @missing tree before after id parses mentioned found missing =>
      rw [evaluateText_of_parse (parse_of_parses parses),
        bind_eq_error_iff.2 ⟨before, id, after, mentioned, found, .inr ⟨missing, rfl⟩⟩]
      rfl
  | @failed tree before after id reason parses mentioned found fails =>
      rw [evaluateText_of_parse (parse_of_parses parses),
        bind_eq_error_iff.2 ⟨before, id, after, mentioned, found, .inl fails⟩]
      rfl
  | undefined parses ids values undefined =>
      rw [evaluateText_of_parse (parse_of_parses parses), bind_eq_ok_iff.2 ⟨ids, values⟩]
      dsimp only [bind, Except.bind]
      rw [undefined]
      rfl
  | evaluated parses ids values result =>
      rw [evaluateText_of_parse (parse_of_parses parses), bind_eq_ok_iff.2 ⟨ids, values⟩]
      dsimp only [bind, Except.bind]
      rw [result]
      rfl

theorem exists_staged (lookup : Int → Except ε (Option Float)) (fault : ExpressionFault → ε)
    (text : List Char) : ∃ outcome, Staged lookup fault text outcome := by
  rcases lexed text with ⟨_, _, _, first⟩ | ⟨_, first⟩ | ⟨tokens, tokenized⟩
  · exact ⟨_, .malformed first⟩
  · exact ⟨_, .stray first⟩
  · cases parsed : Expression.ofTokens tokens with
    | error reason => exact ⟨_, .unparsed tokenized parsed⟩
    | ok tree =>
        have parses : Parses text tree := ⟨tokens, tokenized, parsed⟩
        cases bound : Expression.bind lookup fault tree.references with
        | error reason =>
            obtain ⟨before, id, after, mentioned, found, fails | ⟨missing, _⟩⟩ :=
              bind_eq_error_iff.1 bound
            · exact ⟨_, .failed parses mentioned found fails⟩
            · exact ⟨_, .missing parses mentioned found missing⟩
        | ok bindings =>
            obtain ⟨ids, values⟩ := bind_eq_ok_iff.1 bound
            cases result : tree.evaluate bindings with
            | ok value => exact ⟨_, .evaluated parses ids values result⟩
            | error reason =>
                obtain ⟨undefined, rfl⟩ :=
                  evaluate_error_of_bound (fun _ => lookup_of_ids ids) result
                exact ⟨_, .undefined parses ids values result⟩

theorem Staged.transfer {δ : Type} {outcome : Except ε Float}
    (staged : Staged lookup fault text outcome) (other : Int → Except δ (Option Float))
    (otherFault : ExpressionFault → δ)
    (same : ∀ id found, lookup id = .ok found → other id = .ok found) :
    (∃ id reason, lookup id = .error reason ∧ outcome = .error reason) ∨
      ∃ result : Except ExpressionFault Float, outcome = result.mapError fault ∧
        Staged other otherFault text (result.mapError otherFault) := by
  have values {bindings : Bindings}
      (found : ∀ binding ∈ bindings, lookup binding.1 = .ok (some binding.2)) :
      ∀ binding ∈ bindings, other binding.1 = .ok (some binding.2) :=
    fun binding within => same _ _ (found binding within)
  cases staged with
  | malformed first => exact .inr ⟨.error _, rfl, .malformed first⟩
  | stray first => exact .inr ⟨.error _, rfl, .stray first⟩
  | unparsed tokenized refused => exact .inr ⟨.error _, rfl, .unparsed tokenized refused⟩
  | @missing tree before after id parses mentioned found missing =>
      have bound : Bound other before := by
        intro earlier within
        obtain ⟨value, looked⟩ := found earlier within
        exact ⟨value, same _ _ looked⟩
      exact .inr ⟨.error _, rfl, .missing parses mentioned bound (same _ _ missing)⟩
  | failed _ _ _ fails => exact .inl ⟨_, _, fails, rfl⟩
  | undefined parses ids found undefined =>
      exact .inr ⟨.error _, rfl, .undefined parses ids (values found) undefined⟩
  | evaluated parses ids found result =>
      exact .inr ⟨.ok _, rfl, .evaluated parses ids (values found) result⟩

end Stages

/-- An evaluation answers as the first stage that stops it; and it reports a reference only for a
candidate that is malformed, unless a look-up does so. -/
theorem Expression.evaluateText_staged {ε : Type} (lookup : Int → Except ε (Option Float))
    (fault : ExpressionFault → ε) (text : String) :
    (∀ outcome, Expression.evaluateText lookup fault text = outcome ↔
      Staged lookup fault text.toList outcome) ∧
    ((∃ offset snippet reason, FirstMalformed text.toList offset snippet reason) ↔
      ∃ offset snippet reason, Candidate text.toList offset snippet ∧
        Reference.read snippet = .error reason) ∧
    (Function.Injective fault →
      (∀ id snippet span reason,
        lookup id ≠ .error (fault (.malformedReference snippet span reason))) →
      ((∃ snippet span reason, Expression.evaluateText lookup fault text =
          .error (fault (.malformedReference snippet span reason))) ↔
        ∃ offset snippet reason, Candidate text.toList offset snippet ∧
          Reference.read snippet = .error reason)) := by
  have exact_stage (outcome : Except ε Float) :
      Expression.evaluateText lookup fault text = outcome ↔
        Staged lookup fault text.toList outcome := by
    constructor
    · rintro rfl
      obtain ⟨outcome, staged⟩ := exists_staged lookup fault text.toList
      rwa [staged.evaluateText_eq]
    · exact Staged.evaluateText_eq
  refine ⟨exact_stage, exists_firstMalformed, ?_⟩
  intro distinct clean
  rw [← exists_firstMalformed]
  constructor
  · rintro ⟨snippet, span, reason, reported⟩
    have staged := (exact_stage _).1 reported
    generalize same : (Except.error (fault (.malformedReference snippet span reason)) :
      Except ε Float) = outcome at staged
    cases staged with
    | malformed first => exact ⟨_, _, _, first⟩
    | stray | unparsed | missing | undefined => cases distinct (Except.error.inj same)
    | @failed _ _ _ id _ _ _ _ fails =>
        rw [← Except.error.inj same] at fails
        exact absurd fails (clean id snippet span reason)
    | evaluated => cases same
  · rintro ⟨offset, snippet, reason, first⟩
    exact ⟨snippet, _, reason, (exact_stage _).2 (.malformed first)⟩

theorem Expression.evaluateText_staged_unpaired :
    Function.Injective (id : ExpressionFault → ExpressionFault) ∧
      (∀ (_ : Int) (snippet : List Char) (span : Span) (reason : ReferenceFault),
        (.ok none : Except ExpressionFault (Option Float)) ≠
          .error (.malformedReference snippet span reason)) ∧
      ((∃ snippet span reason,
          Expression.evaluateText (fun _ => .ok none) id "1 $ \x7bid: \x7d + (" =
            .error (.malformedReference snippet span reason)) ↔
        ∃ offset snippet reason, Candidate "1 $ \x7bid: \x7d + (".toList offset snippet ∧
          Reference.read snippet = .error reason) :=
  ⟨Function.injective_id, nofun,
    (Expression.evaluateText_staged (fun _ => .ok none) id "1 $ \x7bid: \x7d + (").2.2
      Function.injective_id nofun⟩

def hollow : Database :=
  { Database.blank with
    version := Database.latestVersion
    vars := some ((Table.empty [⟨"id", true⟩, ⟨"name", true⟩, ⟨"value", false⟩]).put
      ⟨1, "nil", none⟩) }

/-- A look-up that fails for a reason of its own is reported at its turn, before a later variable
that is missing. -/
theorem Expression.evaluateText_hollow :
    let lookup := fun id => (hollow.variableValue id).mapError Recalculation.Fault.store
    ∃ tree reason, Expression.parse "\x7bid:1\x7d + \x7bid:2\x7d" = .ok tree ∧
      tree.references = [1, 2] ∧ lookup 1 = .error (.store reason) ∧ lookup 2 = .ok none ∧
      Expression.evaluateText lookup Recalculation.Fault.expression
        "\x7bid:1\x7d + \x7bid:2\x7d" = .error (.store reason) ∧
      Expression.evaluateText lookup Recalculation.Fault.expression
        "\x7bid:1\x7d + \x7bid:2\x7d" ≠ .error (.expression (.unknownVariable 2)) := by
  intro lookup
  have computed : (Expression.parse "\x7bid:1\x7d + \x7bid:2\x7d").toOption.map
      Expression.references = some [1, 2] := by
    decide +kernel
  cases parsed : Expression.parse "\x7bid:1\x7d + \x7bid:2\x7d" with
  | error fault => simp [parsed, Except.toOption] at computed
  | ok tree =>
      have references : tree.references = [1, 2] := by
        rw [parsed] at computed
        exact Option.some.inj computed
      obtain ⟨reason, fails⟩ : ∃ reason, lookup 1 = .error (.store reason) := ⟨_, rfl⟩
      have answer : Expression.evaluateText lookup Recalculation.Fault.expression
          "\x7bid:1\x7d + \x7bid:2\x7d" = .error (.store reason) := by
        rw [evaluateText_of_parse parsed, references, bind_cons, fails]
        rfl
      refine ⟨tree, reason, rfl, references, fails, rfl, answer, ?_⟩
      rw [answer]
      intro same
      cases same

end Formulary
