import Formulary.Proofs.Grammar

/-!
Texts that are made of tokens and blanks. A text is scanned without a fault exactly if it is, and then
to these tokens. What lies between two tokens of it can be taken out of the text: it is made of the
tokens that it holds, which differ from those of the whole only by where they stand.
-/

namespace Formulary

theorem takeWhile_of_append {α : Type} {keep : α → Bool} {front back : List α}
    (fits : ((front ++ back).takeWhile keep).length ≤ front.length) :
    front.takeWhile keep = (front ++ back).takeWhile keep ∧
      (front ++ back).dropWhile keep = front.dropWhile keep ++ back := by
  induction front with
  | nil =>
      have none : back.takeWhile keep = [] := List.eq_nil_of_length_eq_zero (Nat.le_zero.1 fits)
      have all := List.takeWhile_append_dropWhile (p := keep) (l := back)
      rw [none, List.nil_append] at all
      exact ⟨none.symm, all⟩
  | cons first rest ih =>
      cases kept : keep first with
      | false => simp [kept]
      | true =>
          rw [List.cons_append, List.takeWhile_cons_of_pos kept] at fits
          obtain ⟨same, behind⟩ := ih (Nat.le_of_succ_le_succ fits)
          rw [List.cons_append, List.takeWhile_cons_of_pos kept, List.takeWhile_cons_of_pos kept,
            List.dropWhile_cons_of_pos kept, List.dropWhile_cons_of_pos kept, same]
          exact ⟨rfl, behind⟩

namespace Decimal

def Exponent.ofDigits? (mark : Char) (sign : Option Char) (rest : List Char) : Option Exponent :=
  match rest.takeWhile isDigit with
  | [] => none
  | digits => some ⟨mark, sign, digits⟩

def Exponent.written (exponent : Option Exponent) : List Char :=
  exponent.elim [] text

theorem Exponent.scan_cons (mark : Char) (rest : List Char) : scan (mark :: rest) =
    if mark = 'e' ∨ mark = 'E' then
      match rest with
      | c :: more => if c = '+' ∨ c = '-' then ofDigits? mark (some c) more else ofDigits? mark none rest
      | [] => none
    else none := by
  by_cases marked : mark = 'e' ∨ mark = 'E'
  · unfold scan
    dsimp only
    rw [if_pos marked, if_pos marked]
    cases rest with
    | nil => rfl
    | cons c more =>
        dsimp only
        by_cases signed : c = '+' ∨ c = '-'
        · rw [if_pos signed, if_pos signed]
          rfl
        · rw [if_neg signed, if_neg signed]
          rfl
  · unfold scan
    dsimp only
    rw [if_neg marked, if_neg marked]

theorem Exponent.length_ofDigits? (mark : Char) (sign : Option Char) (rest : List Char) :
    ofDigits? mark sign rest = none ∧ rest.takeWhile isDigit = [] ∨
      0 < (rest.takeWhile isDigit).length ∧ (written (ofDigits? mark sign rest)).length =
        1 + sign.toList.length + (rest.takeWhile isDigit).length := by
  unfold ofDigits?
  cases rest.takeWhile isDigit with
  | nil => exact .inl ⟨rfl, rfl⟩
  | cons digit more =>
      refine .inr ⟨Nat.succ_pos _, ?_⟩
      simp only [written, Option.elim_some, text, List.length_append, List.length_cons]
      omega

theorem Exponent.ofDigits?_of_fits {mark : Char} {sign : Option Char} {front back : List Char}
    (fits : (written (ofDigits? mark sign (front ++ back))).length ≤
      1 + sign.toList.length + front.length) :
    ofDigits? mark sign front = ofDigits? mark sign (front ++ back) := by
  have short : ((front ++ back).takeWhile isDigit).length ≤ front.length := by
    rcases length_ofDigits? mark sign (front ++ back) with ⟨_, none⟩ | ⟨_, length⟩
    · rw [none]
      exact Nat.zero_le _
    · omega
  unfold ofDigits?
  rw [(takeWhile_of_append short).1]

theorem Exponent.scan_of_fits {front back : List Char}
    (fits : (written (scan (front ++ back))).length ≤ front.length) :
    scan front = scan (front ++ back) := by
  cases front with
  | nil =>
      cases found : scan ([] ++ back) with
      | none => rfl
      | some exponent =>
          rw [found] at fits
          cases fits
  | cons mark rest =>
      rw [List.cons_append, scan_cons] at fits ⊢
      rw [scan_cons]
      by_cases marked : mark = 'e' ∨ mark = 'E'
      · rw [if_pos marked] at fits ⊢
        rw [if_pos marked]
        cases rest with
        | nil =>
            cases back with
            | nil => rfl
            | cons c more =>
                dsimp only [List.nil_append] at fits ⊢
                by_cases signed : c = '+' ∨ c = '-'
                · rw [if_pos signed] at fits ⊢
                  rcases length_ofDigits? mark (some c) more with ⟨none, _⟩ | ⟨_, length⟩
                  · exact none.symm
                  · rw [length] at fits
                    simp only [Option.toList_some, List.length_singleton] at fits
                    omega
                · rw [if_neg signed] at fits ⊢
                  exact @ofDigits?_of_fits mark none [] (c :: more) fits
        | cons c more =>
            dsimp only [List.cons_append] at fits ⊢
            by_cases signed : c = '+' ∨ c = '-'
            · rw [if_pos signed] at fits ⊢
              rw [if_pos signed]
              refine ofDigits?_of_fits ?_
              simpa [Nat.add_comm, Nat.add_left_comm] using fits
            · rw [if_neg signed] at fits ⊢
              rw [if_neg signed]
              refine @ofDigits?_of_fits mark none (c :: more) back ?_
              simpa [Nat.add_comm, Nat.add_left_comm] using fits
      · rw [if_neg marked, if_neg marked]

def Literal.behind (whole rest : List Char) : Literal :=
  match rest with
  | '.' :: more => ⟨whole, some (more.takeWhile isDigit), Exponent.scan (more.dropWhile isDigit)⟩
  | rest => ⟨whole, none, Exponent.scan rest⟩

theorem Literal.behind_of_pointless {rest : List Char} (pointless : rest.head? ≠ some '.')
    (whole : List Char) : behind whole rest = ⟨whole, none, Exponent.scan rest⟩ := by
  unfold behind
  split
  · exact absurd rfl pointless
  · rfl

theorem Literal.scan_eq (text : List Char) :
    scan text = behind (text.takeWhile isDigit) (text.dropWhile isDigit) :=
  rfl

theorem Literal.behind_of_fits {whole front back : List Char}
    (fits : (behind whole (front ++ back)).text.length ≤ whole.length + front.length) :
    behind whole front = behind whole (front ++ back) := by
  by_cases pointless : (front ++ back).head? = some '.'
  · cases front with
    | nil =>
        obtain ⟨more, rfl⟩ := List.head?_eq_some_iff.1 pointless
        simp only [List.nil_append, behind, text, List.length_append, Option.elim_some, List.length_cons,
          List.length_nil] at fits
        omega
    | cons c more =>
        cases pointless
        have short : ((more ++ back).takeWhile isDigit).length ≤ more.length := by
          simp only [List.cons_append, behind, text, List.length_append, Option.elim_some,
            List.length_cons] at fits
          omega
        obtain ⟨same, left⟩ := takeWhile_of_append short
        have digits := congrArg List.length (List.takeWhile_append_dropWhile (p := isDigit) (l := more))
        rw [List.length_append] at digits
        simp only [List.cons_append, behind, text, List.length_append, Option.elim_some,
          List.length_cons, left, ← same] at fits
        have room : (Exponent.written (Exponent.scan (more.dropWhile isDigit ++ back))).length ≤
            (more.dropWhile isDigit).length := by
          unfold Exponent.written
          omega
        simp only [List.cons_append, behind]
        rw [same, left, Exponent.scan_of_fits room]
  · have ending : front.head? ≠ some '.' := by
      intro point
      obtain ⟨more, rfl⟩ := List.head?_eq_some_iff.1 point
      exact pointless rfl
    rw [behind_of_pointless pointless] at fits ⊢
    rw [behind_of_pointless ending, Exponent.scan_of_fits]
    simp only [text, List.length_append, Option.elim_none, List.length_nil] at fits
    exact Nat.le_of_add_le_add_left fits

theorem Literal.scan_of_fits {front back : List Char}
    (fits : (scan (front ++ back)).text.length ≤ front.length) :
    scan front = scan (front ++ back) := by
  have short : ((front ++ back).takeWhile isDigit).length ≤ front.length := by
    refine Nat.le_trans ?_ fits
    unfold scan text
    dsimp only
    split <;> simp only [List.length_append] <;> omega
  obtain ⟨whole, behind⟩ := takeWhile_of_append short
  have length := congrArg List.length (List.takeWhile_append_dropWhile (p := isDigit) (l := front))
  rw [List.length_append] at length
  rw [scan_eq, behind, ← whole] at fits
  rw [scan_eq, scan_eq, behind, ← whole]
  exact behind_of_fits (by omega)

end Decimal

def Span.rebase (origin : Nat) (span : Span) : Span :=
  ⟨span.start - origin, span.stop - origin⟩

def Token.rebase (origin : Nat) (token : Token) : Token :=
  ⟨token.symbol, token.span.rebase origin⟩

structure InOrder (tokens : List Token) : Prop where
  nonempty : ∀ token ∈ tokens, token.span.start < token.span.stop
  apart : tokens.Pairwise fun first second => first.span.stop ≤ second.span.start

/-- Whether a text that starts at `offset` is made of these tokens, in this order, and of blanks. -/
inductive Tiled : Nat → List Char → List Token → Prop
  | nil {offset : Nat} : Tiled offset [] []
  | blank {offset : Nat} {c : Char} {rest : List Char} {tokens : List Token}
      (white : Text.isBlank c = true) (later : Tiled (offset + c.utf8Size) rest tokens) :
      Tiled offset (c :: rest) tokens
  | token {offset : Nat} {segment : Segment} {rest : List Char} {token : Token} {tokens : List Token}
      (stands : segment.Stands rest) (read : segment.token? offset = some token)
      (later : Tiled (offset + Text.size segment.text) rest tokens) :
      Tiled offset (segment.text ++ rest) (token :: tokens)

def Blank (text : List Char) : Prop :=
  ∀ c ∈ text, Text.isBlank c = true

namespace Segment

variable {segment : Segment} {offset : Nat} {token : Token}

theorem token?_eq_some_iff : segment.token? offset = some token ↔
    ∃ symbol, segment.lexeme? offset = some (.token symbol) ∧
      token = ⟨symbol, ⟨offset, offset + Text.size segment.text⟩⟩ := by
  unfold token?
  cases segment.lexeme? offset with
  | none => simp
  | some lexeme => cases lexeme <;> simp [eq_comm]

theorem span_of_token? (read : segment.token? offset = some token) :
    token.span = ⟨offset, offset + Text.size segment.text⟩ := by
  obtain ⟨symbol, _, rfl⟩ := token?_eq_some_iff.1 read
  rfl

theorem lexeme?_of_token {symbol : Symbol} (found : segment.lexeme? offset = some (.token symbol))
    (other : Nat) : segment.lexeme? other = some (.token symbol) := by
  cases segment with
  | blank c => cases found
  | braced inside => exact found
  | literal number =>
      simp only [lexeme?, Option.some.injEq] at found ⊢
      unfold Lexeme.ofLiteral at found ⊢
      cases value : number.value? with
      | none => simp [value] at found
      | some value' =>
          cases finite : value'.isFinite with
          | false => simp [value, finite] at found
          | true => simpa [value, finite] using found
  | single c =>
      unfold lexeme? at found ⊢
      cases known : Symbol.ofChar? c with
      | none => simp [known] at found
      | some _ => simpa [known] using found

theorem blank_of_lexeme?_none (found : segment.lexeme? offset = none) : ∃ c, segment = .blank c := by
  cases segment with
  | blank c => exact ⟨c, rfl⟩
  | braced inside =>
      unfold lexeme? at found
      dsimp only at found
      split at found <;> cases found
  | literal number => cases found
  | single c =>
      unfold lexeme? at found
      dsimp only at found
      split at found <;> cases found

theorem Stands.before {front back : List Char} (stands : segment.Stands (front ++ back))
    (read : segment.token? offset = some token) : segment.Stands front := by
  cases stands with
  | blank white => exact .blank white
  | braced bare => exact .braced bare
  | @literal number starts longest =>
      refine .literal starts ?_
      rw [← List.append_assoc] at longest
      rw [Decimal.Literal.scan_of_fits, longest]
      rw [longest, List.length_append]
      exact Nat.le_add_right _ _
  | @single c visible other _ =>
      refine .single visible other ?_
      rintro rfl
      cases read

end Segment

namespace Tiled

variable {offset : Nat} {text : List Char} {tokens first second : List Token}

theorem scanFrom_eq (tiled : Tiled offset text tokens) : Token.scanFrom offset text =
    .ok (.ok (tokens ++ [⟨.finish, ⟨offset + Text.size text, offset + Text.size text⟩⟩])) := by
  induction tiled with
  | nil =>
      rw [Token.scanFrom]
      rfl
  | @blank offset c rest tokens white later ih =>
      rw [Token.scanFrom, white, if_pos rfl, ih, Text.size_cons, Nat.add_assoc]
  | @token offset segment rest token tokens stands read later ih =>
      obtain ⟨symbol, found, rfl⟩ := Segment.token?_eq_some_iff.1 read
      rw [scanFrom_segment stands, found, ih, Text.size_append, Nat.add_assoc]
      rfl

theorem followed_eq_ok {lexeme : Lexeme} {span : Span} {all : List Token}
    {following : Except ExpressionFault (Except ArithmeticFault (List Token))}
    (went : Lexeme.followed text span following lexeme = .ok (.ok all)) :
    ∃ symbol more, lexeme = .token symbol ∧ following = .ok (.ok more) ∧
      all = ⟨symbol, span⟩ :: more := by
  cases lexeme with
  | malformed reason => cases went
  | stray fault => cases following <;> cases went
  | token symbol =>
      cases following with
      | error fault => cases went
      | ok more =>
          cases more with
          | error fault => cases went
          | ok more =>
              cases went
              exact ⟨symbol, more, rfl, rfl, rfl⟩

theorem of_scanFrom {all : List Token} (scanned : Token.scanFrom offset text = .ok (.ok all)) :
    ∃ tokens, Tiled offset text tokens ∧
      all = tokens ++ [⟨.finish, ⟨offset + Text.size text, offset + Text.size text⟩⟩] := by
  obtain ⟨segments, segmented⟩ := exists_segmented text
  induction segmented generalizing offset all with
  | nil =>
      rw [Token.scanFrom] at scanned
      cases scanned
      exact ⟨[], .nil, rfl⟩
  | @cons segment rest segments stands later ih =>
      rw [scanFrom_segment stands] at scanned
      rw [Text.size_append, ← Nat.add_assoc]
      cases found : segment.lexeme? offset with
      | none =>
          rw [found] at scanned
          obtain ⟨tokens, tiled, rfl⟩ := ih scanned
          obtain ⟨c, rfl⟩ := Segment.blank_of_lexeme?_none found
          cases stands with
          | blank white => exact ⟨tokens, .blank white tiled, rfl⟩
      | some lexeme =>
          rw [found] at scanned
          obtain ⟨symbol, more, rfl, following, rfl⟩ := followed_eq_ok scanned
          obtain ⟨tokens, tiled, rfl⟩ := ih following
          exact ⟨_, .token stands (Segment.token?_eq_some_iff.2 ⟨symbol, found, rfl⟩) tiled, rfl⟩

end Tiled

/-- A text is scanned to tokens exactly if it is made of them. -/
theorem ofText_eq_ok_iff {text : List Char} {all : List Token} : Token.ofText text = .ok all ↔
    ∃ tokens, Tiled 0 text tokens ∧ all = tokens ++ [⟨.finish, ⟨Text.size text, Text.size text⟩⟩] := by
  unfold Token.ofText
  constructor
  · intro scanned
    split at scanned
    · cases scanned
    · cases scanned
    · rename_i tokens found
      cases scanned
      obtain ⟨tokens, tiled, same⟩ := Tiled.of_scanFrom found
      rw [Nat.zero_add] at same
      exact ⟨tokens, tiled, same⟩
  · rintro ⟨tokens, tiled, rfl⟩
    rw [tiled.scanFrom_eq, Nat.zero_add]

namespace Tiled

variable {offset : Nat} {text : List Char} {token : Token} {tokens first second : List Token}

theorem blank_of_nil (tiled : Tiled offset text []) : Blank text := by
  generalize none : ([] : List Token) = tokens at tiled
  induction tiled with
  | nil => exact List.forall_mem_nil _
  | blank white later ih => exact List.forall_mem_cons.2 ⟨white, ih none⟩
  | token => cases none

theorem of_blank {blanks rest : List Char} (white : Blank blanks)
    (tiled : Tiled (offset + Text.size blanks) rest tokens) : Tiled offset (blanks ++ rest) tokens := by
  induction blanks generalizing offset with
  | nil => exact tiled
  | cons c more ih =>
      obtain ⟨first, later⟩ := List.forall_mem_cons.1 white
      rw [Text.size_cons, ← Nat.add_assoc] at tiled
      exact .blank first (ih later tiled)

theorem exists_append (tiled : Tiled offset text (first ++ second)) : ∃ front back,
    text = front ++ back ∧ Tiled offset front first ∧
      Tiled (offset + Text.size front) back second := by
  generalize all : first ++ second = tokens at tiled
  induction tiled generalizing first with
  | nil =>
      obtain ⟨rfl, rfl⟩ := List.append_eq_nil_iff.1 all
      exact ⟨[], [], rfl, .nil, .nil⟩
  | @blank offset c rest tokens white later ih =>
      obtain ⟨front, back, rfl, before, behind⟩ := ih all
      rw [Nat.add_assoc] at behind
      exact ⟨c :: front, back, rfl, .blank white before, behind⟩
  | @token offset segment rest token tokens stands read later ih =>
      cases first with
      | nil =>
          rw [List.nil_append] at all
          rw [all]
          exact ⟨[], _, rfl, .nil, .token stands read later⟩
      | cons leading more =>
          obtain ⟨rfl, others⟩ := List.cons.inj all
          obtain ⟨front, back, rfl, before, behind⟩ := ih others
          refine ⟨segment.text ++ front, back, (List.append_assoc _ _ _).symm, ?_, ?_⟩
          · exact .token (stands.before read) read before
          · rwa [Text.size_append, ← Nat.add_assoc]

theorem exists_between (tiled : Tiled offset text tokens) (something : tokens ≠ []) :
    ∃ before inside after, text = before ++ inside ++ after ∧ Blank before ∧ Blank after ∧
      Tiled (offset + Text.size before) inside tokens ∧
      (∃ first, tokens.head? = some first ∧ first.span.start = offset + Text.size before) ∧
      ∃ last, tokens.getLast? = some last ∧
        last.span.stop = offset + Text.size before + Text.size inside := by
  induction tiled with
  | nil => exact absurd rfl something
  | @blank offset c rest tokens white later ih =>
      obtain ⟨before, inside, after, rfl, blank, blanks, tiled, ends⟩ := ih something
      rw [Nat.add_assoc offset] at tiled ends
      exact ⟨c :: before, inside, after, rfl, List.forall_mem_cons.2 ⟨white, blank⟩, blanks, tiled, ends⟩
  | @token offset segment rest token tokens stands read later ih =>
      have span := Segment.span_of_token? read
      cases tokens with
      | nil =>
          have alone : segment.Stands [] := @Segment.Stands.before _ _ _ [] rest stands read
          have single : Tiled offset (segment.text ++ []) [token] := .token alone read .nil
          rw [List.append_nil] at single
          exact ⟨[], segment.text, rest, rfl, List.forall_mem_nil _, blank_of_nil later, single,
            ⟨token, rfl, by rw [span]; rfl⟩, token, rfl, by rw [span]; rfl⟩
      | cons next more =>
          obtain ⟨before, inside, after, rfl, blank, blanks, tiled, _, last, final, stop⟩ :=
            ih (List.cons_ne_nil _ _)
          refine ⟨[], segment.text ++ before ++ inside, after, by simp, List.forall_mem_nil _, blanks,
            ?_, ⟨token, rfl, by rw [span]; rfl⟩, last, ?_, ?_⟩
          · rw [List.append_assoc]
            exact .token (stands.before read) read (of_blank blank tiled)
          · rw [List.getLast?_cons_cons]
            exact final
          · rw [stop]
            simp [Nat.add_assoc]

theorem rebase {origin : Nat} (tiled : Tiled (origin + offset) text tokens) :
    Tiled offset text (tokens.map (Token.rebase origin)) := by
  generalize start : origin + offset = place at tiled
  induction tiled generalizing offset with
  | nil => exact .nil
  | blank white later ih => exact .blank white (ih (by rw [← start, Nat.add_assoc]))
  | @token place segment rest token tokens stands read later ih =>
      obtain ⟨symbol, found, rfl⟩ := Segment.token?_eq_some_iff.1 read
      refine .token stands (Segment.token?_eq_some_iff.2
        ⟨symbol, Segment.lexeme?_of_token found offset, ?_⟩) (ih (by rw [← start, Nat.add_assoc]))
      subst start
      simp only [Token.rebase, Span.rebase, Nat.add_sub_cancel_left, Nat.add_assoc]

theorem bounds (tiled : Tiled offset text tokens) : ∀ token ∈ tokens,
    offset ≤ token.span.start ∧ token.span.start < token.span.stop := by
  induction tiled with
  | nil => exact List.forall_mem_nil _
  | blank white later ih =>
      intro token inside
      obtain ⟨low, proper⟩ := ih token inside
      exact ⟨Nat.le_of_add_right_le low, proper⟩
  | @token offset segment rest token tokens stands read later ih =>
      have size := stands.size_pos
      intro other inside
      rcases List.mem_cons.1 inside with rfl | inside
      · rw [Segment.span_of_token? read]
        exact ⟨Nat.le_refl _, Nat.lt_add_of_pos_right size⟩
      · obtain ⟨low, proper⟩ := ih other inside
        exact ⟨Nat.le_of_add_right_le low, proper⟩

theorem inOrder (tiled : Tiled offset text tokens) : InOrder tokens := by
  refine ⟨fun token inside => (tiled.bounds token inside).2, ?_⟩
  induction tiled with
  | nil => exact .nil
  | blank white later ih => exact ih
  | token stands read later ih =>
      refine .cons (fun other inside => ?_) ih
      rw [Segment.span_of_token? read]
      exact (later.bounds other inside).1

end Tiled

/-- What a parsed text is made of. -/
structure Composed (text : List Char) (tokens : List Token) (tree : Expression) (nesting : Nat) : Prop where
  tiled : Tiled 0 text tokens
  derived : Derives .sum tokens tree nesting
  shallow : nesting ≤ greatestDepth
  low : tree.height ≤ greatestHeight

theorem exists_composed {text : String} {tree : Expression} (parsed : Expression.parse text = .ok tree) :
    ∃ tokens nesting, Composed text.toList tokens tree nesting := by
  unfold Expression.parse at parsed
  cases scanned : Token.ofText text.toList with
  | error fault =>
      rw [scanned] at parsed
      cases parsed
  | ok all =>
      rw [scanned] at parsed
      dsimp only at parsed
      obtain ⟨tokens, tiled, rfl⟩ := ofText_eq_ok_iff.1 scanned
      obtain ⟨body, last, same, ends, visible⟩ := ofText_eq_ok scanned
      obtain ⟨rfl, final⟩ := List.append_inj' same rfl
      cases final
      split at parsed
      · cases parsed
      · rename_i found
        cases parsed
        obtain ⟨nesting, derived, shallow, low⟩ := ofTokens_sound ends visible found
        exact ⟨tokens, nesting, tiled, derived, shallow, low⟩

theorem Composed.parse_eq {text : List Char} {tokens : List Token} {tree : Expression} {nesting : Nat}
    (composed : Composed text tokens tree nesting) : Expression.parse (String.ofList text) = .ok tree := by
  unfold Expression.parse
  rw [String.toList_ofList, ofText_eq_ok_iff.2 ⟨tokens, composed.tiled, rfl⟩]
  dsimp only
  rw [ofTokens_complete rfl composed.derived composed.shallow composed.low]

end Formulary
