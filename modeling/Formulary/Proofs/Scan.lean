import Formulary.Expression.Segment
import Mathlib.Data.List.TakeWhile

/-!
The scanner against the segments of a text. Every text falls into segments; the scanner reports the
first malformed pair of braces, else the first stray segment, else the tokens of all of them. The
pairs of braces among the segments are exactly the candidates of the text.
-/

namespace Formulary

theorem braced?_of_braceless {inside : List Char} (bare : Braceless inside) (after : List Char) :
    Lexeme.braced? (inside ++ '\x7d' :: after) = some (inside.length + 1) := by
  have passes : ∀ c ∈ inside, (!Lexeme.isBrace c) = true := by
    intro c within
    rw [bare c within]
    rfl
  unfold Lexeme.braced?
  rw [List.dropWhile_append_of_pos passes, List.takeWhile_append_of_pos passes]
  simp [Lexeme.isBrace]

theorem braced?_eq_some {rest : List Char} {more : Nat} (found : Lexeme.braced? rest = some more) :
    ∃ inside after, Braceless inside ∧ rest = inside ++ '\x7d' :: after := by
  unfold Lexeme.braced? at found
  split at found
  · rename_i after next
    refine ⟨rest.takeWhile (!Lexeme.isBrace ·), after, ?_, ?_⟩
    · intro c within
      simpa using List.mem_takeWhile_imp within
    · rw [← next, List.takeWhile_append_dropWhile]
  · cases found

theorem Braceless.cons {c : Char} {rest : List Char} (first : Lexeme.isBrace c = false)
    (bare : Braceless rest) : Braceless (c :: rest) := by
  rintro d within
  rcases List.mem_cons.1 within with rfl | within
  · exact first
  · exact bare d within

theorem Braceless.append {first second : List Char} (bare : Braceless first)
    (also : Braceless second) : Braceless (first ++ second) := by
  intro c within
  rcases List.mem_append.1 within with within | within
  · exact bare c within
  · exact also c within

theorem braceless_nil : Braceless [] := by
  rintro c ⟨⟩

theorem isBrace_of_isDigit {c : Char} (digit : Decimal.isDigit c = true) :
    Lexeme.isBrace c = false := by
  cases brace : Lexeme.isBrace c with
  | false => rfl
  | true =>
      unfold Lexeme.isBrace at brace
      simp only [Bool.or_eq_true, decide_eq_true_eq] at brace
      rcases brace with rfl | rfl <;> cases digit

theorem braceless_digits (text : List Char) : Braceless (text.takeWhile Decimal.isDigit) :=
  fun _ within => isBrace_of_isDigit (List.mem_takeWhile_imp within)

namespace Decimal

theorem Exponent.text_eq {mark : Char} {sign : Option Char} {later : List Char}
    {exponent : Exponent} (found : (match later.takeWhile isDigit with
      | [] => none
      | digits => some ⟨mark, sign, digits⟩) = some exponent) :
    exponent.text = mark :: sign.toList ++ later.takeWhile isDigit := by
  split at found
  · cases found
  · cases found
    rfl

theorem Exponent.scan_eq_some {text : List Char} {exponent : Exponent}
    (found : Exponent.scan text = some exponent) :
    Braceless exponent.text ∧ ∃ rest, text = exponent.text ++ rest := by
  cases text with
  | nil => cases found
  | cons mark rest =>
      unfold scan at found
      dsimp only at found
      split at found
      · rename_i marked
        have mark_bare : Lexeme.isBrace mark = false := by
          rcases marked with rfl | rfl <;> rfl
        have parts (sign : Option Char) (later : List Char) (split : rest = sign.toList ++ later)
            (bare : Braceless sign.toList)
            (same : exponent.text = mark :: sign.toList ++ later.takeWhile isDigit) :
            Braceless exponent.text ∧ ∃ rest', mark :: rest = exponent.text ++ rest' := by
          rw [same, split]
          constructor
          · exact (Braceless.cons mark_bare bare).append (braceless_digits later)
          · refine ⟨later.dropWhile isDigit, ?_⟩
            rw [List.append_assoc, List.takeWhile_append_dropWhile]
            rfl
        cases rest with
        | nil => cases found
        | cons c more =>
            dsimp only at found
            by_cases signed : c = '+' ∨ c = '-'
            · rw [if_pos signed] at found
              refine parts (some c) more rfl (.cons ?_ braceless_nil) (Exponent.text_eq found)
              rcases signed with rfl | rfl <;> rfl
            · rw [if_neg signed] at found
              exact parts none (c :: more) rfl braceless_nil (Exponent.text_eq found)
      · cases found

theorem Exponent.scan_text (text : List Char) :
    Braceless ((Exponent.scan text).elim [] Exponent.text) ∧
      ∃ rest, text = (Exponent.scan text).elim [] Exponent.text ++ rest := by
  cases found : Exponent.scan text with
  | none => exact ⟨braceless_nil, text, rfl⟩
  | some exponent => exact Exponent.scan_eq_some found

theorem Literal.scan_text (text : List Char) :
    Braceless (Literal.scan text).text ∧ ∃ rest, text = (Literal.scan text).text ++ rest := by
  have whole := List.takeWhile_append_dropWhile (p := isDigit) (l := text)
  unfold Literal.scan Literal.text
  dsimp only
  split
  · rename_i later next
    obtain ⟨bare, rest, behind⟩ := Exponent.scan_text (later.dropWhile isDigit)
    constructor
    · exact ((braceless_digits text).append (.cons rfl (braceless_digits later))).append bare
    · refine ⟨rest, ?_⟩
      conv => lhs; rw [← whole, next, ← List.takeWhile_append_dropWhile (p := isDigit) (l := later), behind]
      simp
  · obtain ⟨bare, rest, behind⟩ := Exponent.scan_text (text.dropWhile isDigit)
    constructor
    · exact ((braceless_digits text).append braceless_nil).append bare
    · refine ⟨rest, ?_⟩
      conv => lhs; rw [← whole, behind]
      simp

end Decimal

theorem isBlank_of_startsLiteral {c : Char} (starts : startsLiteral c = true) :
    Text.isBlank c = false := by
  unfold startsLiteral Decimal.isDigit at starts
  simp only [Bool.or_eq_true, Bool.and_eq_true, decide_eq_true_eq] at starts
  rcases starts with ⟨low, high⟩ | rfl
  · have low : 48 ≤ c.toNat := low
    have high : c.toNat ≤ 57 := high
    simp only [Text.isBlank, Text.blankRanges, List.any_cons, List.any_nil, Bool.or_eq_false_iff,
      Bool.and_eq_false_iff, decide_eq_false_iff_not, and_true]
    omega
  · decide

theorem Decimal.Literal.scan_starts {c : Char} (starts : startsLiteral c = true)
    (rest : List Char) : ∃ more, (Literal.scan (c :: rest)).text = c :: more := by
  unfold Literal.scan Literal.text
  dsimp only
  cases digit : isDigit c with
  | true =>
      rw [List.takeWhile_cons_of_pos digit]
      split <;> exact ⟨_, rfl⟩
  | false =>
      unfold startsLiteral at starts
      rw [digit, Bool.false_or, decide_eq_true_eq] at starts
      subst starts
      exact ⟨_, rfl⟩

namespace Lexeme

variable {c : Char} {offset : Nat} {rest : List Char}

theorem scan_symbol {symbol : Symbol} (found : Symbol.ofChar? c = some symbol) :
    scan offset c rest = (.token symbol, 0) := by
  unfold Symbol.ofChar? at found
  split at found <;> cases found <;> rfl

theorem scan_other (other : Symbol.ofChar? c = none) : scan offset c rest =
    if c = '\x7b' then
      match braced? rest with
      | none => (.stray (.unexpectedCharacter c offset), 0)
      | some more =>
        match Reference.read (c :: rest.take more) with
        | .ok target => (.token (.reference target), more)
        | .error reason => (.malformed reason, more)
    else if startsLiteral c then
      (ofLiteral offset (Decimal.Literal.scan (c :: rest)),
        (Decimal.Literal.scan (c :: rest)).text.length - 1)
    else (.stray (.unexpectedCharacter c offset), 0) := by
  unfold scan
  split <;> first | cases other | rfl

theorem ofChar?_of_startsLiteral (starts : startsLiteral c = true) : Symbol.ofChar? c = none := by
  unfold Symbol.ofChar?
  split <;> first | cases starts | rfl

theorem scan_braced {inside : List Char} (bare : Braceless inside) :
    some (scan offset '\x7b' (inside ++ ['\x7d'] ++ rest)) =
      ((Segment.braced inside).lexeme? offset).map fun lexeme => (lexeme, inside.length + 1) := by
  have taken : (inside ++ '\x7d' :: rest).take (inside.length + 1) = inside ++ ['\x7d'] := by
    rw [List.take_length_add_append]
    rfl
  rw [List.append_assoc, List.singleton_append, scan_other rfl, if_pos rfl,
    braced?_of_braceless bare]
  dsimp only [Segment.lexeme?, Segment.text]
  rw [taken, List.cons_append]
  cases Reference.read ('\x7b' :: (inside ++ ['\x7d'])) <;> rfl

theorem scan_literal (starts : startsLiteral c = true) {number : Decimal.Literal} {more : List Char}
    (same : Decimal.Literal.scan (c :: (more ++ rest)) = number) (text : number.text = c :: more) :
    scan offset c (more ++ rest) = (ofLiteral offset number, more.length) := by
  have ordinary : c ≠ '\x7b' := by
    rintro rfl
    cases starts
  rw [scan_other (ofChar?_of_startsLiteral starts), if_neg ordinary, if_pos starts, same, text]
  rfl

theorem scan_single (other : startsLiteral c = false)
    (unpaired : c = '\x7b' → ∀ inside after, Braceless inside → rest ≠ inside ++ '\x7d' :: after) :
    some (scan offset c rest) = ((Segment.single c).lexeme? offset).map fun lexeme => (lexeme, 0) := by
  unfold Segment.lexeme?
  dsimp only
  cases found : Symbol.ofChar? c with
  | some symbol =>
      rw [scan_symbol found]
      rfl
  | none =>
      rw [scan_other found, other]
      split
      · rename_i opens
        cases closing : braced? rest with
        | none => rfl
        | some more =>
            obtain ⟨inside, after, bare, same⟩ := braced?_eq_some closing
            exact absurd same (unpaired opens inside after bare)
      · rfl

end Lexeme

theorem Lexeme.ofLiteral_cases (offset : Nat) (number : Decimal.Literal) :
    (∃ value, ofLiteral offset number = .token (.number value)) ∨
      ofLiteral offset number = .stray (.invalidNumber number.text offset) := by
  unfold ofLiteral
  cases number.value? with
  | none => exact .inr rfl
  | some value =>
      cases finite : value.isFinite with
      | false => simp [finite]
      | true => simp [finite]

def Lexeme.followed (text : List Char) (span : Span)
    (following : Except ExpressionFault (Except ArithmeticFault (List Token))) :
    Lexeme → Except ExpressionFault (Except ArithmeticFault (List Token))
  | malformed reason => .error (.malformedReference text span reason)
  | stray fault => following.map fun _ => .error fault
  | token symbol => following.map fun tokens => tokens.map (⟨symbol, span⟩ :: ·)

theorem scanFrom_visible {c : Char} {more rest : List Char} {lexeme? : Option Lexeme} {offset : Nat}
    (visible : Text.isBlank c = false)
    (scanned : some (Lexeme.scan offset c (more ++ rest)) =
      lexeme?.map fun lexeme => (lexeme, more.length)) :
    Token.scanFrom offset (c :: more ++ rest) =
      lexeme?.elim (Token.scanFrom (offset + Text.size (c :: more)) rest)
        (Lexeme.followed (c :: more) ⟨offset, offset + Text.size (c :: more)⟩
          (Token.scanFrom (offset + Text.size (c :: more)) rest)) := by
  cases lexeme? with
  | none => cases scanned
  | some lexeme =>
      rw [List.cons_append, Token.scanFrom, visible, Option.some.inj scanned]
      simp only [Bool.false_eq_true, if_false, List.take_left, List.drop_left]
      cases lexeme <;> rfl

theorem scanFrom_segment {segment : Segment} {rest : List Char} (stands : segment.Stands rest)
    (offset : Nat) : Token.scanFrom offset (segment.text ++ rest) =
      (segment.lexeme? offset).elim (Token.scanFrom (offset + Text.size segment.text) rest)
        (Lexeme.followed segment.text ⟨offset, offset + Text.size segment.text⟩
          (Token.scanFrom (offset + Text.size segment.text) rest)) := by
  cases stands with
  | @blank c white =>
      simp only [Segment.text, List.singleton_append]
      rw [Token.scanFrom, white]
      rfl
  | @braced inside bare =>
      refine @scanFrom_visible '\x7b' (inside ++ ['\x7d']) rest _ _ (by decide) ?_
      rw [Lexeme.scan_braced bare, List.length_append]
      rfl
  | @literal number starts longest =>
      obtain ⟨c, more, text⟩ : ∃ c more, number.text = c :: more := by
        cases text : number.text with
        | nil =>
            rw [text] at starts
            cases starts
        | cons c more => exact ⟨c, more, rfl⟩
      rw [text] at starts longest
      have starts : startsLiteral c = true := starts
      simp only [Segment.text, text]
      refine scanFrom_visible (isBlank_of_startsLiteral starts) ?_
      exact congrArg some (Lexeme.scan_literal starts longest text)
  | @single c visible other unpaired =>
      exact @scanFrom_visible c [] _ _ _ visible (Lexeme.scan_single other unpaired)

theorem exists_segmented (text : List Char) : ∃ segments, Segmented text segments := by
  induction size : text.length using Nat.strongRecOn generalizing text with
  | ind _ ih =>
      have step {segment : Segment} {rest : List Char} (stands : segment.Stands rest)
          (something : 0 < segment.text.length) (split : text = segment.text ++ rest) :
          ∃ segments, Segmented text segments := by
        obtain ⟨segments, later⟩ := ih rest.length (by
          rw [← size, split, List.length_append]
          omega) rest rfl
        rw [split]
        exact ⟨segment :: segments, .cons stands later⟩
      cases text with
      | nil => exact ⟨[], .nil⟩
      | cons c rest =>
          cases white : Text.isBlank c with
          | true => exact step (.blank white) Nat.one_pos rfl
          | false =>
              cases starts : startsLiteral c with
              | true =>
                  obtain ⟨more, text⟩ := Decimal.Literal.scan_starts starts rest
                  obtain ⟨_, after, split⟩ := Decimal.Literal.scan_text (c :: rest)
                  refine step (.literal ?_ (congrArg _ split.symm)) ?_ split
                  · rw [text]
                    exact starts
                  · simp only [Segment.text, text]
                    exact Nat.succ_pos more.length
              | false =>
                  by_cases paired : c = '\x7b' ∧
                      ∃ inside after, Braceless inside ∧ rest = inside ++ '\x7d' :: after
                  · obtain ⟨rfl, inside, after, bare, rfl⟩ := paired
                    exact step (.braced bare) (Nat.succ_pos _)
                      (List.append_cons ('\x7b' :: inside) '\x7d' after)
                  · refine step (.single white starts ?_) Nat.one_pos rfl
                    intro opens inside after bare same
                    exact paired ⟨opens, inside, after, bare, same⟩

def Segment.scanned (offset : Nat) (segments : List Segment) :
    Except ExpressionFault (Except ArithmeticFault (List Token)) :=
  match (gather malformed? offset segments).head? with
  | some fault => .error fault
  | none =>
    match (gather stray? offset segments).head? with
    | some fault => .ok (.error fault)
    | none =>
      let stop := offset + Text.size (segments.flatMap text)
      .ok (.ok (gather token? offset segments ++ [⟨.finish, ⟨stop, stop⟩⟩]))

theorem Segment.scanned_cons (offset : Nat) (segment : Segment) (segments : List Segment) :
    scanned offset (segment :: segments) =
      (segment.lexeme? offset).elim (scanned (offset + Text.size segment.text) segments)
        (Lexeme.followed segment.text ⟨offset, offset + Text.size segment.text⟩
          (scanned (offset + Text.size segment.text) segments)) := by
  have size : offset + Text.size ((segment :: segments).flatMap text) =
      offset + Text.size segment.text + Text.size (segments.flatMap text) := by
    rw [List.flatMap_cons, Text.size_append, Nat.add_assoc]
  unfold scanned
  rw [size]
  simp only [gather, malformed?, stray?, token?]
  cases segment.lexeme? offset with
  | none => rfl
  | some lexeme =>
      cases lexeme with
      | malformed reason => rfl
      | stray fault | token symbol =>
          dsimp only [Option.toList, List.nil_append, List.singleton_append, List.head?_cons]
          cases (gather malformed? (offset + Text.size segment.text) segments).head? with
          | some fault => rfl
          | none =>
              cases (gather stray? (offset + Text.size segment.text) segments).head? <;> rfl

theorem Segmented.scanFrom_eq {text : List Char} {segments : List Segment}
    (segmented : Segmented text segments) (offset : Nat) :
    Token.scanFrom offset text = Segment.scanned offset segments := by
  induction segmented generalizing offset with
  | nil =>
      rw [Token.scanFrom]
      rfl
  | cons stands later ih => rw [scanFrom_segment stands, ih, Segment.scanned_cons]

/-! Candidates, which are the pairs of braces among the segments. -/

section Candidates

variable {segment : Segment} {segments : List Segment} {text rest snippet : List Char}
  {offset : Nat} {reason : ReferenceFault}

theorem Braceless.eq_of_closed {first second after later : List Char} (bare : Braceless first)
    (also : Braceless second) (same : first ++ '\x7d' :: after = second ++ '\x7d' :: later) :
    first = second := by
  have lengths : some (first.length + 1) = some (second.length + 1) := by
    rw [← braced?_of_braceless bare after, same, braced?_of_braceless also]
  exact List.append_inj_left same (by simpa using lengths)

theorem Segment.Stands.opening (stands : segment.Stands rest) {before more : List Char}
    (split : segment.text = before ++ '\x7b' :: more) :
    before = [] ∧ (segment = .braced (more.dropLast) ∨ segment = .single '\x7b' ∧ more = []) := by
  have alone {c : Char} (single : [c] = before ++ '\x7b' :: more) :
      before = [] ∧ c = '\x7b' ∧ more = [] := by
    cases before with
    | nil =>
        cases single
        exact ⟨rfl, rfl, rfl⟩
    | cons first before =>
        rw [List.cons_append, List.cons.injEq] at single
        simp at single
  cases stands with
  | blank white =>
      obtain ⟨_, rfl, _⟩ := alone split
      cases white
  | single visible other unpaired =>
      obtain ⟨rfl, rfl, rfl⟩ := alone split
      exact ⟨rfl, .inr ⟨rfl, rfl⟩⟩
  | @literal number starts longest =>
      have bare := (Decimal.Literal.scan_text (number.text ++ rest)).1
      rw [longest] at bare
      have split : number.text = before ++ '\x7b' :: more := split
      cases bare '\x7b' (by simp [split])
  | @braced inside bare =>
      cases before with
      | nil =>
          have split : inside ++ ['\x7d'] = more := List.tail_eq_of_cons_eq split
          rw [← split, List.dropLast_concat]
          exact ⟨rfl, .inl rfl⟩
      | cons first before =>
          have split : inside ++ ['\x7d'] = before ++ '\x7b' :: more := List.tail_eq_of_cons_eq split
          have within : '\x7b' ∈ inside ++ ['\x7d'] := by simp [split]
          rcases List.mem_append.1 within with within | within
          · cases bare '\x7b' within
          · cases List.eq_of_mem_singleton within

theorem Candidate.behind (candidate : Candidate rest offset snippet) (front : List Char) :
    Candidate (front ++ rest) (Text.size front + offset) snippet := by
  obtain ⟨before, inside, after, rfl, rfl, same, bare⟩ := candidate
  exact ⟨front ++ before, inside, after, by simp, by simp, same, bare⟩

theorem candidate_braced {inside : List Char} (bare : Braceless inside) (rest : List Char) :
    Candidate ((Segment.braced inside).text ++ rest) 0 (Segment.braced inside).text :=
  ⟨[], inside, rest, rfl, rfl, rfl, bare⟩

theorem Candidate.at_or_behind (stands : segment.Stands rest)
    (candidate : Candidate (segment.text ++ rest) offset snippet) :
    (∃ inside, segment = .braced inside ∧ offset = 0 ∧ snippet = segment.text) ∨
      ∃ later, offset = Text.size segment.text + later ∧ Candidate rest later snippet := by
  obtain ⟨before, inside, after, split, rfl, rfl, bare⟩ := candidate
  rw [List.append_assoc] at split
  rcases List.append_eq_append_iff.1 split with ⟨between, rfl, behind⟩ | ⟨between, front, behind⟩
  · refine .inr ⟨Text.size between, Text.size_append _ _, between, inside, after, ?_, rfl, rfl, bare⟩
    rw [List.append_assoc]
    exact behind
  · cases between with
    | nil =>
        refine .inr ⟨0, ?_, [], inside, after, behind.symm, rfl, rfl, bare⟩
        rw [front, List.append_nil, Nat.add_zero]
    | cons first more =>
        have behind : '\x7b' :: (inside ++ '\x7d' :: after) = first :: (more ++ rest) := by
          simpa using behind
        obtain ⟨rfl, inner⟩ := List.cons.inj behind
        obtain ⟨rfl, braced | ⟨rfl, rfl⟩⟩ := stands.opening front
        · rw [braced] at stands front ⊢
          cases stands with
          | braced also =>
              have closed : more.dropLast ++ ['\x7d'] = more := List.tail_eq_of_cons_eq front
              rw [← closed, List.append_assoc, List.singleton_append] at inner
              rw [bare.eq_of_closed also inner]
              exact .inl ⟨_, rfl, rfl, rfl⟩
        · cases stands with
          | single visible other unpaired =>
              exact absurd inner.symm (unpaired rfl inside after bare)

theorem Segment.Stands.size_pos (stands : segment.Stands rest) : 0 < Text.size segment.text := by
  have nonempty : segment.text ≠ [] := by
    cases stands with
    | @literal number starts longest =>
        intro empty
        rw [show number.text = [] from empty] at starts
        cases starts
    | _ => exact List.cons_ne_nil _ _
  cases split : segment.text with
  | nil => exact absurd split nonempty
  | cons c more => exact Nat.lt_of_lt_of_le c.utf8Size_pos (Nat.le_add_right _ _)

theorem Candidate.eq_of_offset {other : List Char} (candidate : Candidate text offset snippet)
    (also : Candidate text offset other) : snippet = other := by
  obtain ⟨segments, segmented⟩ := exists_segmented text
  induction segmented generalizing offset with
  | nil =>
      obtain ⟨before, inside, after, empty, _, rfl, _⟩ := candidate
      simp at empty
  | cons stands later ih =>
      have positive := stands.size_pos
      rcases candidate.at_or_behind stands with ⟨_, _, rfl, rfl⟩ | ⟨first, rfl, behind⟩
      · rcases also.at_or_behind stands with ⟨_, _, _, rfl⟩ | ⟨_, same, _⟩
        · rfl
        · omega
      · rcases also.at_or_behind stands with ⟨_, _, same, _⟩ | ⟨second, same, alsoBehind⟩
        · omega
        · obtain rfl : first = second := by omega
          exact ih behind alsoBehind

theorem FirstMalformed.unique {offset' : Nat} {snippet' : List Char} {reason' : ReferenceFault}
    (first : FirstMalformed text offset snippet reason)
    (also : FirstMalformed text offset' snippet' reason') :
    offset = offset' ∧ snippet = snippet' ∧ reason = reason' := by
  have not_before {one two : Nat} {left right : List Char} {why because : ReferenceFault}
      (malformed : FirstMalformed text one left why) (least : FirstMalformed text two right because) :
      ¬ one < two := by
    intro before
    obtain ⟨target, read⟩ := least.first one left malformed.candidate before
    rw [malformed.malformed] at read
    cases read
  obtain rfl : offset = offset' :=
    Nat.le_antisymm (Nat.le_of_not_lt (not_before also first))
      (Nat.le_of_not_lt (not_before first also))
  obtain rfl := first.candidate.eq_of_offset also.candidate
  have same := first.malformed.symm.trans also.malformed
  exact ⟨rfl, rfl, Except.error.inj same⟩

theorem Segment.malformed?_eq_some {fault : ExpressionFault}
    (found : segment.malformed? offset = some fault) :
    ∃ inside reason, segment = .braced inside ∧ Reference.read segment.text = .error reason ∧
      fault = .malformedReference segment.text ⟨offset, offset + Text.size segment.text⟩ reason := by
  unfold malformed? lexeme? at found
  cases segment with
  | blank c => cases found
  | braced inside =>
      cases read : Reference.read (braced inside).text with
      | ok target =>
          simp only [read] at found
          cases found
      | error reason =>
          simp only [read] at found
          exact ⟨inside, reason, rfl, rfl, (Option.some.inj found).symm⟩
  | literal number =>
      rcases Lexeme.ofLiteral_cases offset number with ⟨value, number⟩ | number <;>
        (simp only [number] at found; cases found)
  | single c =>
      cases known : Symbol.ofChar? c with
      | none =>
          simp only [known] at found
          cases found
      | some symbol =>
          simp only [known] at found
          cases found

theorem Segment.read_of_malformed?_none {inside : List Char}
    (none : (Segment.braced inside).malformed? offset = none) :
    ∃ target, Reference.read (Segment.braced inside).text = .ok target := by
  cases read : Reference.read (Segment.braced inside).text with
  | ok target => exact ⟨target, rfl⟩
  | error reason =>
      unfold malformed? lexeme? at none
      simp only [read] at none
      cases none

theorem Segmented.malformed_none (segmented : Segmented text segments) {base : Nat}
    (none : Segment.gather Segment.malformed? base segments = [])
    (candidate : Candidate text offset snippet) : ∃ target, Reference.read snippet = .ok target := by
  induction segmented generalizing base offset with
  | nil =>
      obtain ⟨before, inside, after, empty, _, rfl, _⟩ := candidate
      simp at empty
  | cons stands later ih =>
      obtain ⟨here, there⟩ := List.append_eq_nil_iff.1 none
      rcases candidate.at_or_behind stands with ⟨inside, rfl, rfl, rfl⟩ | ⟨later, rfl, behind⟩
      · exact Segment.read_of_malformed?_none (Option.toList_eq_nil_iff.1 here)
      · exact ih there behind

theorem Segmented.malformed_some (segmented : Segmented text segments) {base : Nat}
    {fault : ExpressionFault}
    (some : (Segment.gather Segment.malformed? base segments).head? = some fault) :
    ∃ offset snippet reason, FirstMalformed text offset snippet reason ∧
      fault = .malformedReference snippet
        ⟨base + offset, base + offset + Text.size snippet⟩ reason := by
  induction segmented generalizing base with
  | nil => cases some
  | @cons segment rest segments stands later ih =>
      rw [Segment.gather, List.head?_append, Option.head?_toList] at some
      cases here : segment.malformed? base with
      | some found =>
          rw [here] at some
          cases some
          obtain ⟨inside, reason, rfl, read, same⟩ := Segment.malformed?_eq_some here
          cases stands with
          | braced bare =>
              refine ⟨0, _, reason, ⟨candidate_braced bare rest, read, ?_⟩, same⟩
              intro earlier other _ before
              exact absurd before (Nat.not_lt_zero earlier)
      | none =>
          rw [here] at some
          obtain ⟨offset, snippet, reason, first, rfl⟩ := ih some
          refine ⟨Text.size segment.text + offset, snippet, reason,
            ⟨first.candidate.behind segment.text, first.malformed, ?_⟩, ?_⟩
          · intro earlier other candidate before
            rcases candidate.at_or_behind stands with ⟨inside, rfl, rfl, rfl⟩ | ⟨later, rfl, behind⟩
            · exact Segment.read_of_malformed?_none here
            · exact first.first later other behind (by omega)
          · rw [Nat.add_assoc base]

end Candidates

theorem Segment.token?_ne_finish {segment : Segment} {offset : Nat} {token : Token}
    (found : segment.token? offset = some token) : token.symbol ≠ .finish := by
  unfold token? lexeme? at found
  cases segment with
  | blank c => cases found
  | braced inside =>
      cases read : Reference.read (braced inside).text with
      | ok target =>
          simp only [read, Option.some.injEq] at found
          rw [← found]
          exact nofun
      | error reason =>
          simp only [read] at found
          cases found
  | literal number =>
      rcases Lexeme.ofLiteral_cases offset number with ⟨value, number⟩ | number
      · simp only [number, Option.some.injEq] at found
        rw [← found]
        exact nofun
      · simp only [number] at found
        cases found
  | single c =>
      cases known : Symbol.ofChar? c with
      | none =>
          simp only [known] at found
          cases found
      | some symbol =>
          simp only [known, Option.some.injEq] at found
          rw [← found]
          unfold Symbol.ofChar? at known
          split at known <;> cases known <;> exact nofun

theorem ne_finish_of_gather {segments : List Segment} {offset : Nat} {token : Token}
    (within : token ∈ Segment.gather Segment.token? offset segments) : token.symbol ≠ .finish := by
  induction segments generalizing offset with
  | nil => cases within
  | cons segment segments ih =>
      rcases List.mem_append.1 within with here | there
      · exact Segment.token?_ne_finish (Option.mem_toList.1 here)
      · exact ih there

theorem Segmented.ofText_eq {text : List Char} {segments : List Segment}
    (segmented : Segmented text segments) : Token.ofText text =
      match (Segment.gather Segment.malformed? 0 segments).head?,
        (Segment.gather Segment.stray? 0 segments).head? with
      | some fault, _ => .error fault
      | none, some fault => .error (.arithmetic fault)
      | none, none => .ok (Segment.tokens segments) := by
  unfold Token.ofText
  rw [segmented.scanFrom_eq]
  unfold Segment.scanned Segment.tokens
  rw [Nat.zero_add]
  cases (Segment.gather Segment.malformed? 0 segments).head? with
  | some fault => rfl
  | none => cases (Segment.gather Segment.stray? 0 segments).head? <;> rfl

theorem ofText_eq_ok {text : List Char} {tokens : List Token} (scanned : Token.ofText text = .ok tokens) :
    ∃ body last, tokens = body ++ [last] ∧ last.symbol = .finish ∧
      ∀ token ∈ body, token.symbol ≠ .finish := by
  obtain ⟨segments, segmented⟩ := exists_segmented text
  rw [segmented.ofText_eq] at scanned
  split at scanned <;> cases scanned
  exact ⟨_, _, rfl, rfl, fun token => ne_finish_of_gather⟩

end Formulary
