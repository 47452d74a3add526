import Formulary.Expression.Cursor
import Formulary.Proofs.Tiling

/-!
The cursor against the scanner. It walks from segment to segment, so that each slice it takes is one of
characters, and after finitely many turns it has what the scanner has.
-/

namespace Formulary

namespace Text

theorem bytes_append (front back : List Char) : bytes (front ++ back) = bytes front ++ bytes back :=
  List.flatMap_append

theorem length_bytes (text : List Char) : (bytes text).length = size text := by
  induction text with
  | nil => rfl
  | cons c rest ih =>
      rw [bytes, List.flatMap_cons, List.length_append, String.length_utf8EncodeChar, size_cons]
      exact congrArg _ ih

theorem drop_bytes (before text : List Char) : (bytes (before ++ text)).drop (size before) = bytes text := by
  rw [bytes_append, ← length_bytes, List.drop_left]

theorem getElem?_bytes (before text : List Char) :
    (bytes (before ++ text))[size before]? = (bytes text).head? := by
  rw [← drop_bytes before text, List.head?_drop]

theorem exists_encoded (c : Char) : ∃ first more, String.utf8EncodeChar c = first :: more ∧
    (c.toNat < 128 ∧ first.toNat = c.toNat ∧ more = [] ∨ 128 ≤ c.toNat ∧ 128 ≤ first.toNat) := by
  have value : c.val.toNat = c.toNat := rfl
  unfold String.utf8EncodeChar
  dsimp only
  rw [value]
  split
  · refine ⟨_, _, rfl, .inl ⟨by omega, ?_, rfl⟩⟩
    rw [UInt8.toNat_ofNat']
    omega
  · split
    · refine ⟨_, _, rfl, .inr ⟨by omega, ?_⟩⟩
      rw [UInt8.toNat_ofNat']
      omega
    · split
      · refine ⟨_, _, rfl, .inr ⟨by omega, ?_⟩⟩
        rw [UInt8.toNat_ofNat']
        omega
      · refine ⟨_, _, rfl, .inr ⟨by omega, ?_⟩⟩
        rw [UInt8.toNat_ofNat']
        omega

theorem utf8Size_of_lt {c : Char} (low : c.toNat < 128) : c.utf8Size = 1 := by
  obtain ⟨first, more, encoded, ⟨_, _, rfl⟩ | ⟨high, _⟩⟩ := exists_encoded c
  · rw [← String.length_utf8EncodeChar, encoded]
    rfl
  · omega

theorem size_of_lt {text : List Char} (low : ∀ c ∈ text, c.toNat < 128) : size text = text.length := by
  induction text with
  | nil => rfl
  | cons c rest ih =>
      obtain ⟨first, later⟩ := List.forall_mem_cons.1 low
      rw [size_cons, utf8Size_of_lt first, ih later, List.length_cons, Nat.add_comm]

end Text

namespace Cursor

open Decimal

/-- Whether a test of bytes finds the same characters as a test of characters, all of one byte. -/
structure Finds (onBytes : UInt8 → Bool) (onChars : Char → Bool) : Prop where
  low : ∀ {byte : UInt8} {c : Char}, byte.toNat = c.toNat → onBytes byte = onChars c
  high : ∀ {byte : UInt8}, 128 ≤ byte.toNat → onBytes byte = false
  none : ∀ {c : Char}, 128 ≤ c.toNat → onChars c = false

theorem finds_byte {d : Char} (single : d.toNat < 128) : Finds (isByte d) (· = d) where
  low same := by
    unfold isByte
    rw [same, decide_eq_decide]
    exact Char.toNat_inj
  high above := by
    unfold isByte
    rw [decide_eq_false_iff_not]
    omega
  none above := by
    rw [decide_eq_false_iff_not]
    rintro rfl
    omega

theorem finds_digit : Finds isDigitByte isDigit where
  low same := by
    unfold isDigitByte
    rw [same]
    rfl
  high {byte} above := by
    have below : ¬ byte.toNat ≤ '9'.toNat := by
      intro low
      have nine : '9'.toNat = 57 := rfl
      omega
    unfold isDigitByte
    rw [decide_eq_false below, Bool.and_false]
  none {c} above := by
    have below : ¬ c ≤ '9' := by
      intro low
      have low : c.toNat ≤ 57 := low
      omega
    unfold isDigit
    rw [decide_eq_false below, Bool.and_false]

section Finds

variable {onBytes : UInt8 → Bool} {onChars : Char → Bool} {before text : List Char}

theorem Finds.or {onBytes' : UInt8 → Bool} {onChars' : Char → Bool} (finds : Finds onBytes onChars)
    (also : Finds onBytes' onChars') :
    Finds (fun byte => onBytes byte || onBytes' byte) (fun c => onChars c || onChars' c) where
  low same := by rw [finds.low same, also.low same]
  high above := by rw [finds.high above, also.high above, Bool.false_or]
  none above := by rw [finds.none above, also.none above, Bool.false_or]

theorem Finds.takeWhile (finds : Finds onBytes onChars) (text : List Char) :
    ((Text.bytes text).takeWhile onBytes).length = (text.takeWhile onChars).length := by
  induction text with
  | nil => rfl
  | cons c rest ih =>
      rw [Text.bytes, List.flatMap_cons]
      obtain ⟨first, more, encoded, ⟨_, same, rfl⟩ | ⟨above, high⟩⟩ := Text.exists_encoded c
      · rw [encoded, List.singleton_append, List.takeWhile_cons, List.takeWhile_cons, finds.low same]
        cases onChars c with
        | false => rfl
        | true => exact congrArg Nat.succ ih
      · rw [encoded, List.cons_append, List.takeWhile_cons, List.takeWhile_cons, finds.high high,
          finds.none above]
        rfl

theorem Finds.head? (finds : Finds onBytes onChars) :
    (Text.bytes (before ++ text))[Text.size before]?.any onBytes = text.head?.any onChars := by
  rw [Text.getElem?_bytes]
  cases text with
  | nil => rfl
  | cons c rest =>
      rw [Text.bytes, List.flatMap_cons]
      obtain ⟨first, more, encoded, ⟨_, same, _⟩ | ⟨above, high⟩⟩ := Text.exists_encoded c
      · rw [encoded, List.cons_append]
        exact finds.low same
      · rw [encoded, List.cons_append]
        exact (finds.high high).trans (finds.none above).symm

end Finds

variable {before text : List Char}

theorem pastDigits_eq : pastDigits (Text.bytes (before ++ text)) (Text.size before) =
    Text.size (before ++ text.takeWhile isDigit) := by
  have single : ∀ c ∈ text.takeWhile isDigit, c.toNat < 128 := by
    intro c within
    by_contra above
    have digit := List.mem_takeWhile_imp within
    rw [finds_digit.none (Nat.le_of_not_lt above)] at digit
    cases digit
  unfold pastDigits
  rw [Text.drop_bytes, finds_digit.takeWhile, Text.size_append, Text.size_of_lt single]

theorem pastExponent_digits (mark : Char) (sign : Option Char) {lead more : List Char}
    (leads : lead = mark :: sign.toList) :
    (if (Text.bytes (before ++ (lead ++ more)))[Text.size (before ++ lead)]?.any isDigitByte then
        pastDigits (Text.bytes (before ++ (lead ++ more))) (Text.size (before ++ lead))
      else Text.size before) =
    Text.size (before ++ Exponent.written (Exponent.ofDigits? mark sign more)) := by
  rw [← List.append_assoc, finds_digit.head?, pastDigits_eq]
  unfold Exponent.ofDigits?
  cases more with
  | nil => simp [Exponent.written]
  | cons c rest =>
      cases digit : isDigit c with
      | false => simp [digit, Exponent.written]
      | true => simp [digit, Exponent.written, Exponent.text, leads]

theorem pastExponent_eq : pastExponent (Text.bytes (before ++ text)) (Text.size before) =
    Text.size (before ++ Exponent.written (Exponent.scan text)) := by
  have mark := (finds_byte (d := 'e') (by decide)).or (finds_byte (d := 'E') (by decide))
  have sign := (finds_byte (d := '+') (by decide)).or (finds_byte (d := '-') (by decide))
  unfold pastExponent
  rw [mark.head?]
  cases text with
  | nil => simp [Exponent.scan, Exponent.written]
  | cons c rest =>
      rw [Exponent.scan_cons]
      by_cases marked : c = 'e' ∨ c = 'E'
      · have place : Text.size before + 1 = Text.size (before ++ [c]) := by
          rcases marked with rfl | rfl <;> simp [Char.utf8Size]
        have signed : (Text.bytes (before ++ c :: rest))[Text.size before + 1]?.any
            (fun byte => isByte '+' byte || isByte '-' byte) =
              rest.head?.any fun d => decide (d = '+') || decide (d = '-') := by
          rw [List.append_cons, place, sign.head?]
        rw [if_pos marked, List.head?_cons, Option.any_some, if_pos (by simpa using marked), signed]
        cases rest with
        | nil =>
            rw [List.head?_nil, Option.any_none, if_neg Bool.false_ne_true, place]
            exact @pastExponent_digits before c none [c] [] rfl
        | cons d more =>
            rw [List.head?_cons, Option.any_some]
            by_cases signs : d = '+' ∨ d = '-'
            · have found : (decide (d = '+') || decide (d = '-')) = true := by simpa using signs
              have second : Text.size before + 2 = Text.size (before ++ [c, d]) := by
                rw [List.append_cons, Text.size_append, ← place]
                rcases signs with rfl | rfl <;> simp [Char.utf8Size]
              rw [if_pos found, second]
              dsimp only
              rw [if_pos signs]
              exact @pastExponent_digits before c (some d) [c, d] more rfl
            · have found : ¬(decide (d = '+') || decide (d = '-')) = true := by simpa using signs
              rw [if_neg found, place]
              dsimp only
              rw [if_neg signs]
              exact @pastExponent_digits before c none [c] (d :: more) rfl
      · rw [if_neg marked, List.head?_cons, Option.any_some, if_neg (by simpa using marked)]
        simp [Exponent.written]

theorem pastNumber_eq : pastNumber (Text.bytes (before ++ text)) (Text.size before) =
    Text.size (before ++ (Literal.scan text).text) := by
  have digits {front rest : List Char} : front ++ rest.takeWhile isDigit ++ rest.dropWhile isDigit =
      front ++ rest := by
    rw [List.append_assoc, List.takeWhile_append_dropWhile]
  unfold pastNumber
  dsimp only
  rw [pastDigits_eq, ← @digits before text, (finds_byte (d := '.') (by decide)).head?, Literal.scan_eq]
  by_cases pointed : (text.dropWhile isDigit).head? = some '.'
  · obtain ⟨rest, behind⟩ := List.head?_eq_some_iff.1 pointed
    have place : Text.size (before ++ text.takeWhile isDigit) + 1 =
        Text.size (before ++ text.takeWhile isDigit ++ ['.']) := by
      simp [Char.utf8Size, Nat.add_assoc]
    rw [behind, List.head?_cons, Option.any_some, if_pos (decide_eq_true rfl), place, List.append_cons,
      pastDigits_eq, ← digits, pastExponent_eq]
    simp [Literal.behind, Literal.text, Exponent.written]
  · have none : (text.dropWhile isDigit).head?.any (fun c => decide (c = '.')) = false := by
      cases head : (text.dropWhile isDigit).head? with
      | none => rfl
      | some c =>
          rw [head] at pointed
          simpa using pointed
    rw [Literal.behind_of_pointless pointed, none, if_neg Bool.false_ne_true, pastExponent_eq]
    simp [Literal.text, Exponent.written]

theorem valueOf?_literal {number : Literal} {rest : List Char}
    (longest : Literal.scan (number.text ++ rest) = number) :
    valueOf? number.text = number.value?.filter (·.isFinite) := by
  have alone : Literal.scan number.text = number := by
    rw [@Literal.scan_of_fits number.text rest (by rw [longest]), longest]
  unfold valueOf?
  rw [alone]
  exact if_pos rfl

theorem brace?_of_braceless {inside after : List Char} {c : Char} (bare : Braceless inside)
    (brace : Lexeme.isBrace c = true) : brace? (inside ++ c :: after) = some (Text.size inside) := by
  have passes : ∀ d ∈ inside, (!Lexeme.isBrace d) = true := by
    intro d within
    rw [bare d within]
    rfl
  unfold brace?
  rw [if_pos (by simp [brace]), List.takeWhile_append_of_pos passes]
  simp [brace]

theorem brace?_eq_some {rest : List Char} {offset : Nat} (found : brace? rest = some offset) :
    ∃ inside c after, Braceless inside ∧ Lexeme.isBrace c = true ∧ rest = inside ++ c :: after := by
  unfold brace? at found
  split at found
  · rename_i some
    obtain ⟨c, within, brace⟩ := List.any_eq_true.1 some
    cases behind : rest.dropWhile (!Lexeme.isBrace ·) with
    | nil =>
        have passes := List.dropWhile_eq_nil_iff.1 behind c within
        rw [brace] at passes
        cases passes
    | cons d after =>
        refine ⟨rest.takeWhile (!Lexeme.isBrace ·), d, after, ?_, ?_, ?_⟩
        · intro e before
          simpa using List.mem_takeWhile_imp before
        · have first := List.head?_dropWhile_not (!Lexeme.isBrace ·) rest
          rw [behind] at first
          simpa using first
        · rw [← behind, List.takeWhile_append_dropWhile]
  · cases found

theorem cut?_opening (before rest : List Char) :
    Text.cut? (Text.size before + 1) (before ++ '\x7b' :: rest) = some (before ++ ['\x7b'], rest) :=
  Text.cut?_eq_some_iff.2 ⟨List.append_cons before '\x7b' rest, by simp [Char.utf8Size]⟩

theorem pastBraces_eq {before inside after : List Char} {c : Char} (bare : Braceless inside)
    (brace : Lexeme.isBrace c = true) :
    pastBraces (before ++ '\x7b' :: (inside ++ c :: after)) (Text.size before) =
      some (if c = '\x7d' then some (Text.size before + 1 + Text.size inside + 1) else none) := by
  unfold pastBraces
  rw [cut?_opening]
  dsimp only [bind, Option.bind]
  rw [brace?_of_braceless bare brace]
  dsimp only
  rw [Text.cut?_append]
  simp

theorem pastBraces_unpaired {before rest : List Char}
    (unpaired : ∀ inside after, Braceless inside → rest ≠ inside ++ '\x7d' :: after) :
    pastBraces (before ++ '\x7b' :: rest) (Text.size before) = some none := by
  cases found : brace? rest with
  | none =>
      unfold pastBraces
      rw [cut?_opening]
      dsimp only [bind, Option.bind]
      rw [found]
  | some offset =>
      obtain ⟨inside, c, after, bare, brace, rfl⟩ := brace?_eq_some found
      rw [pastBraces_eq bare brace, if_neg]
      rintro rfl
      exact unpaired inside after bare rfl

def turnOver (segment : Segment) (cursor : Cursor) : Turn :=
  let stop := cursor.place + Text.size segment.text
  match segment.lexeme? cursor.place with
  | none => cursor.pass stop
  | some (.token symbol) => cursor.take symbol stop
  | some (.stray fault) => cursor.refuse fault stop
  | some (.malformed reason) =>
    .ends (.error (.malformedReference segment.text ⟨cursor.place, stop⟩ reason))

section Segments

variable {before rest : List Char} {tokens : List Token} {fault? : Option ArithmeticFault}

theorem turn?_cons (c : Char) :
    turn? (before ++ c :: rest) ⟨Text.size before, tokens, fault?⟩ =
      turnAt (before ++ c :: rest) c ⟨Text.size before, tokens, fault?⟩ := by
  unfold turn?
  rw [Text.cut?_append]

theorem turn?_braced {inside : List Char} (bare : Braceless inside) :
    turn? (before ++ ((Segment.braced inside).text ++ rest)) ⟨Text.size before, tokens, fault?⟩ =
      some (turnOver (.braced inside) ⟨Text.size before, tokens, fault?⟩) := by
  have stop : pastBraces (before ++ ((Segment.braced inside).text ++ rest)) (Text.size before) =
      some (some (Text.size before + Text.size (Segment.braced inside).text)) := by
    have next := @pastBraces_eq before inside rest '\x7d' bare rfl
    simp only [Segment.text, List.cons_append, List.append_assoc, List.nil_append]
    rw [next, if_pos rfl]
    simp only [Text.size_cons, Text.size_append, Text.size_nil, Option.some.injEq, show '\x7b'.utf8Size = 1 from rfl,
      show '\x7d'.utf8Size = 1 from rfl]
    omega
  have snippet : Text.slice? (Text.size before)
      (Text.size before + Text.size (Segment.braced inside).text)
      (before ++ ((Segment.braced inside).text ++ rest)) = some (Segment.braced inside).text := by
    rw [← List.append_assoc, Text.slice?_append]
  have brace : turn? (before ++ ((Segment.braced inside).text ++ rest)) ⟨Text.size before, tokens, fault?⟩ =
      turnAtBrace (before ++ ((Segment.braced inside).text ++ rest)) ⟨Text.size before, tokens, fault?⟩ :=
    turn?_cons '\x7b'
  rw [brace]
  unfold turnAtBrace
  dsimp only
  rw [stop]
  dsimp only [bind, Option.bind]
  rw [snippet]
  unfold turnOver
  dsimp only [Segment.lexeme?]
  cases Reference.read (Segment.braced inside).text <;> rfl

theorem turn?_literal {number : Literal} (starts : number.text.head?.any startsLiteral = true)
    (longest : Literal.scan (number.text ++ rest) = number) :
    turn? (before ++ (number.text ++ rest)) ⟨Text.size before, tokens, fault?⟩ =
      some (turnOver (.literal number) ⟨Text.size before, tokens, fault?⟩) := by
  have stop : pastNumber (Text.bytes (before ++ (number.text ++ rest))) (Text.size before) =
      Text.size before + Text.size number.text := by
    rw [pastNumber_eq, longest, Text.size_append]
  have literal : Text.slice? (Text.size before) (Text.size before + Text.size number.text)
      (before ++ (number.text ++ rest)) = some number.text := by
    rw [← List.append_assoc, Text.slice?_append]
  obtain ⟨c, more, text⟩ : ∃ c more, number.text = c :: more := by
    cases text : number.text with
    | nil =>
        rw [text] at starts
        cases starts
    | cons c more => exact ⟨c, more, rfl⟩
  have first : startsLiteral c = true := by
    rw [text] at starts
    exact starts
  have ordinary : c ≠ '\x7b' := by
    rintro rfl
    cases first
  have at_number : turn? (before ++ (number.text ++ rest)) ⟨Text.size before, tokens, fault?⟩ =
      turnAtNumber (before ++ (number.text ++ rest)) ⟨Text.size before, tokens, fault?⟩ := by
    rw [text, List.cons_append, turn?_cons, turnAt, isBlank_of_startsLiteral first,
      Lexeme.ofChar?_of_startsLiteral first, first]
    simp [ordinary]
  rw [at_number]
  unfold turnAtNumber
  dsimp only
  rw [stop, literal]
  dsimp only [bind, Option.bind]
  rw [valueOf?_literal longest]
  unfold turnOver
  dsimp only [Segment.lexeme?, Segment.text]
  unfold Lexeme.ofLiteral
  cases number.value? with
  | none => rfl
  | some value => cases finite : value.isFinite <;> simp [Option.filter_some, finite]

theorem turn?_single {c : Char} (visible : Text.isBlank c = false) (other : startsLiteral c = false)
    (unpaired : c = '\x7b' → ∀ inside after, Braceless inside → rest ≠ inside ++ '\x7d' :: after) :
    turn? (before ++ c :: rest) ⟨Text.size before, tokens, fault?⟩ =
      some (turnOver (.single c) ⟨Text.size before, tokens, fault?⟩) := by
  rw [turn?_cons, turnAt, visible, if_neg Bool.false_ne_true, other]
  unfold turnOver
  dsimp only [Segment.lexeme?]
  cases known : Symbol.ofChar? c with
  | some symbol =>
      have size : c.utf8Size = 1 := by
        unfold Symbol.ofChar? at known
        split at known <;> first | rfl | cases known
      simp [Segment.text, size]
  | none =>
      dsimp only
      by_cases opens : c = '\x7b'
      · subst opens
        rw [if_pos rfl]
        unfold turnAtBrace
        dsimp only
        rw [pastBraces_unpaired (unpaired rfl)]
        simp [Segment.text, Char.utf8Size]
      · rw [if_neg opens, if_neg Bool.false_ne_true]
        simp [Segment.text]

end Segments

theorem turn?_segment {segment : Segment} {before rest : List Char} {cursor : Cursor}
    (stands : segment.Stands rest) (here : cursor.place = Text.size before) :
    cursor.turn? (before ++ (segment.text ++ rest)) = some (cursor.turnOver segment) := by
  obtain ⟨place, tokens, fault?⟩ := cursor
  cases here
  cases stands with
  | @blank c white =>
      simp only [Segment.text, List.singleton_append]
      rw [turn?_cons, turnAt, if_pos white]
      rfl
  | braced bare => exact turn?_braced bare
  | literal starts longest => exact turn?_literal starts longest
  | single visible other unpaired => exact turn?_single visible other unpaired

def settled (cursor : Cursor)
    (following : Except ExpressionFault (Except ArithmeticFault (List Token))) :
    Except ExpressionFault (List Token) :=
  match following, cursor.fault? with
  | .error fault, _ => .error fault
  | .ok _, some fault => .error (.arithmetic fault)
  | .ok (.error fault), none => .error (.arithmetic fault)
  | .ok (.ok tokens), none => .ok (cursor.tokens ++ tokens)

theorem settled_of_ends {segment : Segment} {cursor : Cursor}
    {answer : Except ExpressionFault (List Token)}
    {following : Except ExpressionFault (Except ArithmeticFault (List Token))}
    (turned : cursor.turnOver segment = .ends answer) :
    cursor.settled ((segment.lexeme? cursor.place).elim following (Lexeme.followed segment.text
      ⟨cursor.place, cursor.place + Text.size segment.text⟩ following)) = answer := by
  unfold turnOver at turned
  cases found : segment.lexeme? cursor.place with
  | none => simp [found, pass] at turned
  | some lexeme =>
      cases lexeme with
      | token symbol => simp [found, take] at turned
      | stray fault => simp [found, refuse] at turned
      | malformed reason =>
          simp only [found, Turn.ends.injEq] at turned
          rw [← turned]
          rfl

theorem settled_of_goes {segment : Segment} {cursor next : Cursor}
    {following : Except ExpressionFault (Except ArithmeticFault (List Token))}
    (turned : cursor.turnOver segment = .goes next) :
    next.place = cursor.place + Text.size segment.text ∧
      cursor.settled ((segment.lexeme? cursor.place).elim following (Lexeme.followed segment.text
        ⟨cursor.place, cursor.place + Text.size segment.text⟩ following)) = next.settled following := by
  obtain ⟨place, tokens, fault?⟩ := cursor
  unfold turnOver at turned
  cases found : segment.lexeme? place with
  | none =>
      simp only [found, pass, Turn.goes.injEq] at turned
      rw [← turned]
      exact ⟨rfl, rfl⟩
  | some lexeme =>
      cases lexeme with
      | malformed reason => simp [found] at turned
      | token symbol =>
          simp only [found, take, Turn.goes.injEq] at turned
          rw [← turned]
          refine ⟨rfl, ?_⟩
          rcases following with fault | fault | more <;> cases fault? <;>
            simp [settled, Lexeme.followed, Except.map]
      | stray fault =>
          simp only [found, refuse, Turn.goes.injEq] at turned
          rw [← turned]
          refine ⟨rfl, ?_⟩
          rcases following with fault | fault | more <;> cases fault? <;> rfl

section Runs

variable {text : List Char} {cursor next : Cursor}
  {outcome : Option (Except ExpressionFault (List Token))}

theorem leads_of_ends {answer : Except ExpressionFault (List Token)}
    (last : cursor.turn? text = some (.ends answer)) :
    Leads text cursor outcome ↔ outcome = some answer := by
  constructor
  · intro leads
    cases leads with
    | lost nothing => simp [last] at nothing
    | done last' =>
        rw [last] at last'
        cases last'
        rfl
    | on turns later => simp [last] at turns
  · rintro rfl
    exact .done last

theorem leads_of_goes (turns : cursor.turn? text = some (.goes next)) :
    Leads text cursor outcome ↔ Leads text next outcome := by
  constructor
  · intro leads
    cases leads with
    | lost nothing => simp [turns] at nothing
    | done last => simp [turns] at last
    | on turns' later =>
        rw [turns] at turns'
        cases turns'
        exact later
  · exact .on turns

theorem leads_segmented {before rest : List Char} {segments : List Segment}
    (segmented : Segmented rest segments) (here : cursor.place = Text.size before) :
    Leads (before ++ rest) cursor outcome ↔
      outcome = some (cursor.settled (Token.scanFrom cursor.place rest)) := by
  induction segmented generalizing before cursor with
  | nil =>
      have ahead : turn? (before ++ []) cursor = some (cursor.finish cursor.place) := by
        unfold turn?
        rw [here, Text.cut?_append, List.append_nil]
      have last : turn? (before ++ []) cursor =
          some (.ends (cursor.settled (Token.scanFrom cursor.place []))) := by
        rw [ahead, Token.scanFrom]
        unfold finish settled
        cases cursor.fault? <;> rfl
      exact leads_of_ends last
  | @cons segment rest segments stands later ih =>
      have turns := turn?_segment stands here
      rw [scanFrom_segment stands]
      cases turned : cursor.turnOver segment with
      | ends answer =>
          rw [turned] at turns
          rw [leads_of_ends turns, settled_of_ends turned]
      | goes next =>
          obtain ⟨place, settled⟩ := settled_of_goes turned
          have there : next.place = Text.size (before ++ segment.text) := by
            rw [place, here, Text.size_append]
          rw [turned] at turns
          rw [leads_of_goes turns, ← List.append_assoc, ih there, settled, place]

end Runs

theorem leads_iff {text : List Char} {outcome : Option (Except ExpressionFault (List Token))} :
    Leads text start outcome ↔ outcome = some (Token.ofText text) := by
  obtain ⟨segments, segmented⟩ := exists_segmented text
  have same : start.settled (Token.scanFrom 0 text) = Token.ofText text := by
    unfold Token.ofText
    rcases Token.scanFrom 0 text with fault | fault | tokens <;> rfl
  rw [← same]
  exact @leads_segmented start outcome [] text segments segmented rfl

end Cursor

end Formulary
