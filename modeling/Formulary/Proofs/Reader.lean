import Formulary.Proofs.Numeral

/-!
What the JSON readers take off a text, and that each of them leaves an end of it.
-/

namespace Formulary.Json

variable {text rest : List Char}

theorem skipBlanks_suffix (text : List Char) : skipBlanks text <:+ text :=
  List.dropWhile_suffix isBlank

theorem skipBlanks_cons {c : Char} (visible : isBlank c = false) :
    skipBlanks (c :: text) = c :: text := by
  unfold skipBlanks
  rw [List.dropWhile_cons_of_neg (by simp [visible])]

theorem suffix_of_skipBlanks {c : Char} (skipped : skipBlanks text = c :: rest) : rest <:+ text :=
  (List.suffix_cons c rest).trans (skipped ▸ skipBlanks_suffix text)

theorem gives_visible {α : Type} {whole : List Char} {failure : Failure} {value : α}
    {next : ∀ c inside, skipBlanks text = c :: inside → Except Failure (Reading α whole)} :
    Gives (match skipped : skipBlanks text with
      | [] => .error failure
      | c :: inside => next c inside skipped) value rest ↔
      ∃ c inside, ∃ skipped : skipBlanks text = c :: inside,
        Gives (next c inside skipped) value rest := by
  constructor
  · intro gives
    split at gives
    · cases gives_error.1 gives
    · exact ⟨_, _, _, gives⟩
  · rintro ⟨c, inside, skipped, gives⟩
    split
    · rename_i blank
      cases skipped.symm.trans blank
    · rename_i found
      cases skipped.symm.trans found
      exact gives

theorem readText_plain {c : Char} (quote : c ≠ '"') (escape : c ≠ '\\') (printable : 0x20 ≤ c.toNat)
    {value : List Char} : Gives (readText (c :: text)) value rest ↔
      ∃ more, value = c :: more ∧ Gives (readText text) more rest := by
  rw [readText, if_neg quote, if_neg escape, if_neg (Nat.not_lt.2 printable), gives_bind]
  constructor
  · rintro ⟨more, between, given, later⟩
    obtain ⟨rfl, rfl⟩ := gives_pure.1 later
    exact ⟨more, rfl, given⟩
  · rintro ⟨more, rfl, given⟩
    exact ⟨more, rest, given, gives_pure.2 ⟨rfl, rfl⟩⟩

theorem readText_front {front : List Char}
    (plain : ∀ c ∈ front, c ≠ '"' ∧ c ≠ '\\' ∧ 0x20 ≤ c.toNat) :
    Gives (readText (front ++ '"' :: rest)) front rest := by
  induction front with
  | nil =>
      rw [List.nil_append, readText, if_pos rfl]
      exact gives_ok.2 ⟨rfl, rfl⟩
  | cons c front ih =>
      obtain ⟨⟨quote, escape, printable⟩, plain⟩ := List.forall_mem_cons.1 plain
      exact (readText_plain quote escape printable).2 ⟨front, rfl, ih plain⟩

theorem readText_iff (unescaped : '\\' ∉ text) {value : List Char} :
    Gives (readText text) value rest ↔
      text = value ++ '"' :: rest ∧ '"' ∉ value ∧ ∀ c ∈ value, 0x20 ≤ c.toNat := by
  constructor
  · intro gives
    induction text generalizing value with
    | nil =>
        rw [readText] at gives
        cases gives_error.1 gives
    | cons c text ih =>
        obtain ⟨escape, unescaped⟩ := not_or.1 (mt List.mem_cons.2 unescaped)
        by_cases quote : c = '"'
        · rw [readText, if_pos quote] at gives
          obtain ⟨rfl, rfl⟩ := gives_ok.1 gives
          simp [quote]
        · by_cases printable : 0x20 ≤ c.toNat
          · obtain ⟨more, rfl, given⟩ := (readText_plain quote (Ne.symm escape) printable).1 gives
            obtain ⟨rfl, unquoted, fine⟩ := ih unescaped given
            refine ⟨rfl, ?_, List.forall_mem_cons.2 ⟨printable, fine⟩⟩
            exact mt List.mem_cons.1 (not_or.2 ⟨Ne.symm quote, unquoted⟩)
          · rw [readText, if_neg quote, if_neg (Ne.symm escape), if_pos (Nat.not_le.1 printable)]
              at gives
            cases gives_error.1 gives
  · rintro ⟨rfl, unquoted, printable⟩
    refine readText_front fun c within => ⟨?_, ?_, printable c within⟩
    · rintro rfl
      exact unquoted within
    · rintro rfl
      exact unescaped (List.mem_append_left _ within)

variable {item : Reader Json}

theorem readField_iff {field : String × Json} :
    Gives (readField item text) field rest ↔
      ∃ key between inside, Gives (readText text) key between ∧ skipBlanks between = ':' :: inside ∧
        Gives (item inside) field.2 rest ∧ field.1 = .ofList key := by
  unfold readField
  rw [gives_bind]
  constructor
  · rintro ⟨key, between, given, later⟩
    obtain ⟨c, inside, skipped, later⟩ := gives_visible.1 later
    obtain ⟨colon, later⟩ := gives_unless.1 later
    obtain ⟨value, after, read, same⟩ := gives_bind.1 later
    obtain ⟨rfl, rfl⟩ := gives_pure.1 same
    rw [Decidable.not_not.1 colon] at skipped
    exact ⟨key, between, inside, given, skipped, read, rfl⟩
  · rintro ⟨key, between, inside, given, skipped, read, same⟩
    refine ⟨key, between, given, gives_visible.2 ⟨_, _, skipped, gives_unless.2 ⟨by decide, ?_⟩⟩⟩
    exact gives_bind.2 ⟨field.2, rest, read, gives_pure.2 ⟨Prod.ext same.symm rfl, rfl⟩⟩

theorem readFields_iff {fields : List (String × Json)} :
    Gives (readFields item text) fields rest ↔
      (skipBlanks text = '\x7d' :: rest ∧ fields = []) ∨
      ∃ later tail head between more, skipBlanks text = ',' :: later ∧
        skipBlanks later = '"' :: tail ∧ Gives (readField item tail) head between ∧
        Gives (readFields item between) more rest ∧ fields = head :: more := by
  rw [readFields]
  refine gives_visible.trans ?_
  constructor
  · rintro ⟨c, later, skipped, gives⟩
    rcases gives_ite.1 gives with ⟨rfl, gives⟩ | ⟨_, gives⟩
    · obtain ⟨rfl, rfl⟩ := gives_ok.1 gives
      exact .inl ⟨skipped, rfl⟩
    · obtain ⟨comma, gives⟩ := gives_unless.1 gives
      obtain rfl := Decidable.not_not.1 comma
      obtain ⟨d, tail, next, gives⟩ := gives_visible.1 gives
      obtain ⟨_, gives⟩ := gives_unless.1 gives
      obtain ⟨quote, gives⟩ := gives_unless.1 gives
      obtain rfl := Decidable.not_not.1 quote
      obtain ⟨head, between, first, gives⟩ := gives_bind.1 gives
      obtain ⟨more, after, following, gives⟩ := gives_bind.1 gives
      obtain ⟨rfl, rfl⟩ := gives_pure.1 gives
      exact .inr ⟨later, tail, head, between, more, skipped, next, first, following, rfl⟩
  · rintro (⟨skipped, rfl⟩ |
      ⟨later, tail, head, between, more, skipped, next, first, following, rfl⟩)
    · exact ⟨_, _, skipped, gives_ite.2 (.inl ⟨rfl, gives_ok.2 ⟨rfl, rfl⟩⟩)⟩
    · refine ⟨_, _, skipped, gives_ite.2 (.inr ⟨by decide, gives_unless.2 ⟨by decide, ?_⟩⟩)⟩
      refine gives_visible.2 ⟨_, _, next, ?_⟩
      refine gives_unless.2 ⟨by decide, gives_unless.2 ⟨by decide, ?_⟩⟩
      exact gives_bind.2 ⟨head, between, first,
        gives_bind.2 ⟨more, rest, following, gives_pure.2 ⟨rfl, rfl⟩⟩⟩

theorem readObject_iff {fields : List (String × Json)} :
    Gives (readObject item text) fields rest ↔
      (skipBlanks text = '\x7d' :: rest ∧ fields = []) ∨
      ∃ tail head between more, skipBlanks text = '"' :: tail ∧
        Gives (readField item tail) head between ∧
        Gives (readFields item between) more rest ∧ fields = head :: more := by
  rw [readObject]
  refine gives_visible.trans ?_
  constructor
  · rintro ⟨c, tail, skipped, gives⟩
    rcases gives_ite.1 gives with ⟨rfl, gives⟩ | ⟨_, gives⟩
    · obtain ⟨rfl, rfl⟩ := gives_ok.1 gives
      exact .inl ⟨skipped, rfl⟩
    · obtain ⟨quote, gives⟩ := gives_unless.1 gives
      obtain rfl := Decidable.not_not.1 quote
      obtain ⟨head, between, first, gives⟩ := gives_bind.1 gives
      obtain ⟨more, after, following, gives⟩ := gives_bind.1 gives
      obtain ⟨rfl, rfl⟩ := gives_pure.1 gives
      exact .inr ⟨tail, head, between, more, skipped, first, following, rfl⟩
  · rintro (⟨skipped, rfl⟩ | ⟨tail, head, between, more, skipped, first, following, rfl⟩)
    · exact ⟨_, _, skipped, gives_ite.2 (.inl ⟨rfl, gives_ok.2 ⟨rfl, rfl⟩⟩)⟩
    · refine ⟨_, _, skipped, gives_ite.2 (.inr ⟨by decide, gives_unless.2 ⟨by decide, ?_⟩⟩)⟩
      exact gives_bind.2 ⟨head, between, first,
        gives_bind.2 ⟨more, rest, following, gives_pure.2 ⟨rfl, rfl⟩⟩⟩

section Entries

variable {key : List Char} (plain : ∀ c ∈ key, c ≠ '"' ∧ c ≠ '\\' ∧ 0x20 ≤ c.toNat)

include plain

theorem readField_entry {field : String × Json} :
    Gives (readField item (key ++ '"' :: ':' :: text)) field rest ↔
      Gives (item text) field.2 rest ∧ field.1 = .ofList key := by
  rw [readField_iff]
  constructor
  · rintro ⟨found, between, inside, read, skipped, value, same⟩
    obtain ⟨rfl, rfl⟩ := read.unique (readText_front plain)
    cases skipped
    exact ⟨value, same⟩
  · rintro ⟨value, same⟩
    exact ⟨key, _, text, readText_front plain, rfl, value, same⟩

theorem readObject_entry {fields : List (String × Json)} :
    Gives (readObject item ('"' :: (key ++ '"' :: ':' :: text))) fields rest ↔
      ∃ value between more, Gives (item text) value between ∧
        Gives (readFields item between) more rest ∧ fields = (.ofList key, value) :: more := by
  rw [readObject_iff]
  constructor
  · rintro (⟨skipped, _⟩ | ⟨tail, ⟨_, value⟩, between, more, skipped, first, following, same⟩)
    · cases skipped
    · cases skipped
      obtain ⟨read, rfl⟩ := (readField_entry plain).1 first
      exact ⟨value, between, more, read, following, same⟩
  · rintro ⟨value, between, more, read, following, same⟩
    exact .inr ⟨_, (.ofList key, value), between, more, rfl, (readField_entry plain).2 ⟨read, rfl⟩,
      following, same⟩

theorem readFields_entry {fields : List (String × Json)} :
    Gives (readFields item (',' :: ' ' :: '"' :: (key ++ '"' :: ':' :: text))) fields rest ↔
      ∃ value between more, Gives (item text) value between ∧
        Gives (readFields item between) more rest ∧ fields = (.ofList key, value) :: more := by
  rw [readFields_iff]
  constructor
  · rintro (⟨skipped, _⟩ |
      ⟨later, tail, ⟨_, value⟩, between, more, skipped, next, first, following, same⟩)
    · cases skipped
    · cases skipped
      cases next
      obtain ⟨read, rfl⟩ := (readField_entry plain).1 first
      exact ⟨value, between, more, read, following, same⟩
  · rintro ⟨value, between, more, read, following, same⟩
    exact .inr ⟨_, _, (.ofList key, value), between, more, rfl, rfl,
      (readField_entry plain).2 ⟨read, rfl⟩, following, same⟩

end Entries

theorem readFields_close {fields : List (String × Json)} :
    Gives (readFields item ('\x7d' :: text)) fields rest ↔ fields = [] ∧ rest = text := by
  rw [readFields_iff]
  constructor
  · rintro (⟨skipped, rfl⟩ | ⟨later, tail, head, between, more, skipped, _⟩)
    · cases skipped
      exact ⟨rfl, rfl⟩
    · cases skipped
  · rintro ⟨rfl, rfl⟩
    exact .inl ⟨rfl, rfl⟩

theorem readIdentifier_iff {expected : List Char} {named value : Json} :
    Passes (readIdentifier expected named text) value rest ↔
      text = expected ++ rest ∧ value = named := by
  induction expected generalizing text with
  | nil =>
      simp only [readIdentifier, passes_ok, List.nil_append]
      rw [and_comm, eq_comm (b := value)]
  | cons e expected ih =>
      cases text with
      | nil => simp [readIdentifier]
      | cons c text =>
          rw [readIdentifier]
          split
          · rename_i same
            subst same
            rw [passes_bind]
            constructor
            · rintro ⟨found, between, given, later⟩
              obtain ⟨rfl, rfl⟩ := passes_ok.1 later
              obtain ⟨split, same⟩ := ih.1 given
              exact ⟨congrArg (e :: ·) split, same⟩
            · rintro ⟨split, rfl⟩
              refine ⟨value, rest, ih.2 ⟨List.tail_eq_of_cons_eq split, rfl⟩, ?_⟩
              exact passes_ok.2 ⟨rfl, rfl⟩
          · rename_i differ
            rw [passes_error]
            simp only [false_iff, not_and]
            intro split
            exact absurd (List.head_eq_of_cons_eq split).symm differ

def words : List (Char × String × Json) :=
  [('n', "ull", .null), ('t', "rue", .boolean true), ('f', "alse", .boolean false)]

/-- What the value at the start of a text may be, by its first character behind blanks. -/
inductive Reads (depth : Nat) (text : List Char) : Json → List Char → Prop
  | word {c : Char} {letters : String} {value : Json} {rest : List Char}
      (known : (c, letters, value) ∈ words)
      (skipped : skipBlanks text = c :: letters.toList ++ rest) : Reads depth text value rest
  | text {inside value rest : List Char} (skipped : skipBlanks text = '"' :: inside)
      (read : Gives (readText inside) value rest) : Reads depth text (.text (.ofList value)) rest
  | negative {inside rest : List Char} {value : Number} (skipped : skipBlanks text = '-' :: inside)
      (read : Gives (readNumber true inside) value rest) : Reads depth text (.number value) rest
  | positive {c : Char} {inside rest : List Char} {value : Number}
      (digit : Decimal.isDigit c = true) (skipped : skipBlanks text = c :: inside)
      (read : Gives (readNumber false (c :: inside)) value rest) :
      Reads depth text (.number value) rest
  | array {below : Nat} {inside rest : List Char} {items : List Json} (deep : depth = below + 1)
      (skipped : skipBlanks text = '[' :: inside)
      (read : Gives (readArray (readValue below) inside) items rest) :
      Reads depth text (.array items) rest
  | object {below : Nat} {inside rest : List Char} {fields : List (String × Json)}
      (deep : depth = below + 1) (skipped : skipBlanks text = '\x7b' :: inside)
      (read : Gives (readObject (readValue below) inside) fields rest) :
      Reads depth text (ofFields fields) rest

theorem readValue_iff {depth : Nat} {value : Json} :
    Gives (readValue depth text) value rest ↔ Reads depth text value rest := by
  unfold readValue
  refine gives_visible.trans ?_
  constructor
  · rintro ⟨c, inside, skipped, gives⟩
    dsimp only at gives
    have word {letters : String} {named : Json} (known : (c, letters, named) ∈ words)
        {longer : ∀ read : Passing Json inside, read.rest.length < text.length}
        (gives : Gives (do
          let read ← readIdentifier letters.toList named inside
          return ⟨read.value, read.rest, longer read⟩) value rest) :
        Reads depth text value rest := by
      obtain ⟨found, between, given, gives⟩ := gives_passing.1 gives
      obtain ⟨rfl, rfl⟩ := gives_pure.1 gives
      obtain ⟨rfl, rfl⟩ := readIdentifier_iff.1 given
      exact .word known skipped
    split at gives
    · exact word (by simp [words]) gives
    · exact word (by simp [words]) gives
    · exact word (by simp [words]) gives
    · rename_i skipped
      obtain ⟨found, between, given, gives⟩ := gives_bind.1 gives
      obtain ⟨rfl, rfl⟩ := gives_pure.1 gives
      exact .text skipped given
    · rename_i skipped
      obtain ⟨found, between, given, gives⟩ := gives_bind.1 gives
      obtain ⟨rfl, rfl⟩ := gives_pure.1 gives
      exact .negative skipped given
    · rename_i skipped
      split at gives
      · cases gives_error.1 gives
      · obtain ⟨found, between, given, gives⟩ := gives_bind.1 gives
        obtain ⟨rfl, rfl⟩ := gives_pure.1 gives
        exact .array rfl skipped given
    · rename_i skipped
      split at gives
      · cases gives_error.1 gives
      · obtain ⟨found, between, given, gives⟩ := gives_bind.1 gives
        obtain ⟨rfl, rfl⟩ := gives_pure.1 gives
        exact .object rfl skipped given
    · rcases gives_ite.1 gives with ⟨digit, gives⟩ | ⟨_, gives⟩
      · obtain ⟨found, between, given, gives⟩ := gives_bind.1 gives
        obtain ⟨rfl, rfl⟩ := gives_pure.1 gives
        exact .positive digit skipped given
      · cases gives_error.1 gives
  · intro reads
    cases reads with
    | @word _ letters named _ known skipped =>
        refine ⟨_, _, skipped, ?_⟩
        have read : Passes (readIdentifier letters.toList value (letters.toList ++ rest)) value
            rest := readIdentifier_iff.2 ⟨rfl, rfl⟩
        simp only [words, List.mem_cons, Prod.mk.injEq, List.not_mem_nil, or_false] at known
        rcases known with ⟨rfl, rfl, rfl⟩ | ⟨rfl, rfl, rfl⟩ | ⟨rfl, rfl, rfl⟩
        all_goals exact gives_passing.2 ⟨_, _, read, gives_pure.2 ⟨rfl, rfl⟩⟩
    | text skipped read =>
        exact ⟨_, _, skipped, gives_bind.2 ⟨_, _, read, gives_pure.2 ⟨rfl, rfl⟩⟩⟩
    | negative skipped read =>
        exact ⟨_, _, skipped, gives_bind.2 ⟨_, _, read, gives_pure.2 ⟨rfl, rfl⟩⟩⟩
    | positive digit skipped read =>
        refine ⟨_, _, skipped, ?_⟩
        dsimp only
        split
        all_goals first | cases digit | skip
        rw [if_pos digit]
        exact gives_bind.2 ⟨_, _, read, gives_pure.2 ⟨rfl, rfl⟩⟩
    | array deep skipped read =>
        subst deep
        exact ⟨_, _, skipped, gives_bind.2 ⟨_, _, read, gives_pure.2 ⟨rfl, rfl⟩⟩⟩
    | object deep skipped read =>
        subst deep
        exact ⟨_, _, skipped, gives_bind.2 ⟨_, _, read, gives_pure.2 ⟨rfl, rfl⟩⟩⟩

section Starts

variable {text inside rest : List Char} {depth : Nat} {value : Json}

theorem readValue_start_iff {c : Char} (skipped : skipBlanks text = c :: inside)
    (wordless : ∀ letters named, (c, letters, named) ∉ words) :
    Gives (readValue depth text) value rest ↔
      (c = '"' ∧ ∃ chars, Gives (readText inside) chars rest ∧ value = .text (.ofList chars)) ∨
      (c = '-' ∧ ∃ number, Gives (readNumber true inside) number rest ∧ value = .number number) ∨
      (Decimal.isDigit c = true ∧ ∃ number, Gives (readNumber false (c :: inside)) number rest ∧
        value = .number number) ∨
      (c = '[' ∧ ∃ below items, depth = below + 1 ∧
        Gives (readArray (readValue below) inside) items rest ∧ value = .array items) ∨
      (c = '\x7b' ∧ ∃ below fields, depth = below + 1 ∧
        Gives (readObject (readValue below) inside) fields rest ∧ value = ofFields fields) := by
  rw [readValue_iff]
  constructor
  · intro reads
    cases reads with
    | word known found =>
        cases skipped.symm.trans found
        exact absurd known (wordless _ _)
    | text found read =>
        cases skipped.symm.trans found
        exact .inl ⟨rfl, _, read, rfl⟩
    | negative found read =>
        cases skipped.symm.trans found
        exact .inr (.inl ⟨rfl, _, read, rfl⟩)
    | positive digit found read =>
        cases skipped.symm.trans found
        exact .inr (.inr (.inl ⟨digit, _, read, rfl⟩))
    | array deep found read =>
        cases skipped.symm.trans found
        exact .inr (.inr (.inr (.inl ⟨rfl, _, _, deep, read, rfl⟩)))
    | object deep found read =>
        cases skipped.symm.trans found
        exact .inr (.inr (.inr (.inr ⟨rfl, _, _, deep, read, rfl⟩)))
  · rintro (⟨rfl, chars, read, rfl⟩ | ⟨rfl, number, read, rfl⟩ | ⟨digit, number, read, rfl⟩ |
      ⟨rfl, below, items, deep, read, rfl⟩ | ⟨rfl, below, fields, deep, read, rfl⟩)
    · exact .text skipped read
    · exact .negative skipped read
    · exact .positive digit skipped read
    · exact .array deep skipped read
    · exact .object deep skipped read

theorem readValue_minus_iff (skipped : skipBlanks text = '-' :: inside) :
    Gives (readValue depth text) value rest ↔
      ∃ number, Gives (readNumber true inside) number rest ∧ value = .number number := by
  rw [readValue_start_iff skipped (by simp [words])]
  simp [Decimal.isDigit]

theorem readValue_digit_iff {c : Char} (digit : Decimal.isDigit c = true)
    (skipped : skipBlanks text = c :: inside) :
    Gives (readValue depth text) value rest ↔
      ∃ number, Gives (readNumber false (c :: inside)) number rest ∧ value = .number number := by
  have other {mark : Char} (digitless : Decimal.isDigit mark = false) : c ≠ mark := by
    rintro rfl
    exact Bool.false_ne_true (digitless.symm.trans digit)
  have wordless : ∀ letters named, (c, letters, named) ∉ words := by
    simp [words, @other 'n' rfl, @other 't' rfl, @other 'f' rfl]
  rw [readValue_start_iff skipped wordless]
  simp [digit, @other '"' rfl, @other '-' rfl, @other '[' rfl, @other '\x7b' rfl]

theorem readValue_quote_iff (skipped : skipBlanks text = '"' :: inside) :
    Gives (readValue depth text) value rest ↔
      ∃ chars, Gives (readText inside) chars rest ∧ value = .text (.ofList chars) := by
  rw [readValue_start_iff skipped (by simp [words])]
  simp [Decimal.isDigit]

theorem readValue_brace_iff (skipped : skipBlanks text = '\x7b' :: inside) :
    Gives (readValue (depth + 1) text) value rest ↔
      ∃ fields, Gives (readObject (readValue depth) inside) fields rest ∧
        value = ofFields fields := by
  rw [readValue_start_iff skipped (by simp [words])]
  simp [Decimal.isDigit]

theorem skipBlanks_numeral (numeral : Numeral) :
    skipBlanks (numeral.text ++ rest) = numeral.text ++ rest := by
  obtain ⟨negative, literal, formed⟩ := numeral
  cases negative with
  | true => exact skipBlanks_cons rfl
  | false =>
      obtain ⟨c, more, starts, digit⟩ := formed.text_starts
      have visible : isBlank c = false := by
        unfold isBlank
        simp only [Bool.or_eq_false_iff, decide_eq_false_iff_not]
        refine ⟨⟨⟨?_, ?_⟩, ?_⟩, ?_⟩ <;> rintro rfl <;> cases digit
      dsimp only [Numeral.text, Bool.false_eq_true, if_false, List.nil_append]
      rw [if_neg Bool.false_ne_true, List.nil_append, starts]
      exact skipBlanks_cons visible

theorem readValue_numeral {numeral : Numeral} {after : List Char}
    (skipped : skipBlanks text = numeral.text ++ rest) (delimited : Delimited rest) :
    Gives (readValue depth text) value after ↔
      ∃ number, numeral.number? = some number ∧ value = .number number ∧ after = rest := by
  obtain ⟨negative, literal, formed⟩ := numeral
  cases negative with
  | true =>
      have minus : skipBlanks text = '-' :: (literal.text ++ rest) := skipped
      rw [readValue_minus_iff minus]
      constructor
      · rintro ⟨number, read, same⟩
        obtain ⟨denoted, rfl⟩ := (readNumber_text formed delimited).1 read
        exact ⟨number, denoted, same, rfl⟩
      · rintro ⟨number, denoted, same, rfl⟩
        exact ⟨number, (readNumber_text formed delimited).2 ⟨denoted, rfl⟩, same⟩
  | false =>
      obtain ⟨c, more, starts, digit⟩ := formed.text_starts
      have plain : skipBlanks text = c :: (more ++ rest) := by
        rw [skipped, ← List.cons_append, ← starts]
        rfl
      rw [readValue_digit_iff digit plain, ← List.cons_append, ← starts]
      constructor
      · rintro ⟨number, read, same⟩
        obtain ⟨denoted, rfl⟩ := (readNumber_text formed delimited).1 read
        exact ⟨number, denoted, same, rfl⟩
      · rintro ⟨number, denoted, same, rfl⟩
        exact ⟨number, (readNumber_text formed delimited).2 ⟨denoted, rfl⟩, same⟩

end Starts

/-! What is left of a text, whatever was read of it. -/

def Leaves {α : Type} (reader : Reader α) : Prop :=
  ∀ text value rest, Gives (reader text) value rest → rest <:+ text

theorem leaves_hex : Leaves readHex := by
  intro text value rest gives
  unfold readHex at gives
  split at gives
  · rename_i a b c d more
    split at gives
    · obtain ⟨_, rfl⟩ := gives_ok.1 gives
      exact ⟨[a, b, c, d], rfl⟩
    · cases gives_error.1 gives
  · split at gives <;> cases gives_error.1 gives

theorem leaves_trailing (leading : Nat) : Leaves (readTrailing leading) := by
  intro text value rest gives
  unfold readTrailing at gives
  split at gives
  · cases gives_error.1 gives
  · rename_i c inside
    obtain ⟨_, gives⟩ := gives_unless.1 gives
    split at gives
    · cases gives_error.1 gives
    · rename_i d digits _
      obtain ⟨_, gives⟩ := gives_unless.1 gives
      obtain ⟨trailing, after, given, gives⟩ := gives_bind.1 gives
      rcases gives_ite.1 gives with ⟨_, gives⟩ | ⟨_, gives⟩
      · obtain ⟨_, rfl⟩ := gives_pure.1 gives
        exact (leaves_hex _ _ _ given).trans ⟨[c, d], rfl⟩
      · cases gives_throw.1 gives

theorem leaves_escape : Leaves readEscape := by
  intro text value rest gives
  unfold readEscape at gives
  split at gives
  · cases gives_error.1 gives
  · rename_i c inside
    split at gives
    · obtain ⟨_, rfl⟩ := gives_ok.1 gives
      exact List.suffix_cons c _
    · obtain ⟨_, gives⟩ := gives_unless.1 gives
      obtain ⟨unit, after, given, gives⟩ := gives_bind.1 gives
      have inner := (leaves_hex _ _ _ given).trans (List.suffix_cons c inside)
      rcases gives_ite.1 gives with ⟨_, gives⟩ | ⟨_, gives⟩
      · cases gives_throw.1 gives
      · rcases gives_ite.1 gives with ⟨_, gives⟩ | ⟨_, gives⟩
        · obtain ⟨pair, later, read, gives⟩ := gives_bind.1 gives
          obtain ⟨_, rfl⟩ := gives_pure.1 gives
          exact (leaves_trailing _ _ _ _ read).trans inner
        · obtain ⟨_, rfl⟩ := gives_pure.1 gives
          exact inner

theorem leaves_text : Leaves readText := by
  intro text
  induction size : text.length using Nat.strongRecOn generalizing text with
  | ind _ ih =>
      intro value rest gives
      unfold readText at gives
      split at gives
      · cases gives_error.1 gives
      · rename_i c inside
        have shorter : inside.length < (c :: inside).length := Nat.lt_succ_self _
        rcases gives_ite.1 gives with ⟨_, gives⟩ | ⟨_, gives⟩
        · obtain ⟨_, rfl⟩ := gives_ok.1 gives
          exact List.suffix_cons c _
        · rcases gives_ite.1 gives with ⟨_, gives⟩ | ⟨_, gives⟩
          · obtain ⟨escaped, between, given, gives⟩ := gives_bind.1 gives
            obtain ⟨more, after, following, gives⟩ := gives_bind.1 gives
            obtain ⟨_, rfl⟩ := gives_pure.1 gives
            have less := given.shorter
            have inner := ih between.length (by omega) between rfl more after following
            exact (inner.trans (leaves_escape _ _ _ given)).trans (List.suffix_cons c inside)
          · obtain ⟨_, gives⟩ := gives_unless.1 gives
            obtain ⟨more, after, following, gives⟩ := gives_bind.1 gives
            obtain ⟨_, rfl⟩ := gives_pure.1 gives
            have inner := ih inside.length (by omega) inside rfl more after following
            exact inner.trans (List.suffix_cons c inside)

section Parts

variable {item : Reader Json} (inner : Leaves item)

include inner

theorem leaves_field : Leaves (readField item) := by
  intro text field rest gives
  obtain ⟨key, between, inside, first, skipped, read, _⟩ := readField_iff.1 gives
  exact ((inner _ _ _ read).trans (suffix_of_skipBlanks skipped)).trans (leaves_text _ _ _ first)

theorem leaves_fields : Leaves (readFields item) := by
  intro text
  induction size : text.length using Nat.strongRecOn generalizing text with
  | ind _ ih =>
      intro fields rest gives
      rcases readFields_iff.1 gives with ⟨skipped, _⟩ |
        ⟨later, tail, head, between, more, skipped, next, first, following, _⟩
      · exact suffix_of_skipBlanks skipped
      · have start : between <:+ text :=
          ((leaves_field inner _ _ _ first).trans (suffix_of_skipBlanks next)).trans
            (suffix_of_skipBlanks skipped)
        have less : between.length < text.length :=
          Nat.lt_of_lt_of_le first.shorter (Nat.le_trans (suffix_of_skipBlanks next).length_le
            (suffix_of_skipBlanks skipped).length_le)
        exact (ih between.length (size ▸ less) between rfl more rest following).trans start

theorem leaves_object : Leaves (readObject item) := by
  intro text fields rest gives
  rcases readObject_iff.1 gives with ⟨skipped, _⟩ |
    ⟨tail, head, between, more, skipped, first, following, _⟩
  · exact suffix_of_skipBlanks skipped
  · exact ((leaves_fields inner _ _ _ following).trans (leaves_field inner _ _ _ first)).trans
      (suffix_of_skipBlanks skipped)

theorem leaves_items : Leaves (readItems item) := by
  intro text
  induction size : text.length using Nat.strongRecOn generalizing text with
  | ind _ ih =>
      intro items rest gives
      rw [readItems] at gives
      obtain ⟨c, later, skipped, gives⟩ := gives_visible.1 gives
      rcases gives_ite.1 gives with ⟨_, gives⟩ | ⟨_, gives⟩
      · obtain ⟨_, rfl⟩ := gives_ok.1 gives
        exact suffix_of_skipBlanks skipped
      · obtain ⟨_, gives⟩ := gives_unless.1 gives
        obtain ⟨d, tail, next, gives⟩ := gives_visible.1 gives
        obtain ⟨_, gives⟩ := gives_unless.1 gives
        obtain ⟨head, between, first, gives⟩ := gives_bind.1 gives
        obtain ⟨more, after, following, gives⟩ := gives_bind.1 gives
        obtain ⟨_, rfl⟩ := gives_pure.1 gives
        have within : d :: tail <:+ text :=
          (next ▸ skipBlanks_suffix later).trans (suffix_of_skipBlanks skipped)
        have less : between.length < text.length :=
          Nat.lt_of_lt_of_le first.shorter within.length_le
        have rest := ih between.length (size ▸ less) between rfl more after following
        exact (rest.trans (inner _ _ _ first)).trans within

theorem leaves_array : Leaves (readArray item) := by
  intro text items rest gives
  rw [readArray] at gives
  obtain ⟨c, later, skipped, gives⟩ := gives_visible.1 gives
  rcases gives_ite.1 gives with ⟨_, gives⟩ | ⟨_, gives⟩
  · obtain ⟨_, rfl⟩ := gives_ok.1 gives
    exact suffix_of_skipBlanks skipped
  · obtain ⟨head, between, first, gives⟩ := gives_bind.1 gives
    obtain ⟨more, after, following, gives⟩ := gives_bind.1 gives
    obtain ⟨_, rfl⟩ := gives_pure.1 gives
    exact ((leaves_items inner _ _ _ following).trans (inner _ _ _ first)).trans
      (skipped ▸ skipBlanks_suffix text)

end Parts

theorem Reads.suffix {depth : Nat} {value : Json} (reads : Reads depth text value rest)
    (inner : ∀ below, depth = below + 1 → Leaves (readValue below)) : rest <:+ text := by
  cases reads with
  | word known skipped => exact (List.suffix_append _ _).trans (skipped ▸ skipBlanks_suffix text)
  | text skipped read => exact (leaves_text _ _ _ read).trans (suffix_of_skipBlanks skipped)
  | negative skipped read =>
      exact (suffix_of_readNumber read).trans (suffix_of_skipBlanks skipped)
  | positive digit skipped read =>
      exact (suffix_of_readNumber read).trans (skipped ▸ skipBlanks_suffix text)
  | array deep skipped read =>
      exact (leaves_array (inner _ deep) _ _ _ read).trans (suffix_of_skipBlanks skipped)
  | object deep skipped read =>
      exact (leaves_object (inner _ deep) _ _ _ read).trans (suffix_of_skipBlanks skipped)

theorem leaves_value (depth : Nat) : Leaves (readValue depth) := by
  induction depth with
  | zero =>
      intro text value rest gives
      exact (readValue_iff.1 gives).suffix nofun
  | succ depth ih =>
      intro text value rest gives
      refine (readValue_iff.1 gives).suffix fun below same => ?_
      obtain rfl : depth = below := Nat.succ.inj same
      exact ih

theorem read_iff {source : String} {value : Json} :
    read source = .ok value ↔
      ∃ rest, Gives (readValue greatestDepth source.toList) value rest ∧ skipBlanks rest = [] := by
  unfold read
  constructor
  · intro ok
    split at ok
    · cases ok
    · rename_i reading found
      split at ok
      · rename_i ended
        cases ok
        exact ⟨reading.rest, ⟨reading.shorter, found⟩, ended⟩
      · cases ok
  · rintro ⟨rest, ⟨shorter, found⟩, ended⟩
    rw [found]
    simp [ended]

theorem mem_insertField {key : String} {value : Json} {fields : List (String × Json)}
    {pair : String × Json} (listed : pair ∈ insertField key value fields) :
    pair = (key, value) ∨ pair ∈ fields := by
  induction fields with
  | nil => exact .inl (List.mem_singleton.1 listed)
  | cons first rest ih =>
      obtain ⟨other, bound⟩ := first
      simp only [insertField] at listed
      split at listed
      · exact List.mem_cons.1 listed
      · split at listed
        · exact (List.mem_cons.1 listed).imp_right (List.mem_cons_of_mem _)
        · rcases List.mem_cons.1 listed with rfl | later
          · exact .inr List.mem_cons_self
          · exact (ih later).imp_right (List.mem_cons_of_mem _)

theorem mem_foldl_insertField {fields sorted : List (String × Json)} {pair : String × Json}
    (listed : pair ∈ fields.foldl (fun sorted field => insertField field.1 field.2 sorted) sorted) :
    pair ∈ sorted ∨ pair ∈ fields := by
  induction fields generalizing sorted with
  | nil => exact .inl listed
  | cons first rest ih =>
      rcases ih listed with before | later
      · rcases mem_insertField before with rfl | before
        · exact .inr List.mem_cons_self
        · exact .inl before
      · exact .inr (List.mem_cons_of_mem _ later)

theorem mem_of_ofFields {fields sorted : List (String × Json)} {pair : String × Json}
    (same : ofFields fields = .object sorted) (listed : pair ∈ sorted) : pair ∈ fields := by
  cases same
  exact (mem_foldl_insertField listed).resolve_left List.not_mem_nil

def Unquoted (value : Json) : Prop :=
  ∀ s, value = .text s → '"' ∉ s.toList

theorem unquoted_of_readValue {depth : Nat} {value : Json} (unescaped : '\\' ∉ text)
    (gives : Gives (readValue depth text) value rest) : Unquoted value := by
  rintro s rfl
  cases readValue_iff.1 gives with
  | word known skipped => simp [words] at known
  | text skipped read =>
      have inside := (readText_iff fun within =>
        unescaped ((suffix_of_skipBlanks skipped).mem within)).1 read
      simpa using inside.2.1

section Fields

variable {depth : Nat}

theorem unquoted_of_readField {field : String × Json} (unescaped : '\\' ∉ text)
    (gives : Gives (readField (readValue depth) text) field rest) : Unquoted field.2 := by
  obtain ⟨key, between, inside, first, skipped, read, _⟩ := readField_iff.1 gives
  refine unquoted_of_readValue (fun within => unescaped ?_) read
  exact (leaves_text _ _ _ first).mem ((suffix_of_skipBlanks skipped).mem within)

theorem unquoted_of_readFields {fields : List (String × Json)} (unescaped : '\\' ∉ text)
    (gives : Gives (readFields (readValue depth) text) fields rest) :
    ∀ field ∈ fields, Unquoted field.2 := by
  induction fields generalizing text with
  | nil => exact nofun
  | cons field fields ih =>
      rcases readFields_iff.1 gives with ⟨_, empty⟩ |
        ⟨later, tail, head, between, more, skipped, next, first, following, same⟩
      · cases empty
      · cases same
        have bare : '\\' ∉ tail := fun within =>
          unescaped ((suffix_of_skipBlanks skipped).mem ((suffix_of_skipBlanks next).mem within))
        refine List.forall_mem_cons.2 ⟨unquoted_of_readField bare first, ?_⟩
        refine ih (fun within => bare ?_) following
        exact (leaves_field (leaves_value depth) _ _ _ first).mem within

theorem unquoted_of_readObject {fields : List (String × Json)} (unescaped : '\\' ∉ text)
    (gives : Gives (readObject (readValue depth) text) fields rest) :
    ∀ field ∈ fields, Unquoted field.2 := by
  rcases readObject_iff.1 gives with ⟨_, rfl⟩ |
    ⟨tail, head, between, more, skipped, first, following, rfl⟩
  · exact nofun
  · have bare : '\\' ∉ tail := fun within => unescaped ((suffix_of_skipBlanks skipped).mem within)
    refine List.forall_mem_cons.2 ⟨unquoted_of_readField bare first, ?_⟩
    refine unquoted_of_readFields (fun within => bare ?_) following
    exact (leaves_field (leaves_value depth) _ _ _ first).mem within

end Fields

theorem unquoted_of_read {source : String} {fields : List (String × Json)}
    (unescaped : '\\' ∉ source.toList) (ok : read source = .ok (.object fields)) :
    ∀ field ∈ fields, Unquoted field.2 := by
  obtain ⟨rest, gives, _⟩ := read_iff.1 ok
  generalize found : Json.object fields = value at gives
  cases readValue_iff.1 gives with
  | word known skipped =>
      subst found
      simp [words] at known
  | text => cases found
  | negative => cases found
  | positive => cases found
  | array => cases found
  | object deep skipped read =>
      intro field listed
      refine unquoted_of_readObject (fun within => unescaped ?_) read field
        (mem_of_ofFields found.symm listed)
      exact (suffix_of_skipBlanks skipped).mem within

end Formulary.Json
