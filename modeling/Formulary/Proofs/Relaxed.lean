import Formulary.Proofs.Grammar
import Formulary.Proofs.Rewriting
import Formulary.Proofs.Stages

/-!
References with a name in the relaxed form. The name is read as it stands unless it has a double
quote in it, or a comma before what looks like a key.
-/

namespace Formulary

def relaxedForm (id : Int) (name : String) : String :=
  "\x7bid: " ++ toString id ++ ", name: '" ++ name ++ "'\x7d"

/-- Whether a name may stand between single quotes. -/
structure Quotable (name : String) : Prop where
  single : '\'' ∉ name.toList
  unescaped : '\\' ∉ name.toList
  braceless : Braceless name.toList
  printable : ∀ c ∈ name.toList, 0x20 ≤ c.toNat

theorem quotable_iff {name : String} : Quotable name ↔ '\'' ∉ name.toList ∧
    '\\' ∉ name.toList ∧ (name.toList.all fun c => !Lexeme.isBrace c && 0x20 ≤ c.toNat) = true := by
  simp only [List.all_eq_true, Bool.and_eq_true, Bool.not_eq_true', decide_eq_true_eq]
  constructor
  · rintro ⟨single, unescaped, braceless, printable⟩
    exact ⟨single, unescaped, fun c within => ⟨braceless c within, printable c within⟩⟩
  · rintro ⟨single, unescaped, all⟩
    exact ⟨single, unescaped, fun c within => (all c within).1, fun c within => (all c within).2⟩

instance (name : String) : Decidable (Quotable name) :=
  decidable_of_iff _ quotable_iff.symm

namespace Reference

section Form

variable {id : Int} {name : String} {target : Reference}

def idKey : BareKey := ⟨[], ['i', 'd'], []⟩

def nameKey : BareKey := ⟨[' '], ['n', 'a', 'm', 'e'], []⟩

theorem fits_idKey : idKey.Fits where
  before := nofun
  starts := rfl
  continues := List.all_eq_true.1 rfl
  after := nofun

theorem fits_nameKey : nameKey.Fits where
  before := List.all_eq_true.1 rfl
  starts := rfl
  continues := List.all_eq_true.1 rfl
  after := nofun

theorem mem_text_ofInt {c : Char} (within : c ∈ (Json.Numeral.ofInt id).text) :
    c = '-' ∨ Decimal.isDigit c = true := by
  simp only [Json.Numeral.text, Json.Numeral.ofInt, Decimal.Literal.text, List.mem_append,
    Option.elim, List.not_mem_nil, or_false] at within
  rcases within with sign | digit
  · by_cases negative : id < 0
    · exact .inl (by simpa [negative] using sign)
    · simp [negative] at sign
  · exact .inr (Json.isDigit_of_mem_toDigits digit)

theorem not_mem_text_ofInt {c : Char} (unsigned : c ≠ '-') (digitless : Decimal.isDigit c = false) :
    c ∉ (Json.Numeral.ofInt id).text := by
  intro within
  rcases mem_text_ofInt within with same | digit
  · exact unsigned same
  · exact Bool.false_ne_true (digitless.symm.trans digit)

def opening (id : Int) : List Char :=
  '\x7b' :: (idKey.text ++ (' ' :: (Json.Numeral.ofInt id).text ++ ',' :: (nameKey.text ++ [' '])))

def strictOpening (id : Int) : List Char :=
  '\x7b' :: (idKey.quoted ++ (' ' :: (Json.Numeral.ofInt id).text ++
    ',' :: (nameKey.quoted ++ [' '])))

theorem toList_relaxedForm : (relaxedForm id name).toList =
    opening id ++ '\'' :: (name.toList ++ ['\'', '\x7d']) := by
  simp [relaxedForm, opening, Json.Numeral.text_ofInt, idKey, nameKey, BareKey.text]

theorem not_quote_opening : '\'' ∉ opening id := by
  have number := @not_mem_text_ofInt id '\'' (by decide) rfl
  simp [opening, idKey, nameKey, BareKey.text, number]

theorem relaxKeys_opening {rest : List Char} :
    relaxKeys (opening id ++ rest) = strictOpening id ++ relaxKeys rest := by
  have number : ∀ c ∈ ' ' :: (Json.Numeral.ofInt id).text, c ≠ '\x7b' ∧ c ≠ ',' := by
    intro c within
    rcases List.mem_cons.1 within with rfl | within
    · decide
    · constructor <;> rintro rfl <;> exact not_mem_text_ofInt (by decide) rfl within
  have blank : ∀ c ∈ [' '], c ≠ '\x7b' ∧ c ≠ ',' := by simp
  have split : opening id ++ rest =
      '\x7b' :: (idKey.text ++ ((' ' :: (Json.Numeral.ofInt id).text) ++
        (',' :: (nameKey.text ++ ([' '] ++ rest))))) := by
    simp [opening]
  rw [split, relaxKeys_cons_of_fits (.inl rfl) fits_idKey, relaxKeys_append_of_ordinary number,
    relaxKeys_cons_of_fits (.inr rfl) fits_nameKey, relaxKeys_append_of_ordinary blank]
  simp [strictOpening]

theorem relax_relaxedForm (quotable : Quotable name) : relax (relaxedForm id name).toList =
    strictOpening id ++ '"' :: (relaxKeys name.toList ++ ['"', '\x7d']) := by
  have quotes : relaxQuotes ['\x7d'] = ['\x7d'] := by simp [relaxQuotes]
  have keys : relaxKeys ['\x7d'] = ['\x7d'] := by
    rw [relaxKeys_cons_of_not_opens (fun opens => ?_), relaxKeys_nil]
    obtain ⟨bare, fits, rest, same⟩ := opens.2
    simp [BareKey.text] at same
  unfold relax
  rw [toList_relaxedForm, relaxQuotes_append not_quote_opening,
    relaxQuotes_pair quotable.single quotable.unescaped, quotes, relaxKeys_opening,
    relaxKeys_cons_of_not_opens (not_opens_of_ordinary (by decide)), relaxKeys_append_quote, keys]

theorem strictOpening_eq {rest : List Char} : strictOpening id ++ rest =
    '\x7b' :: '"' :: (['i', 'd'] ++ '"' :: ':' :: (' ' :: ((Json.Numeral.ofInt id).text ++
      ',' :: ' ' :: '"' :: (['n', 'a', 'm', 'e'] ++ '"' :: ':' :: (' ' :: rest))))) := by
  simp [strictOpening, idKey, nameKey, BareKey.quoted]

theorem read_relaxedForm_strict (value : Json) : Json.read (relaxedForm id name) ≠ .ok value := by
  intro ok
  obtain ⟨rest, gives, _⟩ := Json.read_iff.1 ok
  rw [toList_relaxedForm, opening, List.cons_append] at gives
  obtain ⟨fields, object, _⟩ := (Json.readValue_brace_iff rfl).1 gives
  rcases Json.readObject_iff.1 object with ⟨skipped, _⟩ | ⟨_, _, _, _, skipped, _⟩ <;> cases skipped

theorem ofFields_named {value : Json} : Json.ofFields [("id", Json.integer id), ("name", value)] =
    .object [("id", Json.integer id), ("name", value)] := by
  have order : ¬ "name" < "id" := by decide
  simp [Json.ofFields, Json.insertField, order]

section Range

variable (least : -9223372036854775808 ≤ id) (greatest : id ≤ greatestId)

include least greatest

theorem read_strictOpening_iff {body : List Char} {value : Json} :
    Json.read (.ofList (strictOpening id ++ '"' :: body)) = .ok value ↔
      ∃ chars between more rest, Json.Gives (Json.readText body) chars between ∧
        Json.Gives (Json.readFields (Json.readValue 126) between) more rest ∧
        Json.skipBlanks rest = [] ∧ value = Json.ofFields
          (("id", Json.integer id) :: ("name", .text (.ofList chars)) :: more) := by
  have plainId : ∀ c ∈ ['i', 'd'], c ≠ '"' ∧ c ≠ '\\' ∧ 0x20 ≤ c.toNat := by simp
  have plainName : ∀ c ∈ ['n', 'a', 'm', 'e'], c ≠ '"' ∧ c ≠ '\\' ∧ 0x20 ≤ c.toNat := by simp
  have number (rest : List Char) {value : Json} {after : List Char} :
      Json.Gives (Json.readValue 126 (' ' :: ((Json.Numeral.ofInt id).text ++ ',' :: rest)))
        value after ↔ value = Json.integer id ∧ after = ',' :: rest := by
    have delimited : Json.Delimited (',' :: rest) := by
      rintro _ ⟨⟩
      decide
    have skipped : Json.skipBlanks (' ' :: ((Json.Numeral.ofInt id).text ++ ',' :: rest)) =
        (Json.Numeral.ofInt id).text ++ ',' :: rest := Json.skipBlanks_numeral _
    rw [Json.readValue_numeral skipped delimited, Json.Numeral.number?_ofInt least greatest]
    simp [Json.integer]
  have name {value : Json} {after : List Char} :
      Json.Gives (Json.readValue 126 (' ' :: '"' :: body)) value after ↔
        ∃ chars, Json.Gives (Json.readText body) chars after ∧ value = .text (.ofList chars) :=
    Json.readValue_quote_iff rfl
  rw [Json.read_iff, String.toList_ofList, strictOpening_eq]
  constructor
  · rintro ⟨rest, gives, ended⟩
    obtain ⟨fields, object, rfl⟩ := (Json.readValue_brace_iff rfl).1 gives
    obtain ⟨first, between, more, read, following, rfl⟩ := (Json.readObject_entry plainId).1 object
    obtain ⟨rfl, rfl⟩ := (number _).1 read
    obtain ⟨second, after, more, read, last, rfl⟩ := (Json.readFields_entry plainName).1 following
    obtain ⟨chars, text, rfl⟩ := name.1 read
    exact ⟨chars, after, more, rest, text, last, ended, rfl⟩
  · rintro ⟨chars, between, more, rest, text, last, ended, rfl⟩
    refine ⟨rest, (Json.readValue_brace_iff rfl).2 ⟨_, ?_, rfl⟩, ended⟩
    refine (Json.readObject_entry plainId).2 ⟨_, _, _, (number _).2 ⟨rfl, rfl⟩, ?_, rfl⟩
    exact (Json.readFields_entry plainName).2 ⟨_, _, _, name.2 ⟨_, text, rfl⟩, last, rfl⟩

theorem read_relaxedForm (quotable : Quotable name) (unquoted : '"' ∉ name.toList)
    (keyless : ¬ HasBareKey name.toList) :
    read (relaxedForm id name).toList = .ok ⟨id, some name⟩ := by
  have braceless : '\x7b' ∉ name.toList := fun within => nomatch quotable.braceless _ within
  have plain : ∀ c ∈ name.toList, c ≠ '"' ∧ c ≠ '\\' ∧ 0x20 ≤ c.toNat := by
    intro c within
    refine ⟨?_, ?_, quotable.printable c within⟩
    · exact fun same => unquoted (same ▸ within)
    · exact fun same => quotable.unescaped (same ▸ within)
  have relaxed : Json.read (.ofList (relax (relaxedForm id name).toList)) =
      .ok (.object [("id", Json.integer id), ("name", .text name)]) := by
    rw [relax_relaxedForm quotable, relaxKeys_of_not_hasBareKey braceless keyless]
    refine (read_strictOpening_iff least greatest).2 ⟨name.toList, ['\x7d'], [], [],
      Json.readText_front plain, Json.readFields_close.2 ⟨rfl, rfl⟩, rfl, ?_⟩
    rw [String.ofList_toList, ofFields_named]
  refine read_eq_ok_iff.2 ⟨_, Json.integer id,
    readLiteral_eq_ok_iff.2 (.inr ⟨?_, relaxed⟩), rfl, ?_, rfl⟩
  · intro value
    rw [String.ofList_toList]
    exact read_relaxedForm_strict value
  · simp [idOf, Json.integer, integerOf?, greatest]

/-- The first bare key of a name ends the name, and the rest is no object. -/
theorem read_relaxedForm_of_key (quotable : Quotable name) (unquoted : '"' ∉ name.toList)
    (key : HasBareKey name.toList) : read (relaxedForm id name).toList ≠ .ok target := by
  have braceless : '\x7b' ∉ name.toList := fun within => nomatch quotable.braceless _ within
  obtain ⟨front, c, more, same, clean, starts⟩ :=
    relaxKeys_of_hasBareKey braceless unquoted key
  have plain : ∀ c ∈ front, c ≠ '"' ∧ c ≠ '\\' ∧ 0x20 ≤ c.toNat := by
    intro c within
    have different : c ≠ '"' := fun same => clean (same ▸ within)
    have inside : c ∈ name.toList :=
      (mem_relaxKeys (same ▸ List.mem_append_left _ within)).resolve_left different
    refine ⟨different, ?_, quotable.printable c inside⟩
    exact fun same => quotable.unescaped (same ▸ inside)
  intro ok
  obtain ⟨fields, found, literal, _⟩ := read_eq_ok_iff.1 ok
  rcases readLiteral_eq_ok_iff.1 literal with strict | ⟨_, relaxed⟩
  · rw [String.ofList_toList] at strict
    exact read_relaxedForm_strict _ strict
  · rw [relax_relaxedForm quotable, same, read_strictOpening_iff least greatest] at relaxed
    obtain ⟨chars, between, entries, rest, text, following, _⟩ := relaxed
    rw [List.append_assoc, List.cons_append] at text
    obtain ⟨rfl, rfl⟩ := text.unique (Json.readText_front plain)
    have visible : Json.isBlank c = false := by
      have code := (code_of_continuesKey (continuesKey_of_startsKey starts)).1
      unfold Json.isBlank
      simp only [Bool.or_eq_false_iff, decide_eq_false_iff_not]
      refine ⟨⟨⟨?_, ?_⟩, ?_⟩, ?_⟩ <;> rintro rfl <;> exact absurd code (by decide)
    rcases Json.readFields_iff.1 following with ⟨skipped, _⟩ | ⟨_, _, _, _, _, skipped, _⟩
    all_goals
      rw [List.cons_append, Json.skipBlanks_cons visible] at skipped
      cases skipped
      cases starts

end Range

theorem unescaped_relaxedForm (quotable : Quotable name) : '\\' ∉ (relaxedForm id name).toList := by
  have number := @not_mem_text_ofInt id '\\' (by decide) rfl
  rw [toList_relaxedForm]
  simp [opening, idKey, nameKey, BareKey.text, number, quotable.unescaped]

theorem exists_inside (quotable : Quotable name) :
    ∃ inside, Braceless inside ∧
      (relaxedForm id name).toList = '\x7b' :: inside ++ ['\x7d'] := by
  have number : Braceless (Json.Numeral.ofInt id).text := by
    intro c within
    rcases mem_text_ofInt within with rfl | digit
    · rfl
    · exact isBrace_of_isDigit digit
  have idBare : Braceless idKey.text := by
    simp [Braceless, Lexeme.isBrace, BareKey.text, idKey]
  have nameBare : Braceless nameKey.text := by
    simp [Braceless, Lexeme.isBrace, BareKey.text, nameKey]
  refine ⟨idKey.text ++ ' ' :: ((Json.Numeral.ofInt id).text ++
    ',' :: (nameKey.text ++ ' ' :: '\'' :: (name.toList ++ ['\'']))), ?_, ?_⟩
  · refine idBare.append (.cons rfl (number.append (.cons rfl (nameBare.append ?_))))
    exact .cons rfl (.cons rfl (quotable.braceless.append (.cons rfl braceless_nil)))
  · rw [toList_relaxedForm]
    simp [opening]

end Form

end Reference

theorem Expression.ofTokens_reference (target : Reference) (span : Span) (stop : Nat) :
    ofTokens [⟨.reference target, span⟩, ⟨.finish, ⟨stop, stop⟩⟩] =
      .ok (.reference target span) := by
  have derived : Derives .sum [⟨.reference target, span⟩] (.reference target span) 0 :=
    .sum (.product (.operand (.reference rfl)))
  exact @ofTokens_complete [_] _ _ _ rfl derived (Nat.zero_le _) one_le_greatestHeight

theorem Expression.parse_braced {text : String} {inside : List Char} (bare : Braceless inside)
    (braced : text.toList = '\x7b' :: inside ++ ['\x7d']) :
    parse text = match Reference.read text.toList with
      | .ok target => .ok (.reference target ⟨0, Text.size text.toList⟩)
      | .error reason =>
        .error (.malformedReference text.toList ⟨0, Text.size text.toList⟩ reason) := by
  have segmented : Segmented text.toList [.braced inside] := by
    have alone := Segmented.cons (.braced bare) .nil
    rwa [List.append_nil, Segment.text, ← braced] at alone
  have size : 0 + Text.size text.toList = Text.size text.toList := Nat.zero_add _
  unfold parse
  rw [segmented.ofText_eq]
  simp only [Segment.gather, Segment.tokens, Segment.malformed?, Segment.stray?, Segment.token?,
    Segment.lexeme?, Segment.text, ← braced, List.flatMap_cons, List.flatMap_nil, List.append_nil]
  cases read : Reference.read text.toList with
  | error reason => simp [size]
  | ok target =>
      simp only [size, Option.toList_none, List.head?_nil, Option.toList_some,
        List.singleton_append]
      rw [ofTokens_reference]

/-- A reference in the relaxed form is read with its id and its name unless the name has a double
quote in it or a comma before a bare key. With a bare key and no double quote it is malformed. -/
theorem Expression.parse_relaxedForm {id : Int} {name : String} (least : -9223372036854775808 ≤ id)
    (greatest : id ≤ greatestId) (quotable : Quotable name) :
    let whole : Span := ⟨0, Text.size (relaxedForm id name).toList⟩
    (parse (relaxedForm id name) = .ok (.reference ⟨id, some name⟩ whole) ↔
      '"' ∉ name.toList ∧ ¬ Reference.HasBareKey name.toList) ∧
    ('"' ∉ name.toList → Reference.HasBareKey name.toList →
      ∃ reason, parse (relaxedForm id name) =
        .error (.malformedReference (relaxedForm id name).toList whole reason)) := by
  intro whole
  obtain ⟨inside, bare, braced⟩ := @Reference.exists_inside id name quotable
  rw [parse_braced bare braced]
  have refused := @Reference.read_relaxedForm_of_key id name
  refine ⟨⟨fun parsed => ?_, fun ⟨unquoted, keyless⟩ => ?_⟩, fun unquoted key => ?_⟩
  · have read : Reference.read (relaxedForm id name).toList = .ok ⟨id, some name⟩ := by
      split at parsed
      · cases parsed
        assumption
      · cases parsed
    have unquoted := Reference.unquoted_of_read (Reference.unescaped_relaxedForm quotable) read rfl
    exact ⟨unquoted, fun key => refused least greatest quotable unquoted key read⟩
  · rw [Reference.read_relaxedForm least greatest quotable unquoted keyless]
  · cases read : Reference.read (relaxedForm id name).toList with
    | ok target => exact absurd read (refused least greatest quotable unquoted key)
    | error reason => exact ⟨reason, rfl⟩

theorem Expression.parse_relaxedForm_discount :
    parse (relaxedForm 3 "discount") = .ok (.reference ⟨3, some "discount"⟩ ⟨0, 25⟩) ∧
      ∃ reason, parse (relaxedForm 3 "price, net: 20") =
        .error (.malformedReference (relaxedForm 3 "price, net: 20").toList ⟨0, 31⟩ reason) := by
  have plain := @parse_relaxedForm 3 "discount" (by decide) (by decide) (by decide)
  have keyed := @parse_relaxedForm 3 "price, net: 20" (by decide) (by decide) (by decide)
  have short : Text.size (relaxedForm 3 "discount").toList = 25 := by decide +kernel
  have long : Text.size (relaxedForm 3 "price, net: 20").toList = 31 := by decide +kernel
  rw [short] at plain
  rw [long] at keyed
  exact ⟨plain.1.2 (by decide), keyed.2 (by decide) (by decide)⟩

def redirecting : String := "x\", \"id\": 2, \"y\": \"z"

/-- Double quotes in a name may change which variable is read. -/
theorem Expression.parse_relaxedForm_redirecting :
    Quotable redirecting ∧
      parse (relaxedForm 1 redirecting) = .ok (.reference ⟨2, some "x"⟩ ⟨0, 37⟩) := by
  have quotable : Quotable redirecting := by decide
  obtain ⟨inside, bare, braced⟩ := @Reference.exists_inside 1 _ quotable
  have read : (Reference.read (relaxedForm 1 redirecting).toList).toOption =
      some ⟨2, some "x"⟩ := by
    decide +kernel
  have size : Text.size (relaxedForm 1 redirecting).toList = 37 := by decide +kernel
  refine ⟨quotable, ?_⟩
  rw [parse_braced bare braced, toOption_eq_some.1 read, size]

end Formulary
