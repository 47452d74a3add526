import Formulary.Expression.Reference
import Formulary.Proofs.Reader
import Mathlib

/-!
How references are read: the strict form, else the relaxed one. The relaxed form is rewritten to the
strict one, quote by quote and key by key.
-/

namespace Formulary

namespace Reference

open Json (span_front)

structure BareKey.Fits (bare : BareKey) : Prop where
  before : ∀ c ∈ bare.before, Text.isBlank c = true
  starts : bare.key.head?.any startsKey = true
  continues : ∀ c ∈ bare.key, continuesKey c = true
  after : ∀ c ∈ bare.after, Text.isBlank c = true

def BareKey.text (bare : BareKey) : List Char :=
  bare.before ++ bare.key ++ bare.after ++ [':']

def KeyAhead (text : List Char) : Prop :=
  ∃ bare : BareKey, bare.Fits ∧ bare.text <+: text

def HasBareKey (text : List Char) : Prop :=
  ∃ front rest, text = front ++ ',' :: rest ∧ KeyAhead rest

theorem code_of_continuesKey {c : Char} (continues : continuesKey c = true) :
    0x30 ≤ c.toNat ∧ c.toNat ≤ 0x7A := by
  unfold continuesKey at continues
  simp only [Char.isAlphanum, Char.isAlpha, Char.isUpper, Char.isLower, Char.isDigit,
    Bool.or_eq_true, Bool.and_eq_true, decide_eq_true_eq, ge_iff_le, UInt32.le_iff_toNat_le]
    at continues
  change 48 ≤ c.val.toNat ∧ c.val.toNat ≤ 122
  rcases continues with ((⟨low, high⟩ | ⟨low, high⟩) | ⟨low, high⟩) | rfl
  · exact ⟨Nat.le_trans (by decide) low, Nat.le_trans high (by decide)⟩
  · exact ⟨Nat.le_trans (by decide) low, Nat.le_trans high (by decide)⟩
  · exact ⟨Nat.le_trans (by decide) low, Nat.le_trans high (by decide)⟩
  · decide

theorem continuesKey_of_startsKey {c : Char} (starts : startsKey c = true) :
    continuesKey c = true := by
  unfold startsKey at starts
  unfold continuesKey Char.isAlphanum
  rw [Bool.or_eq_true] at starts ⊢
  exact starts.imp_left fun alpha => by rw [alpha, Bool.true_or]

theorem isBlank_of_continuesKey {c : Char} (continues : continuesKey c = true) :
    Text.isBlank c = false := by
  have bounds := code_of_continuesKey continues
  simp only [Text.isBlank, Text.blankRanges, List.any_cons, List.any_nil, Bool.or_eq_false_iff,
    Bool.and_eq_false_iff, decide_eq_false_iff_not, and_true]
  omega

theorem not_continuesKey_of_isBlank {c : Char} (blank : Text.isBlank c = true) :
    continuesKey c = false := by
  cases continues : continuesKey c with
  | false => rfl
  | true =>
      rw [isBlank_of_continuesKey continues] at blank
      cases blank

theorem not_continuesKey_of_after {after rest : List Char} {c : Char}
    (blank : ∀ c ∈ after, Text.isBlank c = true) (first : (after ++ ':' :: rest).head? = some c) :
    continuesKey c = false := by
  cases after with
  | nil =>
      cases first
      decide
  | cons d after =>
      cases first
      exact not_continuesKey_of_isBlank (blank c List.mem_cons_self)

theorem BareKey.Fits.scan {bare : BareKey} (fits : bare.Fits) (rest : List Char) :
    BareKey.scan (bare.text ++ rest) = some bare := by
  obtain ⟨before, key, after⟩ := bare
  obtain ⟨blankBefore, starts, continues, blankAfter⟩ := fits
  dsimp only at blankBefore starts continues blankAfter
  have whole : BareKey.text ⟨before, key, after⟩ ++ rest =
      before ++ (key ++ (after ++ ':' :: rest)) := by
    simp [BareKey.text]
  have first : ∀ c, (key ++ (after ++ ':' :: rest)).head? = some c → Text.isBlank c = false := by
    intro c first
    cases key with
    | nil => cases starts
    | cons d key =>
        exact isBlank_of_continuesKey (continues c (Option.some.inj first ▸ List.mem_cons_self))
  have colon : ∀ c, (':' :: rest).head? = some c → Text.isBlank c = false := by
    rintro _ ⟨⟩
    decide
  obtain ⟨takenBefore, droppedBefore⟩ := span_front blankBefore first
  obtain ⟨takenKey, droppedKey⟩ :=
    span_front continues fun c => @not_continuesKey_of_after after rest c blankAfter
  obtain ⟨takenAfter, droppedAfter⟩ := span_front blankAfter colon
  unfold BareKey.scan
  rw [whole]
  simp only [takenBefore, droppedBefore, takenKey, droppedKey, takenAfter, droppedAfter, starts]
  rfl

theorem BareKey.fits_of_scan {text : List Char} {bare : BareKey}
    (found : BareKey.scan text = some bare) : bare.Fits ∧ ∃ rest, text = bare.text ++ rest := by
  unfold BareKey.scan at found
  dsimp only at found
  split at found
  · rename_i fits
    cases found
    obtain ⟨starts, colon⟩ := Bool.and_eq_true_iff.1 fits
    rw [decide_eq_true_eq] at colon
    obtain ⟨rest, behind⟩ := List.head?_eq_some_iff.1 colon
    refine ⟨⟨?_, starts, ?_, ?_⟩, rest, ?_⟩
    · exact fun c within => List.mem_takeWhile_imp within
    · exact fun c within => List.mem_takeWhile_imp within
    · exact fun c within => List.mem_takeWhile_imp within
    · simp only [BareKey.text, List.append_assoc, List.singleton_append]
      rw [← behind, List.takeWhile_append_dropWhile, List.takeWhile_append_dropWhile,
        List.takeWhile_append_dropWhile]
  · cases found

theorem scan_isSome_iff {text : List Char} : (BareKey.scan text).isSome ↔ KeyAhead text := by
  constructor
  · intro some
    obtain ⟨bare, found⟩ := Option.isSome_iff_exists.1 some
    obtain ⟨fits, rest, same⟩ := BareKey.fits_of_scan found
    exact ⟨bare, fits, rest, same.symm⟩
  · rintro ⟨bare, fits, rest, rfl⟩
    rw [fits.scan]
    rfl

section Relax

variable {text rest : List Char} {c : Char}

@[simp] theorem relaxKeys_nil : relaxKeys [] = [] := by
  rw [relaxKeys]

def Opens (c : Char) (rest : List Char) : Prop :=
  (c = '\x7b' ∨ c = ',') ∧ KeyAhead rest

theorem relaxKeys_cons_of_not_opens (keyless : ¬ Opens c rest) :
    relaxKeys (c :: rest) = c :: relaxKeys rest := by
  rw [relaxKeys]
  split
  · rename_i separates
    split
    · rename_i bare found
      exact absurd ⟨separates, scan_isSome_iff.1 (found ▸ rfl)⟩ keyless
    · rfl
  · rfl

theorem not_opens_of_ordinary (ordinary : c ≠ '\x7b' ∧ c ≠ ',') : ¬ Opens c rest :=
  fun opens => not_or.2 ordinary opens.1

def BareKey.quoted (bare : BareKey) : List Char :=
  bare.before ++ '"' :: bare.key ++ '"' :: bare.after ++ [':']

theorem relaxKeys_cons_of_fits {bare : BareKey} (separates : c = '\x7b' ∨ c = ',')
    (fits : bare.Fits) :
    relaxKeys (c :: (bare.text ++ rest)) = c :: (bare.quoted ++ relaxKeys rest) := by
  have length : bare.length = bare.text.length := by
    simp [BareKey.length, BareKey.text]
    omega
  rw [relaxKeys, if_pos separates, fits.scan]
  simp [BareKey.quoted, length]

theorem relaxKeys_append_of_ordinary {front : List Char}
    (ordinary : ∀ c ∈ front, c ≠ '\x7b' ∧ c ≠ ',') :
    relaxKeys (front ++ rest) = front ++ relaxKeys rest := by
  induction front with
  | nil => rfl
  | cons c front ih =>
      obtain ⟨first, ordinary⟩ := List.forall_mem_cons.1 ordinary
      rw [List.cons_append, relaxKeys_cons_of_not_opens (not_opens_of_ordinary first), ih ordinary,
        List.cons_append]

theorem BareKey.Fits.ne_quote {bare : BareKey} (fits : bare.Fits) : '"' ∉ bare.text := by
  intro within
  simp only [BareKey.text, List.mem_append, List.mem_singleton] at within
  rcases within with ((within | within) | within) | within
  · cases fits.before _ within
  · cases fits.continues _ within
  · cases fits.after _ within
  · cases within

theorem keyAhead_append_quote : KeyAhead (text ++ '"' :: rest) ↔ KeyAhead text := by
  constructor
  · rintro ⟨bare, fits, later, same⟩
    rcases List.append_eq_append_iff.1 same with ⟨between, split, _⟩ | ⟨between, split, behind⟩
    · exact ⟨bare, fits, between, split.symm⟩
    · cases between with
      | nil => exact ⟨bare, fits, [], by simpa using split⟩
      | cons c between =>
          cases List.head_eq_of_cons_eq behind
          exact absurd (split ▸ List.mem_append_right _ List.mem_cons_self) fits.ne_quote
  · rintro ⟨bare, fits, later, same⟩
    exact ⟨bare, fits, later ++ '"' :: rest, by rw [← same, List.append_assoc]⟩

theorem relaxKeys_append_quote (text : List Char) :
    relaxKeys (text ++ '"' :: rest) = relaxKeys text ++ '"' :: relaxKeys rest := by
  induction size : text.length using Nat.strongRecOn generalizing text with
  | ind _ ih =>
      cases text with
      | nil =>
          rw [List.nil_append, relaxKeys_cons_of_not_opens (not_opens_of_ordinary (by decide)),
            relaxKeys_nil]
          rfl
      | cons c text =>
          have within : text.length < (c :: text).length := Nat.lt_succ_self _
          rw [List.cons_append]
          by_cases opens : Opens c text
          · obtain ⟨separates, bare, fits, later, rfl⟩ := opens
            have less : later.length ≤ (bare.text ++ later).length := by simp
            rw [List.append_assoc, relaxKeys_cons_of_fits separates fits,
              relaxKeys_cons_of_fits separates fits, ih later.length (by omega) later rfl]
            simp
          · have apart : ¬ Opens c (text ++ '"' :: rest) :=
              mt (And.imp_right keyAhead_append_quote.1) opens
            rw [relaxKeys_cons_of_not_opens apart, relaxKeys_cons_of_not_opens opens,
              ih text.length (by omega) text rfl, List.cons_append]

theorem hasBareKey_cons : HasBareKey (c :: rest) ↔ (c = ',' ∧ KeyAhead rest) ∨ HasBareKey rest := by
  constructor
  · rintro ⟨front, later, same, ahead⟩
    cases front with
    | nil =>
        cases same
        exact .inl ⟨rfl, ahead⟩
    | cons d front =>
        cases same
        exact .inr ⟨front, later, rfl, ahead⟩
  · rintro (⟨rfl, ahead⟩ | ⟨front, later, rfl, ahead⟩)
    · exact ⟨[], rest, rfl, ahead⟩
    · exact ⟨c :: front, later, rfl, ahead⟩

theorem not_opens_of_braceless (braceless : c ≠ '\x7b') (key : ¬ (c = ',' ∧ KeyAhead rest)) :
    ¬ Opens c rest :=
  fun opens => key ⟨opens.1.resolve_left braceless, opens.2⟩

instance : DecidablePred KeyAhead := fun _ => decidable_of_iff _ scan_isSome_iff

instance decidableHasBareKey : DecidablePred HasBareKey
  | [] => .isFalse fun ⟨_, _, same, _⟩ => nomatch (List.append_eq_nil_iff.1 same.symm).2
  | _ :: rest =>
    have := decidableHasBareKey rest
    decidable_of_iff _ hasBareKey_cons.symm

theorem relaxKeys_of_not_hasBareKey (braceless : '\x7b' ∉ text) (keyless : ¬ HasBareKey text) :
    relaxKeys text = text := by
  induction text with
  | nil => rw [relaxKeys_nil]
  | cons c text ih =>
      rw [List.mem_cons, not_or] at braceless
      rw [hasBareKey_cons, not_or] at keyless
      rw [relaxKeys_cons_of_not_opens (not_opens_of_braceless (Ne.symm braceless.1) keyless.1),
        ih braceless.2 keyless.2]

theorem relaxKeys_of_hasBareKey (braceless : '\x7b' ∉ text) (unquoted : '"' ∉ text)
    (key : HasBareKey text) :
    ∃ front c more, relaxKeys text = front ++ '"' :: c :: more ∧ '"' ∉ front ∧
      startsKey c = true := by
  induction text with
  | nil =>
      obtain ⟨front, rest, same, _⟩ := key
      simp at same
  | cons c text ih =>
      rw [List.mem_cons, not_or] at braceless unquoted
      by_cases here : c = ',' ∧ KeyAhead text
      · obtain ⟨rfl, ⟨before, word, after⟩, fits, later, rfl⟩ := here
        rw [relaxKeys_cons_of_fits (.inr rfl) fits]
        cases word with
        | nil => cases fits.starts
        | cons d word =>
            refine ⟨',' :: before, d, word ++ '"' :: after ++ ':' :: relaxKeys later, ?_, ?_,
              fits.starts⟩
            · simp [BareKey.quoted]
            · rw [List.mem_cons, not_or]
              exact ⟨unquoted.1, fun within => nomatch fits.before _ within⟩
      · obtain ⟨front, d, more, same, clean, starts⟩ :=
          ih braceless.2 unquoted.2 ((hasBareKey_cons.1 key).resolve_left here)
        refine ⟨c :: front, d, more, ?_, ?_, starts⟩
        · rw [relaxKeys_cons_of_not_opens (not_opens_of_braceless (Ne.symm braceless.1) here), same,
            List.cons_append]
        · rw [List.mem_cons, not_or]
          exact ⟨unquoted.1, clean⟩

@[simp] theorem relaxQuotes_nil : relaxQuotes [] = [] := by
  rw [relaxQuotes]

theorem relaxQuotes_append {front : List Char} (unquoted : '\'' ∉ front) :
    relaxQuotes (front ++ rest) = front ++ relaxQuotes rest := by
  induction front with
  | nil => rfl
  | cons c front ih =>
      have other : c ≠ '\'' := fun same => unquoted (same ▸ List.mem_cons_self)
      rw [List.cons_append, relaxQuotes, if_neg other,
        ih fun within => unquoted (List.mem_cons_of_mem _ within), List.cons_append]

theorem relaxQuotes_pair {inside : List Char} (unquoted : '\'' ∉ inside)
    (unescaped : '\\' ∉ inside) : relaxQuotes ('\'' :: (inside ++ '\'' :: rest)) =
      '"' :: (inside ++ '"' :: relaxQuotes rest) := by
  have only : ∀ c ∈ inside, (decide (c ≠ '\'') && decide (c ≠ '\\')) = true := by
    intro c within
    have unlike : c ≠ '\'' := fun same => unquoted (same ▸ within)
    have other : c ≠ '\\' := fun same => unescaped (same ▸ within)
    simp [unlike, other]
  have stops : ∀ c, ('\'' :: rest).head? = some c →
      (decide (c ≠ '\'') && decide (c ≠ '\\')) = false := by
    rintro _ ⟨⟩
    rfl
  obtain ⟨taken, _⟩ := span_front only stops
  rw [relaxQuotes, if_pos rfl]
  dsimp only
  rw [taken, List.drop_left, List.head?_cons, if_pos rfl, List.drop_length_add_append]
  rfl

theorem mem_of_rewritten {rewrite : List Char → List Char} (empty : rewrite [] = [])
    (step : ∀ d text, (∀ more, more <:+ text → ∀ c ∈ rewrite more, c = '"' ∨ c ∈ d :: text) →
      ∀ c ∈ rewrite (d :: text), c = '"' ∨ c ∈ d :: text)
    (within : c ∈ rewrite text) : c = '"' ∨ c ∈ text := by
  induction size : text.length using Nat.strongRecOn generalizing text c with
  | ind _ ih =>
      cases text with
      | nil =>
          rw [empty] at within
          cases within
      | cons d text =>
          refine step d text (fun more part c within => ?_) c within
          have less : more.length < (d :: text).length := Nat.lt_succ_of_le part.length_le
          refine (ih more.length (size ▸ less) within rfl).imp_right fun inside => ?_
          exact List.mem_cons_of_mem _ (part.mem inside)

theorem mem_relaxQuotes (within : c ∈ relaxQuotes text) : c = '"' ∨ c ∈ text := by
  refine mem_of_rewritten relaxQuotes_nil (fun d text here c within => ?_) within
  have kept (within : c ∈ d :: relaxQuotes text) : c = '"' ∨ c ∈ d :: text := by
    rcases List.mem_cons.1 within with rfl | within
    · exact .inr List.mem_cons_self
    · exact here text List.suffix_rfl c within
  rw [relaxQuotes] at within
  split at within
  · dsimp only at within
    split at within
    · rcases List.mem_append.1 within with within | within
      · rcases List.mem_cons.1 within with rfl | within
        · exact .inl rfl
        · exact .inr (List.mem_cons_of_mem _ ((List.takeWhile_sublist _).mem within))
      · rcases List.mem_cons.1 within with rfl | within
        · exact .inl rfl
        · exact here _ (List.drop_suffix ..) c within
    · exact kept within
  · exact kept within

theorem mem_relaxKeys (within : c ∈ relaxKeys text) : c = '"' ∨ c ∈ text := by
  refine mem_of_rewritten relaxKeys_nil (fun d text here c within => ?_) within
  by_cases opens : Opens d text
  · obtain ⟨separates, bare, fits, later, rfl⟩ := opens
    rw [relaxKeys_cons_of_fits separates fits] at within
    rcases List.mem_cons.1 within with rfl | within
    · exact .inr List.mem_cons_self
    · rcases List.mem_append.1 within with within | within
      · simp only [BareKey.quoted, List.mem_append, List.mem_cons, List.not_mem_nil,
          or_false] at within
        rcases within with ((within | rfl | within) | rfl | within) | rfl
        all_goals simp [BareKey.text, *]
      · exact here later (List.suffix_append _ _) c within
  · rw [relaxKeys_cons_of_not_opens opens] at within
    rcases List.mem_cons.1 within with rfl | within
    · exact .inr List.mem_cons_self
    · exact here text List.suffix_rfl c within

end Relax

section Read

variable {snippet : List Char} {target : Reference}

theorem readLiteral_eq_ok_iff {value : Json} :
    readLiteral snippet = .ok value ↔ Json.read (.ofList snippet) = .ok value ∨
      ((∀ other, Json.read (.ofList snippet) ≠ .ok other) ∧
        Json.read (.ofList (relax snippet)) = .ok value) := by
  unfold readLiteral
  cases Json.read (.ofList snippet) with
  | ok strict => simp
  | error fault => cases Json.read (.ofList (relax snippet)) <;> simp

theorem read_eq_ok_iff :
    read snippet = .ok target ↔ ∃ fields found, readLiteral snippet = .ok (.object fields) ∧
      Json.lookupField fields "id" = some found ∧ idOf found = .ok target.id ∧
      target.name = (Json.lookupField fields "name").bind Json.text? := by
  unfold read
  rw [except_bind_eq_ok]
  constructor
  · rintro ⟨value, literal, ok⟩
    split at ok
    · rename_i fields
      split at ok
      · cases ok
      · rename_i found known
        obtain ⟨id, given, same⟩ := except_bind_eq_ok.1 ok
        cases same
        exact ⟨fields, found, literal, known, given, rfl⟩
    · cases ok
  · rintro ⟨fields, found, literal, known, ok, name⟩
    refine ⟨_, literal, ?_⟩
    simp only [known]
    refine except_bind_eq_ok.2 ⟨_, ok, ?_⟩
    rw [← name]
    rfl

theorem unquoted_of_read (unescaped : '\\' ∉ snippet) (ok : read snippet = .ok target)
    {name : String} (named : target.name = some name) : '"' ∉ name.toList := by
  obtain ⟨fields, found, literal, _, _, same⟩ := read_eq_ok_iff.1 ok
  have unquoted : ∀ field ∈ fields, Json.Unquoted field.2 := by
    rcases readLiteral_eq_ok_iff.1 literal with strict | ⟨_, relaxed⟩
    · exact Json.unquoted_of_read (by rwa [String.toList_ofList]) strict
    · refine Json.unquoted_of_read (fun within => unescaped ?_) relaxed
      rw [String.toList_ofList] at within
      have within := (mem_relaxKeys within).resolve_left (by decide)
      exact (mem_relaxQuotes within).resolve_left (by decide)
  rw [named] at same
  obtain ⟨value, known, text⟩ := Option.bind_eq_some_iff.1 same.symm
  obtain ⟨field, first, rfl⟩ := Option.map_eq_some_iff.1 known
  refine unquoted field (List.mem_of_find?_eq_some first) name ?_
  cases written : field.2 with
  | text value =>
      rw [written] at text
      exact congrArg Json.text (Option.some.inj text)
  | _ =>
      rw [written] at text
      cases text

end Read

end Reference

end Formulary
