import Formulary.Api.Route
import Mathlib.Data.List.Induction
import Mathlib.Data.List.TakeWhile
import Mathlib.Data.Nat.Digits.Defs

/-!
Routes against their table. A row has a method and the segments of a path, and some rows have an id
among the segments. A request that fits no row is refused for one of three reasons, which depend on
how much of a row it fits.
-/

namespace Formulary

namespace Text

structure Cut (separator : Char) (text : List Char) (found : List (List Char)) : Prop where
  nonempty : found ≠ []
  bare : ∀ piece ∈ found, separator ∉ piece
  joined : [separator].intercalate found = text

theorem pieces_eq_splitOn (separator : Char) (text : List Char) :
    pieces separator text = text.splitOn separator := by
  induction text with
  | nil => rfl
  | cons c rest ih =>
      rw [pieces, List.splitOn_cons_eq_if_modifyHead, ← ih]
      by_cases same : c = separator
      · simp [same]
      · rw [if_neg same, if_neg (by simpa using same)]
        cases more : pieces separator rest with
        | nil =>
            rw [ih] at more
            exact absurd more (List.splitOn_ne_nil separator rest)
        | cons first later => rfl

theorem bare_pieces (separator : Char) (text : List Char) :
    ∀ piece ∈ pieces separator text, separator ∉ piece := by
  induction text with
  | nil => simp [pieces]
  | cons c rest ih =>
      rw [pieces]
      split
      · exact List.forall_mem_cons.2 ⟨List.not_mem_nil, ih⟩
      · rename_i different
        split
        · rename_i first more cut
          rw [cut] at ih
          obtain ⟨bare, others⟩ := List.forall_mem_cons.1 ih
          refine List.forall_mem_cons.2 ⟨fun inside => ?_, others⟩
          rcases List.mem_cons.1 inside with same | inside
          · exact different same.symm
          · exact bare inside
        · exact List.forall_mem_singleton.2 fun inside => different (List.mem_singleton.1 inside).symm

theorem cut_iff {separator : Char} {text : List Char} {found : List (List Char)} :
    Cut separator text found ↔ found = pieces separator text := by
  rw [pieces_eq_splitOn]
  constructor
  · rintro ⟨nonempty, bare, rfl⟩
    exact (List.splitOn_intercalate separator bare nonempty).symm
  · rintro rfl
    refine ⟨List.splitOn_ne_nil separator text, ?_, List.intercalate_splitOn separator⟩
    rw [← pieces_eq_splitOn]
    exact bare_pieces separator text

structure Surrounds (text core : List Char) : Prop where
  around : ∃ before after, text = before ++ core ++ after ∧
    (∀ c ∈ before, isBlank c = true) ∧ ∀ c ∈ after, isBlank c = true
  starts : ∀ c, core.head? = some c → isBlank c = false
  ends : ∀ c, core.getLast? = some c → isBlank c = false

theorem dropWhile_of_visible {text : List Char} (visible : ∀ c, text.head? = some c → isBlank c = false) :
    text.dropWhile isBlank = text := by
  cases text with
  | nil => rfl
  | cons c rest => rw [List.dropWhile_cons_of_neg (by simp [visible c rfl])]

theorem surrounds_stripEnds (text : List Char) : Surrounds text (stripEnds isBlank text) := by
  refine ⟨?_, fun c => not_drop_of_head?, fun c => not_drop_of_getLast?⟩
  have front := List.takeWhile_append_dropWhile (p := isBlank) (l := text)
  have back := List.takeWhile_append_dropWhile (p := isBlank) (l := (text.dropWhile isBlank).reverse)
  refine ⟨text.takeWhile isBlank,
    ((text.dropWhile isBlank).reverse.takeWhile isBlank).reverse, ?_, ?_, ?_⟩
  · rw [List.append_assoc, stripEnds, ← List.reverse_append, back, List.reverse_reverse, front]
  · intro c inside
    exact List.mem_takeWhile_imp inside
  · intro c inside
    exact List.mem_takeWhile_imp (List.mem_reverse.1 inside)

theorem surrounds_iff {text core : List Char} :
    Surrounds text core ↔ core = stripEnds isBlank text := by
  constructor
  · rintro ⟨⟨before, after, rfl, white, blank⟩, starts, ends⟩
    have behind : (core ++ after).dropWhile isBlank = core ++ if core = [] then [] else after := by
      cases core with
      | nil => exact List.dropWhile_eq_nil_iff.2 blank
      | cons c rest => exact dropWhile_of_visible starts
    have last (rest : List Char) (only : ∀ c ∈ rest, isBlank c = true) :
        ((core ++ rest).reverse.dropWhile isBlank).reverse = core := by
      rw [List.reverse_append, List.dropWhile_append_of_pos (by simpa using only),
        dropWhile_of_visible (by simpa using ends), List.reverse_reverse]
    rw [stripEnds, List.append_assoc, List.dropWhile_append_of_pos white, behind, last]
    split
    · exact List.forall_mem_nil _
    · exact blank
  · rintro rfl
    exact surrounds_stripEnds text

def magnitude (digits : List Char) : Nat :=
  Nat.ofDigits 10 (digits.reverse.map Decimal.digitValue)

inductive Signed (digits : List Char) : List Char → Int → Prop
  | bare : Signed digits digits (magnitude digits)
  | plus : Signed digits ('+' :: digits) (magnitude digits)
  | minus : Signed digits ('-' :: digits) (-magnitude digits)

structure Denotes (text : String) (value : Int) : Prop where
  written : ∃ digits, digits ≠ [] ∧ (∀ c ∈ digits, Decimal.isDigit c = true) ∧
    Signed digits text.toList value
  least : -2 ^ 63 ≤ value
  greatest : value < 2 ^ 63

theorem valueOfDigits_eq_magnitude (digits : List Char) :
    Decimal.valueOfDigits digits 0 = magnitude digits := by
  induction digits using List.reverseRecOn with
  | nil => rfl
  | append_singleton front digit ih =>
      have later : Decimal.valueOfDigits (front ++ [digit]) 0 =
          10 * Decimal.valueOfDigits front 0 + Decimal.digitValue digit := List.foldl_append
      have lowest : magnitude (front ++ [digit]) =
          Decimal.digitValue digit + 10 * magnitude front := by
        simp [magnitude, Nat.ofDigits_cons]
      omega

theorem natural?_eq_some_iff {digits : List Char} {value : Nat} :
    natural? digits = some value ↔
      digits ≠ [] ∧ (∀ c ∈ digits, Decimal.isDigit c = true) ∧ value = magnitude digits := by
  cases digits with
  | nil => simp [natural?]
  | cons digit rest =>
      rw [← valueOfDigits_eq_magnitude]
      unfold natural?
      dsimp only
      by_cases only : (digit :: rest).all Decimal.isDigit = true
      · rw [if_pos only, Option.some.injEq]
        exact ⟨fun same => ⟨List.cons_ne_nil _ _, List.all_eq_true.1 only, same.symm⟩,
          fun held => held.2.2.symm⟩
      · rw [if_neg only]
        exact ⟨nofun, fun held => absurd (List.all_eq_true.2 held.2.1) only⟩

def signed? : List Char → Option Int
  | '+' :: digits => (natural? digits).map Int.ofNat
  | '-' :: digits => (natural? digits).map (-Int.ofNat ·)
  | digits => (natural? digits).map Int.ofNat

theorem integer?_eq (text : String) : integer? text =
    (signed? text.toList).filter fun value =>
      -greatestInteger ≤ value + 1 && value ≤ greatestInteger := by
  unfold integer?
  refine congrArg (Option.filter _) ?_
  generalize text.toList = chars
  split
  · rfl
  · rename_i digits
    rw [signed?]
    cases natural? digits <;> rfl
  · rename_i noPlus noMinus
    rw [signed?.eq_3 _ noPlus noMinus]

theorem signed?_eq_some_iff {text : List Char} {value : Int} : signed? text = some value ↔
    ∃ digits, digits ≠ [] ∧ (∀ c ∈ digits, Decimal.isDigit c = true) ∧ Signed digits text value := by
  have plus : Decimal.isDigit '+' = false := by decide
  have minus : Decimal.isDigit '-' = false := by decide
  unfold signed?
  split <;> simp only [Option.map_eq_some_iff, natural?_eq_some_iff]
  · rename_i digits
    constructor
    · rintro ⟨_, ⟨nonempty, only, rfl⟩, rfl⟩
      exact ⟨digits, nonempty, only, .plus⟩
    · rintro ⟨_, nonempty, only, written⟩
      cases written with
      | bare => simp [plus] at only
      | plus => exact ⟨_, ⟨nonempty, only, rfl⟩, rfl⟩
  · rename_i digits
    constructor
    · rintro ⟨_, ⟨nonempty, only, rfl⟩, rfl⟩
      exact ⟨digits, nonempty, only, .minus⟩
    · rintro ⟨_, nonempty, only, written⟩
      cases written with
      | bare => simp [minus] at only
      | minus => exact ⟨_, ⟨nonempty, only, rfl⟩, rfl⟩
  · rename_i noPlus noMinus
    constructor
    · rintro ⟨_, ⟨nonempty, only, rfl⟩, rfl⟩
      exact ⟨text, nonempty, only, .bare⟩
    · rintro ⟨digits, nonempty, only, written⟩
      cases written with
      | bare => exact ⟨_, ⟨nonempty, only, rfl⟩, rfl⟩
      | plus => exact absurd rfl (noPlus digits)
      | minus => exact absurd rfl (noMinus digits)

theorem integer?_eq_some_iff {text : String} {value : Int} :
    integer? text = some value ↔ Denotes text value := by
  rw [integer?_eq, Option.filter_eq_some_iff, signed?_eq_some_iff, Bool.and_eq_true,
    decide_eq_true_eq, decide_eq_true_eq, greatestInteger]
  constructor
  · rintro ⟨written, least, greatest⟩
    exact ⟨written, by omega, by omega⟩
  · rintro ⟨written, least, greatest⟩
    exact ⟨written, by omega, by omega⟩

end Text

namespace Api

open Text (Denotes)

def HasSegments (path : String) (segments : List String) : Prop :=
  ∃ core pieces, Text.Surrounds path.toList core ∧ Text.Cut '/' core pieces ∧
    segments = (pieces.filter (!·.isEmpty)).map String.ofList

theorem hasSegments_iff {path : String} {segments : List String} :
    HasSegments path segments ↔ segments = Route.segments path := by
  unfold HasSegments Route.segments Text.nonEmptyPieces Text.trim
  simp only [Text.surrounds_iff, Text.cut_iff, String.toList_ofList]
  constructor
  · rintro ⟨_, _, rfl, rfl, same⟩
    exact same
  · intro same
    exact ⟨_, _, rfl, rfl, same⟩

inductive Fixed : Method → List String → Route → Prop
  | welcome : Fixed .get [] .welcome
  | createResource : Fixed .post [] .createResource
  | updateVariable : Fixed .post ["expressions"] .updateVariable
  | evaluate : Fixed .post ["expressions", "evaluate"] .evaluate

inductive Identified : Method → List String → String → (Int → Route) → Prop
  | processCalculation {text : String} (other : text ≠ "evaluate") :
      Identified .get ["expressions", text] text .processCalculation
  | recalculate {text : String} (other : text ≠ "evaluate") :
      Identified .put ["expressions", text] text .recalculate
  | lineage {text : String} (other : text ≠ "expressions") : Identified .get [text] text .lineage
  | move {text : String} (other : text ≠ "expressions") : Identified .put [text] text .move
  | children {text : String} (other : text ≠ "expressions") :
      Identified .get [text, "children"] text .children

def Listed (method : Method) (segments : List String) (route : Route) : Prop :=
  Fixed method segments route ∨
    ∃ text make id, Identified method segments text make ∧ Denotes text id ∧ route = make id

def Offered (method : Method) (segments : List String) : Prop :=
  (∃ route, Fixed method segments route) ∨ ∃ text make, Identified method segments text make

inductive Shaped : List String → Prop
  | root : Shaped []
  | single {text : String} : Shaped [text]
  | expression {text : String} : Shaped ["expressions", text]
  | children {text : String} : Shaped [text, "children"]

/-- What comes of a method and the segments of a path. -/
inductive Routed (method : Method) (path : String) (segments : List String) :
    Except Fault Route → Prop
  | fixed {route : Route} (row : Fixed method segments route) : Routed method path segments (.ok route)
  | identified {text : String} {make : Int → Route} {id : Int}
      (row : Identified method segments text make) (denotes : Denotes text id) :
      Routed method path segments (.ok (make id))
  | invalidId {text : String} {make : Int → Route} (row : Identified method segments text make)
      (unreadable : ∀ id, ¬Denotes text id) : Routed method path segments (.error (.invalidId text))
  | notAllowed (shaped : Shaped segments) (missing : ¬Offered method segments) :
      Routed method path segments (.error (.methodNotAllowed method path))
  | notFound (unshaped : ¬Shaped segments) : Routed method path segments (.error (.routeNotFound path))

variable {method : Method} {path text : String} {segments : List String} {make : Int → Route}

theorem not_offered (fixed : ∀ route, ¬Fixed method segments route)
    (identified : ∀ text make, ¬Identified method segments text make) : ¬Offered method segments :=
  fun offered => offered.elim (fun ⟨route, row⟩ => fixed route row)
    fun ⟨text, make, row⟩ => identified text make row

theorem Routed.withId (row : Identified method segments text make) :
    Routed method path segments (Route.withId make text) := by
  unfold Route.withId
  cases read : Text.integer? text with
  | some id => exact .identified row (Text.integer?_eq_some_iff.1 read)
  | none =>
      refine .invalidId row fun id denotes => ?_
      rw [Text.integer?_eq_some_iff.2 denotes] at read
      cases read

theorem routed_find (method : Method) (path : String) :
    Routed method path (Route.segments path) (Route.find method path) := by
  unfold Route.find
  generalize Route.segments path = segments
  dsimp only
  split
  · cases method with
    | get => exact .fixed .welcome
    | post => exact .fixed .createResource
    | put | patch | delete => exact .notAllowed .root (not_offered nofun nofun)
  · rename_i first
    by_cases word : first = "expressions"
    · rw [if_pos word, word]
      cases method with
      | post => exact .fixed .updateVariable
      | get | put | patch | delete =>
          refine .notAllowed .single (not_offered (fun _ row => ?_) fun _ _ row => ?_) <;>
            cases row <;> contradiction
    · rw [if_neg word]
      cases method with
      | get => exact .withId (.lineage word)
      | put => exact .withId (.move word)
      | post | patch | delete =>
          refine .notAllowed .single (not_offered (fun _ row => ?_) fun _ _ row => ?_) <;>
            cases row <;> contradiction
  · rename_i first second
    by_cases word : first = "expressions"
    · rw [if_pos word, word]
      by_cases last : second = "evaluate"
      · rw [if_pos last]
        cases method with
        | post =>
            subst last
            exact .fixed .evaluate
        | get | put | patch | delete =>
            refine .notAllowed .expression (not_offered (fun _ row => ?_) fun _ _ row => ?_) <;>
              cases row <;> contradiction
      · rw [if_neg last]
        cases method with
        | get => exact .withId (.processCalculation last)
        | put => exact .withId (.recalculate last)
        | post | patch | delete =>
            refine .notAllowed .expression (not_offered (fun _ row => ?_) fun _ _ row => ?_) <;>
              cases row <;> contradiction
    · rw [if_neg word]
      by_cases last : second = "children"
      · rw [if_pos last]
        cases method with
        | get =>
            subst last
            exact .withId (.children word)
        | post | put | patch | delete =>
            refine .notAllowed (last ▸ .children) (not_offered (fun _ row => ?_) fun _ _ row => ?_) <;>
              cases row <;> contradiction
      · rw [if_neg last]
        refine .notFound fun shaped => ?_
        cases shaped <;> contradiction
  · rename_i none one two
    refine .notFound fun shaped => ?_
    cases shaped with
    | root => exact none rfl
    | single => exact one _ rfl
    | expression | children => exact two _ _ rfl

theorem find_of_fixed {route : Route} (row : Fixed method (Route.segments path) route) :
    Route.find method path = .ok route := by
  unfold Route.find
  generalize Route.segments path = segments at row
  cases row <;> rfl

theorem find_of_identified (row : Identified method (Route.segments path) text make) :
    Route.find method path = Route.withId make text := by
  unfold Route.find
  generalize Route.segments path = segments at row
  cases row with
  | processCalculation other | recalculate other => simp only [if_neg other, if_true]
  | lineage other | move other => simp only [if_neg other]
  | children other => simp only [if_neg other, if_true]

theorem Offered.shaped (offered : Offered method segments) : Shaped segments := by
  rcases offered with ⟨_, row⟩ | ⟨_, _, row⟩
  · cases row with
    | welcome | createResource => exact .root
    | updateVariable => exact .single
    | evaluate => exact .expression
  · cases row with
    | processCalculation | recalculate => exact .expression
    | lineage | move => exact .single
    | children => exact .children

theorem Routed.not_allowed {result : Except Fault Route} (routed : Routed method path segments result)
    (shaped : Shaped segments) (missing : ¬Offered method segments) :
    result = .error (.methodNotAllowed method path) := by
  cases routed with
  | fixed row => exact absurd (.inl ⟨_, row⟩) missing
  | identified row | invalidId row => exact absurd (.inr ⟨_, _, row⟩) missing
  | notAllowed => rfl
  | notFound unshaped => exact absurd shaped unshaped

theorem Routed.not_found {result : Except Fault Route} (routed : Routed method path segments result)
    (unshaped : ¬Shaped segments) : result = .error (.routeNotFound path) := by
  cases routed with
  | fixed row => exact absurd (Offered.shaped (.inl ⟨_, row⟩)) unshaped
  | identified row | invalidId row => exact absurd (Offered.shaped (.inr ⟨_, _, row⟩)) unshaped
  | notAllowed shaped => exact absurd shaped unshaped
  | notFound => rfl

theorem find_eq_iff {result : Except Fault Route} : Route.find method path = result ↔
    Routed method path (Route.segments path) result := by
  constructor
  · rintro rfl
    exact routed_find method path
  · intro routed
    cases routed with
    | fixed row => exact find_of_fixed row
    | identified row denotes =>
        rw [find_of_identified row, Route.withId, Text.integer?_eq_some_iff.2 denotes]
    | invalidId row unreadable =>
        rw [find_of_identified row, Route.withId]
        split
        · rename_i id read
          exact absurd (Text.integer?_eq_some_iff.1 read) (unreadable id)
        · rfl
    | notAllowed shaped missing => exact (routed_find method path).not_allowed shaped missing
    | notFound unshaped => exact (routed_find method path).not_found unshaped

theorem find_eq_ok_iff {route : Route} : Route.find method path = .ok route ↔
    Listed method (Route.segments path) route := by
  rw [find_eq_iff]
  constructor
  · intro routed
    cases routed with
    | fixed row => exact .inl row
    | identified row denotes => exact .inr ⟨_, _, _, row, denotes, rfl⟩
  · rintro (row | ⟨text, make, id, row, denotes, rfl⟩)
    · exact .fixed row
    · exact .identified row denotes

/-- A path has segments in one way. A request is routed exactly if it fits a row, as that row says; it is
refused over its id if it fits a row but for that, over its method if its segments have a shape of the
table but fit no row with this method, and else over its path. So nothing about a path counts but its
segments. -/
theorem find_by_table (method : Method) (path : String) :
    ∃ segments, (∀ other, HasSegments path other ↔ other = segments) ∧
      (∀ route, Route.find method path = .ok route ↔ Listed method segments route) ∧
      (∀ text, Route.find method path = .error (.invalidId text) ↔
        ∃ make, Identified method segments text make ∧ ∀ id, ¬Denotes text id) ∧
      (∀ refused named, Route.find method path = .error (.methodNotAllowed refused named) ↔
        (refused = method ∧ named = path) ∧ Shaped segments ∧ ¬Offered method segments) ∧
      (∀ named, Route.find method path = .error (.routeNotFound named) ↔
        named = path ∧ ¬Shaped segments) ∧
      ∀ other, HasSegments other segments → ∀ route,
        Route.find method other = .ok route ↔ Route.find method path = .ok route := by
  refine ⟨Route.segments path, fun _ => hasSegments_iff, fun _ => find_eq_ok_iff, fun text => ?_,
    fun refused named => ?_, fun named => ?_, fun other same route => ?_⟩
  · rw [find_eq_iff]
    constructor
    · intro routed
      cases routed with
      | invalidId row unreadable => exact ⟨_, row, unreadable⟩
    · rintro ⟨make, row, unreadable⟩
      exact .invalidId row unreadable
  · rw [find_eq_iff]
    constructor
    · intro routed
      cases routed with
      | notAllowed shaped missing => exact ⟨⟨rfl, rfl⟩, shaped, missing⟩
    · rintro ⟨⟨rfl, rfl⟩, shaped, missing⟩
      exact .notAllowed shaped missing
  · rw [find_eq_iff]
    constructor
    · intro routed
      cases routed with
      | notFound unshaped => exact ⟨rfl, unshaped⟩
    · rintro ⟨rfl, unshaped⟩
      exact .notFound unshaped
  · rw [find_eq_ok_iff, find_eq_ok_iff, hasSegments_iff.1 same]

example : Route.find .get " //expressions/children/ " = .error (.invalidId "children") := rfl

end Api

end Formulary
