import Formulary.Disk.Path
import Formulary.Proofs.Routing
import Mathlib.Logic.Relation

/-!
Spellings of a path. Paths are compared by their components, and two of them have the same ones if one
becomes the other when slashes and steps that stay in place are left out, or put in, where they do not
count.
-/

namespace Formulary

namespace Text

variable {separator : Char}

theorem pieces_ne_nil (separator : Char) (text : List Char) : pieces separator text ≠ [] := by
  rw [pieces_eq_splitOn]
  exact List.splitOn_ne_nil separator text

theorem pieces_append (front back : List Char) :
    pieces separator (front ++ separator :: back) =
      pieces separator front ++ pieces separator back := by
  simp only [pieces_eq_splitOn]
  exact List.splitOn_append_cons_self front back

theorem exists_pieces (separator : Char) (text : List Char) :
    ∃ first more, pieces separator text = first :: more ∧ separator ∉ first ∧
      text = first ++ more.flatMap (separator :: ·) := by
  induction text with
  | nil => exact ⟨[], [], rfl, by simp, rfl⟩
  | cons c rest ih =>
      obtain ⟨first, more, cut, bare, joined⟩ := ih
      rw [pieces, cut]
      by_cases same : c = separator
      · refine ⟨[], first :: more, by simp [same], by simp, ?_⟩
        simp [same, joined]
      · refine ⟨c :: first, more, by simp [same], ?_, by simp [joined]⟩
        simp [bare, Ne.symm same]

end Text

namespace Disk

open Text (pieces pieces_append pieces_ne_nil exists_pieces)

inductive Shortens : List Char → List Char → Prop
  | slash (before after : List Char) :
      Shortens (before ++ '/' :: '/' :: after) (before ++ '/' :: after)
  | stay (before after : List Char) :
      Shortens (before ++ '/' :: '.' :: '/' :: after) (before ++ '/' :: after)
  | lastSlash (before : List Char) (something : before ≠ []) : Shortens (before ++ ['/']) before
  | lastStay (before : List Char) : Shortens (before ++ ['/', '.']) (before ++ ['/'])

def Respelled : List Char → List Char → Prop :=
  Relation.EqvGen Shortens

def counts (piece : List Char) : Bool :=
  !piece.isEmpty && piece ≠ ['.']

theorem not_counts_iff {piece : List Char} : ¬counts piece = true ↔ piece = [] ∨ piece = ['.'] := by
  rw [counts]
  by_cases empty : piece = [] <;> simp [empty]

theorem steps_eq (path : String) :
    steps path = ((pieces '/' path.toList).filter counts).map String.ofList := by
  have dot (piece : List Char) : String.ofList piece = "." ↔ piece = ['.'] := by
    rw [← String.toList_inj, String.toList_ofList]
    rfl
  unfold steps Text.nonEmptyPieces
  rw [List.filter_map, List.filter_filter]
  congr 2
  funext piece
  simp [counts, dot, Bool.and_comm]

theorem components_congr {left right : String}
    (starts : left.toList.head? = right.toList.head?)
    (first : (pieces '/' left.toList).head? = (pieces '/' right.toList).head?)
    (same : (pieces '/' left.toList).filter counts = (pieces '/' right.toList).filter counts) :
    components left = components right := by
  unfold components isAbsolute
  rw [steps_eq, steps_eq, starts, first, same]

theorem Shortens.components_eq {left right : List Char} (shortens : Shortens left right) :
    components (.ofList left) = components (.ofList right) := by
  have head (before : List Char) (more : List (List Char)) :
      (pieces '/' before ++ more).head? = (pieces '/' before).head? := by
    simp [List.head?_append, List.head?_eq_some_head (pieces_ne_nil '/' before)]
  have start (before rest : List Char) :
      (before ++ '/' :: rest).head? = some (before.head?.getD '/') := by
    cases before <;> rfl
  have slash (after : List Char) : pieces '/' ('/' :: after) = [] :: pieces '/' after := by
    simp [pieces]
  have stay (after : List Char) : pieces '/' ('.' :: '/' :: after) = ['.'] :: pieces '/' after := by
    simp [pieces]
  apply components_congr
  all_goals simp only [String.toList_ofList]
  · cases shortens with
    | slash | stay | lastStay => simp only [start]
    | lastSlash before something =>
        rw [start]
        cases right with
        | nil => exact absurd rfl something
        | cons c rest => rfl
  · cases shortens with
    | slash | stay | lastStay | lastSlash => simp only [pieces_append, head]
  · cases shortens with
    | slash before after => simp [pieces_append, slash, counts]
    | stay before after => simp [pieces_append, stay, counts]
    | lastSlash => simp [pieces_append, pieces, counts]
    | lastStay => simp [pieces_append, pieces, counts]

theorem Respelled.components_eq {left right : List Char} (respelled : Respelled left right) :
    components (.ofList left) = components (.ofList right) := by
  induction respelled with
  | rel _ _ shortens => exact shortens.components_eq
  | refl _ => rfl
  | symm _ _ _ ih => exact ih.symm
  | trans _ _ _ _ _ first second => exact first.trans second

def Component.text : Component → List Char
  | root => []
  | here => ['.']
  | step name => name.toList

def slashed (list : List (List Char)) : List Char :=
  list.flatMap ('/' :: ·)

@[simp] theorem slashed_nil : slashed [] = [] :=
  rfl

@[simp] theorem slashed_cons (piece : List Char) (more : List (List Char)) :
    slashed (piece :: more) = '/' :: (piece ++ slashed more) :=
  rfl

def spelling : List Component → List Char
  | [] => []
  | first :: more => first.text ++ slashed (more.map Component.text) ++ ['/']

theorem respelled_slashed {front : List Char} {list : List (List Char)}
    (something : front ++ slashed list ≠ []) :
    Respelled (front ++ slashed list) (front ++ slashed (list.filter counts) ++ ['/']) := by
  induction list generalizing front with
  | nil =>
      rw [slashed_nil, List.append_nil] at something
      rw [List.filter_nil, slashed_nil, List.append_nil]
      exact .symm _ _ (.rel _ _ (.lastSlash front something))
  | cons piece more ih =>
      by_cases counted : counts piece = true
      · have onward := @ih (front ++ '/' :: piece) (by simp)
        simpa [counted] using onward
      · rw [List.filter_cons_of_neg counted]
        cases more with
        | nil =>
            rw [List.filter_nil, slashed_nil, List.append_nil]
            rcases not_counts_iff.1 counted with rfl | rfl
            · exact .refl _
            · exact .rel _ _ (.lastStay front)
        | cons next later =>
            refine .trans _ _ _ (.rel _ _ ?_) (ih (by simp))
            rcases not_counts_iff.1 counted with rfl | rfl
            · exact .slash front _
            · exact .stay front _

theorem respelled_spelling (text : List Char) :
    Respelled text (spelling (components (.ofList text))) := by
  obtain ⟨first, more, cut, bare, joined⟩ := exists_pieces '/' text
  change text = first ++ slashed more at joined
  have texts (list : List (List Char)) :
      (list.map (Component.step ∘ String.ofList)).map Component.text = list := by
    simp [Component.text, Function.comp_def]
  have shown (something : text ≠ []) :
      Respelled text (first ++ slashed (more.filter counts) ++ ['/']) := by
    rw [joined] at something ⊢
    exact respelled_slashed something
  unfold components isAbsolute
  rw [steps_eq, String.toList_ofList, cut, List.map_map]
  by_cases counted : counts first = true
  · cases first with
    | nil => simp [counts] at counted
    | cons c rest =>
        have relative : text.head? ≠ some '/' := by
          rw [joined]
          rintro ⟨⟩
          exact bare List.mem_cons_self
        have other : c :: rest ≠ ['.'] := fun here => by simp [here, counts] at counted
        simpa [relative, other, counted, spelling, Component.text, texts] using
          shown (by simp [joined])
  · rw [List.filter_cons_of_neg counted]
    rcases not_counts_iff.1 counted with rfl | rfl
    · cases more with
      | nil =>
          rw [joined]
          exact .refl _
      | cons next later =>
          have absolute : text.head? = some '/' := by simp [joined]
          simpa [absolute, spelling, Component.text, texts] using shown (by simp [joined])
    · have relative : text.head? ≠ some '/' := by simp [joined]
      simpa [relative, spelling, Component.text, texts] using shown (by simp [joined])

/-- Two paths have the same components if one is a spelling of the other, and only then. -/
theorem components_eq_iff {left right : String} :
    components left = components right ↔ Respelled left.toList right.toList := by
  constructor
  · intro same
    have forth := respelled_spelling left.toList
    have back := respelled_spelling right.toList
    rw [String.ofList_toList] at forth back
    rw [same] at forth
    exact .trans _ _ _ forth (.symm _ _ back)
  · intro respelled
    simpa only [String.ofList_toList] using respelled.components_eq

end Disk

end Formulary
