import Formulary.Text.Position

/-!
Slices of a text between places that are counted in bytes. A place within a character, or behind the
end of the text, cuts off nothing.
-/

namespace Formulary.Text

/-- The first `place` bytes of a text and what stands behind them, if both are text. -/
def cut? (place : Nat) (text : List Char) : Option (List Char × List Char) :=
  if place = 0 then some ([], text)
  else match text with
    | [] => none
    | c :: rest =>
      if place < c.utf8Size then none
      else (cut? (place - c.utf8Size) rest).map fun (front, back) => (c :: front, back)

def slice? (start stop : Nat) (text : List Char) : Option (List Char) :=
  if stop < start then none
  else do
    let (_, back) ← cut? start text
    let (inside, _) ← cut? (stop - start) back
    return inside

theorem cut?_append (front back : List Char) : cut? (size front) (front ++ back) = some (front, back) := by
  induction front with
  | nil =>
      unfold cut?
      rfl
  | cons c rest ih =>
      have positive := c.utf8Size_pos
      rw [List.cons_append, size_cons, cut?, if_neg (by omega), if_neg (by omega),
        Nat.add_sub_cancel_left, ih]
      rfl

theorem cut?_eq_some_iff {place : Nat} {text front back : List Char} :
    cut? place text = some (front, back) ↔ text = front ++ back ∧ size front = place := by
  constructor
  · intro cut
    induction text generalizing place front with
    | nil =>
        unfold cut? at cut
        split at cut
        · rename_i start
          cases cut
          exact ⟨rfl, start.symm⟩
        · cases cut
    | cons c rest ih =>
        unfold cut? at cut
        split at cut
        · rename_i start
          cases cut
          exact ⟨rfl, start.symm⟩
        · dsimp only at cut
          split at cut
          · cases cut
          · obtain ⟨⟨more, behind⟩, within, same⟩ := Option.map_eq_some_iff.1 cut
            cases same
            obtain ⟨rfl, size⟩ := ih within
            refine ⟨rfl, ?_⟩
            rw [size_cons, size]
            omega
  · rintro ⟨rfl, rfl⟩
    exact cut?_append front back

theorem slice?_append (before inside after : List Char) :
    slice? (size before) (size before + size inside) (before ++ inside ++ after) = some inside := by
  unfold slice?
  rw [if_neg (by omega), List.append_assoc, cut?_append, Nat.add_sub_cancel_left]
  dsimp only [bind, Option.bind]
  rw [cut?_append]
  rfl

end Formulary.Text
