/-!
Sizes and positions of text counted in the bytes of its UTF-8 form.
-/

namespace Formulary.Text

def size : List Char → Nat
  | [] => 0
  | c :: rest => c.utf8Size + size rest

@[simp] theorem size_nil : size [] = 0 := rfl

@[simp] theorem size_cons (c : Char) (rest : List Char) :
    size (c :: rest) = c.utf8Size + size rest := rfl

@[simp] theorem size_append (left right : List Char) :
    size (left ++ right) = size left + size right := by
  induction left with
  | nil => rw [List.nil_append, size_nil, Nat.zero_add]
  | cons c rest ih => rw [List.cons_append, size_cons, size_cons, ih, Nat.add_assoc]

theorem size_eq_zero_iff {text : List Char} : size text = 0 ↔ text = [] := by
  cases text with
  | nil => simp
  | cons c rest =>
      have positive := c.utf8Size_pos
      simp only [size_cons, List.cons_ne_nil, iff_false]
      omega

structure Position where
  line : Nat
  column : Nat
  deriving DecidableEq, Repr

namespace Position

def start : Position := ⟨1, 0⟩

/-- The place that lies `bytes` further in `text`; at most its end. -/
def advance (place : Position) (bytes : Nat) : List Char → Position
  | [] => place
  | c :: rest =>
    if bytes = 0 then place
    else if bytes < c.utf8Size then { place with column := place.column + bytes }
    else if c = '\n' then advance ⟨place.line + 1, 0⟩ (bytes - c.utf8Size) rest
    else advance { place with column := place.column + c.utf8Size } (bytes - c.utf8Size) rest

end Position

end Formulary.Text
