/-!
Blank characters, and text with the blanks at its two ends removed.
-/

namespace Formulary.Text

/-- The first and last code points of the ranges that carry the `White_Space` property. -/
def blankRanges : List (Nat × Nat) :=
  [(0x09, 0x0D), (0x20, 0x20), (0x85, 0x85), (0xA0, 0xA0), (0x1680, 0x1680), (0x2000, 0x200A),
   (0x2028, 0x2029), (0x202F, 0x202F), (0x205F, 0x205F), (0x3000, 0x3000)]

def isBlank (c : Char) : Bool :=
  blankRanges.any fun (first, last) => first ≤ c.toNat && c.toNat ≤ last

def stripEnds (drop : Char → Bool) (text : List Char) : List Char :=
  ((text.dropWhile drop).reverse.dropWhile drop).reverse

def trim (text : String) : String :=
  .ofList (stripEnds isBlank text.toList)

def Trimmed (text : String) : Prop :=
  text ≠ "" ∧ (∀ c, text.toList.head? = some c → isBlank c = false) ∧
    ∀ c, text.toList.getLast? = some c → isBlank c = false

theorem not_drop_of_getLast? {drop : Char → Bool} {text : List Char} {c : Char}
    (last : (stripEnds drop text).getLast? = some c) : drop c = false := by
  unfold stripEnds at last
  rw [List.getLast?_reverse] at last
  have kept := List.head?_dropWhile_not drop (text.dropWhile drop).reverse
  rw [last] at kept
  exact kept

theorem not_drop_of_head? {drop : Char → Bool} {text : List Char} {c : Char}
    (first : (stripEnds drop text).head? = some c) : drop c = false := by
  -- What is stripped at the end leaves a prefix, which starts as the whole does.
  have prefixed : stripEnds drop text <+: text.dropWhile drop := by
    unfold stripEnds
    rw [← List.reverse_suffix, List.reverse_reverse]
    exact List.dropWhile_suffix drop
  obtain ⟨rest, whole⟩ := prefixed
  have kept := List.head?_dropWhile_not drop text
  rw [← whole, List.head?_append, first] at kept
  exact kept

theorem trimmed_trim {text : String} (something : trim text ≠ "") : Trimmed (trim text) := by
  refine ⟨something, fun c first => ?_, fun c last => ?_⟩
  · rw [trim, String.toList_ofList] at first
    exact not_drop_of_head? first
  · rw [trim, String.toList_ofList] at last
    exact not_drop_of_getLast? last

theorem trimmed_of_trim_eq {text : String} (same : trim text = text) (something : text ≠ "") :
    Trimmed text := by
  rw [← same] at something ⊢
  exact trimmed_trim something

end Formulary.Text
