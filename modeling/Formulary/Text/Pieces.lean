/-!
Texts cut at a character.
-/

namespace Formulary.Text

/-- What lies between the separators of a text; one piece more than there are separators. -/
def pieces (separator : Char) : List Char → List (List Char)
  | [] => [[]]
  | c :: rest =>
    if c = separator then [] :: pieces separator rest
    else match pieces separator rest with
      | first :: more => (c :: first) :: more
      | [] => [[c]]

def nonEmptyPieces (separator : Char) (text : String) : List String :=
  ((pieces separator text.toList).filter (!·.isEmpty)).map .ofList

end Formulary.Text
