import Formulary.Text.Visible

/-!
Texts between quotes, as a sentence shows them.
-/

namespace Formulary.Text

def quoteCharacter (c : Char) : String :=
  match c with
  | '"' => "\\\""
  | '\\' => "\\\\"
  | '\n' => "\\n"
  | '\r' => "\\r"
  | '\t' => "\\t"
  | '\x00' => "\\0"
  | c =>
    if isVisible c then c.toString
    else "\\u\x7b" ++ .ofList (Nat.toDigits 16 c.toNat) ++ "\x7d"

def quote (text : String) : String :=
  "\"" ++ "".intercalate (text.toList.map quoteCharacter) ++ "\""

end Formulary.Text
