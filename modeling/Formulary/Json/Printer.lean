import Formulary.Decimal.Layout
import Formulary.Json.Value

/-!
The written forms of JSON values: on one line, or with one item a line.
-/

namespace Formulary.Json

def hexDigit (value : Nat) : Char :=
  if value < 10 then .ofNat ('0'.toNat + value) else .ofNat ('a'.toNat + (value - 10))

def writeCharacter (c : Char) : List Char :=
  match c with
  | '"' => ['\\', '"']
  | '\\' => ['\\', '\\']
  | '\x08' => ['\\', 'b']
  | '\x0c' => ['\\', 'f']
  | '\n' => ['\\', 'n']
  | '\r' => ['\\', 'r']
  | '\t' => ['\\', 't']
  | c =>
    if c.toNat < 0x20 then
      ['\\', 'u', '0', '0', hexDigit (c.toNat / 16), hexDigit (c.toNat % 16)]
    else [c]

def writeText (text : String) : String :=
  "\"" ++ .ofList (text.toList.flatMap writeCharacter) ++ "\""

def writeNumber : Number → String
  | .integer value => toString value
  | .real value => if value.isFinite then Decimal.Layout.json.write value else "null"

def writeBoolean (value : Bool) : String :=
  if value then "true" else "false"

mutual

def write : Json → String
  | .null => "null"
  | .boolean value => writeBoolean value
  | .number value => writeNumber value
  | .text value => writeText value
  | .array items => "[" ++ ",".intercalate (writeItems items) ++ "]"
  | .object fields => "\x7b" ++ ",".intercalate (writeFields fields) ++ "\x7d"

def writeItems : List Json → List String
  | [] => []
  | item :: rest => write item :: writeItems rest

def writeFields : List (String × Json) → List String
  | [] => []
  | (key, value) :: rest => (writeText key ++ ":" ++ write value) :: writeFields rest

end

/-- `items` between two brackets, each on a line of its own that starts with `margin` and two
blanks. -/
def writeLines (opening closing margin : String) : List String → String
  | [] => opening ++ closing
  | items =>
    let separator := "\n" ++ margin ++ "  "
    opening ++ separator ++ ("," ++ separator).intercalate items ++ "\n" ++ margin ++ closing

mutual

def writeIndented (margin : String) : Json → String
  | .array items => writeLines "[" "]" margin (writeIndentedItems (margin ++ "  ") items)
  | .object fields => writeLines "\x7b" "\x7d" margin (writeIndentedFields (margin ++ "  ") fields)
  | .null => "null"
  | .boolean value => writeBoolean value
  | .number value => writeNumber value
  | .text value => writeText value

def writeIndentedItems (margin : String) : List Json → List String
  | [] => []
  | item :: rest => writeIndented margin item :: writeIndentedItems margin rest

def writeIndentedFields (margin : String) : List (String × Json) → List String
  | [] => []
  | (key, value) :: rest =>
    (writeText key ++ ": " ++ writeIndented margin value) :: writeIndentedFields margin rest

end

def writePretty (value : Json) : String :=
  writeIndented "" value

end Formulary.Json
