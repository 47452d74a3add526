import Formulary.Decimal.Layout
import Formulary.Json.Value
import Formulary.Text.Integer
import Formulary.Text.Quoted

/-!
Decoding of JSON values into records. A record is written as an object, or as an array of its
fields in the order of their declaration.

The fields of an object are looked at in the order of their keys, so of several bad ones the first
in that order is reported; only then a field that is missing is.
-/

namespace Formulary.Json

inductive Mismatch
  | missing (field : String)
  | wrongType (found : Json) (wanted : String)
  | outOfRange (found : Int) (wanted : String)
  | tooShort (length : Nat) (record : String) (fields : Nat)
  | tooLong (length : Nat)
  | noForm (name : String)

def describe : Json → String
  | .null => "null"
  | .boolean true => "boolean `true`"
  | .boolean false => "boolean `false`"
  | .number (.integer value) => s!"integer `{value}`"
  | .number (.real value) => s!"floating point `{Decimal.Layout.json.write value}`"
  | .text value => s!"string {Text.quote value}"
  | .array _ => "sequence"
  | .object _ => "map"

def Mismatch.message : Mismatch → String
  | missing field => s!"missing field `{field}`"
  | wrongType found wanted => s!"invalid type: {found.describe}, expected {wanted}"
  | outOfRange found wanted => s!"invalid value: integer `{found}`, expected {wanted}"
  | tooShort length record fields =>
    let elements := if fields = 1 then "1 element" else s!"{fields} elements"
    s!"invalid length {length}, expected struct {record} with {elements}"
  | tooLong length => s!"invalid length {length}, expected fewer elements in array"
  | noForm name => s!"data did not match any variant of untagged enum {name}"

abbrev Decoder (α : Type) : Type :=
  Json → Except Mismatch α

def asText : Decoder String
  | .text value => .ok value
  | found => .error (.wrongType found "a string")

def asInteger : Decoder Int
  | .number (.integer value) =>
    if value ≤ Text.greatestInteger then .ok value else .error (.outOfRange value "i64")
  | found => .error (.wrongType found "i64")

def realOfInteger (value : Int) : Float :=
  let magnitude := value.natAbs.toUInt64.toFloat
  if value < 0 then -magnitude else magnitude

def asReal : Decoder Float
  | .number (.integer value) => .ok (realOfInteger value)
  | .number (.real value) => .ok value
  | found => .error (.wrongType found "f64")

def asNullable (decode : Decoder α) : Decoder (Option α)
  | .null => .ok none
  | found => (decode found).map some

structure Field where
  name : String
  check : Json → Except Mismatch Unit
  optional : Bool

def Field.of (name : String) (decode : Decoder α) (optional : Bool) : Field :=
  ⟨name, fun found => (decode found).map fun _ => (), optional⟩

structure Shape where
  name : String
  fields : List Field

namespace Shape

/-- Checks each field of an object that is declared, in the order in which the object has them. -/
def checkFields (shape : Shape) : List (String × Json) → Except Mismatch Unit
  | [] => .ok ()
  | (key, value) :: rest => do
    match shape.fields.find? (·.name = key) with
    | some field => field.check value
    | none => pure ()
    shape.checkFields rest

def nameItems (shape : Shape) (items : List Json) : List Field → List Json →
    Except Mismatch (List (String × Json))
  | [], [] => .ok []
  | [], _ :: _ => .error (.tooLong items.length)
  | field :: fields, [] =>
    if field.optional then shape.nameItems items fields []
    else .error (.tooShort (shape.fields.length - (fields.length + 1)) shape.name
      shape.fields.length)
  | field :: fields, item :: rest => do
    field.check item
    return (field.name, item) :: (← shape.nameItems items fields rest)

def members (shape : Shape) : Decoder (List (String × Json))
  | .object fields => do
    shape.checkFields fields
    return fields
  | .array items => shape.nameItems items shape.fields items
  | found => .error (.wrongType found s!"struct {shape.name}")

end Shape

def required (members : List (String × Json)) (name : String) (decode : Decoder α) :
    Except Mismatch α :=
  match lookupField members name with
  | some value => decode value
  | none => .error (.missing name)

def permitted (members : List (String × Json)) (name : String) (decode : Decoder α) :
    Except Mismatch (Option α) :=
  match lookupField members name with
  | some value => asNullable decode value
  | none => .ok none

end Formulary.Json
