import Formulary.Decimal.Rational
import Formulary.Expression.Fault
import Formulary.Text.Blank

/-!
References to variables, written between braces: an object with an integer `id` and perhaps a
`name`. Besides JSON a relaxed form is read, with bare keys and with single quotes.
-/

namespace Formulary.Reference

/-- Single quotes become double quotes, in pairs from the left. A pair with a backslash between
its quotes is left alone. -/
def relaxQuotes (text : List Char) : List Char :=
  match text with
  | [] => []
  | c :: rest =>
    if c = '\'' then
      let inside := rest.takeWhile fun d => d ≠ '\'' && d ≠ '\\'
      if (rest.drop inside.length).head? = some '\'' then
        '"' :: inside ++ '"' :: relaxQuotes (rest.drop (inside.length + 1))
      else c :: relaxQuotes rest
    else c :: relaxQuotes rest
termination_by text.length
decreasing_by all_goals simp; try omega

def startsKey (c : Char) : Bool :=
  c.isAlpha || c = '_'

def continuesKey (c : Char) : Bool :=
  c.isAlphanum || c = '_'

structure BareKey where
  before : List Char
  key : List Char
  after : List Char
  deriving DecidableEq, Repr

def BareKey.length (bare : BareKey) : Nat :=
  bare.before.length + bare.key.length + bare.after.length + 1

def BareKey.scan (text : List Char) : Option BareKey :=
  let rest := text.dropWhile Text.isBlank
  let key := rest.takeWhile continuesKey
  let after := rest.dropWhile continuesKey
  if (key.head?.any startsKey) && (after.dropWhile Text.isBlank).head? = some ':' then
    some ⟨text.takeWhile Text.isBlank, key, after.takeWhile Text.isBlank⟩
  else none

def relaxKeys (text : List Char) : List Char :=
  match text with
  | [] => []
  | c :: rest =>
    if c = '\x7b' ∨ c = ',' then
      match BareKey.scan rest with
      | some bare =>
        c :: bare.before ++ '"' :: bare.key ++ '"' :: bare.after ++
          ':' :: relaxKeys (rest.drop bare.length)
      | none => c :: relaxKeys rest
    else c :: relaxKeys rest
termination_by text.length
decreasing_by all_goals simp; try omega

def relax (snippet : List Char) : List Char :=
  relaxKeys (relaxQuotes snippet)

/-- The value between the braces. When neither form can be read the fault is that of the strict
one. -/
def readLiteral (snippet : List Char) : Except ReferenceFault Json :=
  match Json.read (.ofList snippet) with
  | .ok value => .ok value
  | .error fault =>
    match Json.read (.ofList (relax snippet)) with
    | .ok value => .ok value
    | .error _ => .error (.notJson fault)

def integerOf? : Json.Number → Option Int
  | .integer value => if value ≤ greatestId then some value else none
  | .real value =>
    match Decimal.rational? value with
    | some rational =>
      if rational.isInt ∧ -greatestId ≤ rational.num ∧ rational.num ≤ greatestId then
        some rational.num
      else none
    | none => none

def idOf (found : Json) : Except ReferenceFault Int :=
  match found with
  | .number value =>
    match integerOf? value with
    | some id => .ok id
    | none => .error (.idNotInteger found)
  | _ => .error (.idNotInteger found)

def read (snippet : List Char) : Except ReferenceFault Reference := do
  match ← readLiteral snippet with
  | .object fields =>
    match Json.lookupField fields "id" with
    | none => throw .missingId
    | some found =>
      return { id := ← idOf found
               name := (Json.lookupField fields "name").bind Json.text? }
  | found => throw (.notObject found)

end Formulary.Reference
