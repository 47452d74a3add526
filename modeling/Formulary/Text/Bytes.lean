/-!
Texts as bytes in UTF-8, and the text that any bytes stand for: what is no part of a character is
shown as the replacement character, one for each longest start of a character and one for each byte
that cannot even start one.
-/

namespace Formulary.Text

def bytes (text : List Char) : List UInt8 :=
  text.flatMap String.utf8EncodeChar

def replacement : Char := '\uFFFD'

/-- A character of which some bytes have been read and at least one has not. -/
structure Begun where
  value : Nat
  least : Nat
  greatest : Nat
  more : Nat
  deriving DecidableEq, Repr

/-- What the first byte of a character of several bytes says. The bounds on the second byte keep out
what fewer bytes could denote, surrogates, and what lies above the last code point. -/
def Begun.ofLead? (byte : Nat) : Option Begun :=
  if 0xC2 ≤ byte ∧ byte ≤ 0xDF then some ⟨byte - 0xC0, 0x80, 0xBF, 0⟩
  else if byte = 0xE0 then some ⟨0, 0xA0, 0xBF, 1⟩
  else if byte = 0xED then some ⟨byte - 0xE0, 0x80, 0x9F, 1⟩
  else if 0xE1 ≤ byte ∧ byte ≤ 0xEF then some ⟨byte - 0xE0, 0x80, 0xBF, 1⟩
  else if byte = 0xF0 then some ⟨0, 0x90, 0xBF, 2⟩
  else if byte = 0xF4 then some ⟨byte - 0xF0, 0x80, 0x8F, 2⟩
  else if 0xF1 ≤ byte ∧ byte ≤ 0xF3 then some ⟨byte - 0xF0, 0x80, 0xBF, 2⟩
  else none

def readFirst (byte : Nat) : List Char × Option Begun :=
  if byte < 0x80 then ([Char.ofNat byte], none)
  else match Begun.ofLead? byte with
    | some begun => ([], some begun)
    | none => ([replacement], none)

def Begun.readNext (begun : Begun) (byte : Nat) : List Char × Option Begun :=
  if begun.least ≤ byte ∧ byte ≤ begun.greatest then
    let value := 64 * begun.value + (byte - 0x80)
    match begun.more with
    | 0 => ([Char.ofNat value], none)
    | more + 1 => ([], some ⟨value, 0x80, 0xBF, more⟩)
  else
    let (shown, next) := readFirst byte
    (replacement :: shown, next)

def ofBytesAfter : Option Begun → List UInt8 → List Char
  | none, [] => []
  | some _, [] => [replacement]
  | begun, byte :: rest =>
    let (shown, next) := match begun with
      | none => readFirst byte.toNat
      | some begun => begun.readNext byte.toNat
    shown ++ ofBytesAfter next rest

def ofBytes (list : List UInt8) : String :=
  .ofList (ofBytesAfter none list)

end Formulary.Text
