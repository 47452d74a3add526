import Formulary.Store.Fault
import Formulary.Text.Bytes
import Formulary.Text.Integer
import Formulary.Text.Pieces

/-!
Addresses of stores. An address that starts with `file:` is a URI: an authority that says nothing, a
path, options behind a question mark, and a fragment that does not count. Any other address is a
path.
-/

namespace Formulary

inductive Access
  | read
  | write
  | create
  | memory
  deriving DecidableEq, Repr

namespace Access

def ofText? : String → Option Access
  | "ro" => some read
  | "rw" => some write
  | "rwc" => some create
  | "memory" => some memory
  | _ => none

/-- Whether an option may put an access in the place of another: not if it allows more. -/
def admits : Access → Access → Bool
  | memory, _ => true
  | create, _ => true
  | _, memory => true
  | write, wanted => wanted ≠ create
  | read, wanted => wanted = read

end Access

inductive Engine
  | standard
  | exclusive
  | lockFile
  | unlocked
  | memory
  deriving DecidableEq, Repr

def Engine.ofName? : String → Option Engine
  | "unix" => some standard
  | "unix-excl" => some exclusive
  | "unix-dotfile" => some lockFile
  | "unix-none" => some unlocked
  | "memdb" => some memory
  | _ => none

structure Address where
  path : String
  access : Access
  engine : Engine
  options : List (String × String)
  deriving DecidableEq, Repr

namespace Address

/-! Parts of a URI. -/

/-- The bytes of a part of a URI. Two hexadecimal digits after a percent sign are a byte. -/
def unescape : List Char → List UInt8
  | '%' :: high :: low :: rest =>
    match Text.hexValue? high, Text.hexValue? low with
    | some high, some low => .ofNat (16 * high + low) :: unescape rest
    | _, _ => Text.bytes ['%'] ++ unescape (high :: low :: rest)
  | c :: rest => Text.bytes [c] ++ unescape rest
  | [] => []

/-- What a part of a URI says; nothing after a zero byte does. -/
def decode (part : List Char) : String :=
  Text.ofBytes ((unescape part).takeWhile (· ≠ 0))

def cut (separator : Char) (text : List Char) : List Char × List Char :=
  (text.takeWhile (· ≠ separator), (text.dropWhile (· ≠ separator)).drop 1)

def optionsOf (query : List Char) : List (String × String) :=
  let options := (Text.pieces '&' query).map fun item =>
    let (name, value) := cut '=' item
    (decode name, decode value)
  options.filter (·.1 ≠ "")

/-- A URI after its scheme without its authority, which has to be this machine. -/
def withoutAuthority : List Char → Except StorageFault (List Char)
  | '/' :: '/' :: rest =>
    let authority := String.ofList (rest.takeWhile (· ≠ '/'))
    if authority = "" ∨ authority = "localhost" then .ok (rest.dropWhile (· ≠ '/'))
    else .error (.foreignAuthority authority)
  | text => .ok text

/-! Options. -/

def accessAfter (access : Access) : List (String × String) → Except StorageFault Access
  | [] => .ok access
  | ("cache", value) :: rest =>
    if value = "shared" ∨ value = "private" then accessAfter access rest
    else .error (.noSuchCacheMode value)
  | ("mode", value) :: rest =>
    match Access.ofText? value with
    | none => .error (.noSuchAccessMode value)
    | some wanted =>
      if access.admits wanted then accessAfter wanted rest
      else .error (.accessNotAllowed value)
  | _ :: rest => accessAfter access rest

def engineOf (options : List (String × String)) : Except StorageFault Engine :=
  match options.reverse.lookup "vfs" with
  | none => .ok .standard
  | some name =>
    match Engine.ofName? name with
    | some engine => .ok engine
    | none => .error (.noSuchEngine name)

def ofText (text : String) : Except StorageFault Address :=
  match text.toList with
  | 'f' :: 'i' :: 'l' :: 'e' :: ':' :: rest => do
    let (path, query) := cut '?' (cut '#' (← withoutAuthority rest)).1
    let options := optionsOf query
    let access ← accessAfter .create options
    let engine ← engineOf options
    return { path := decode path, access, engine, options }
  | _ => .ok { path := text, access := .create, engine := .standard, options := [] }

def greatestOption : Nat := 2147483647

/-- The number at the start of a text that starts with a digit, in base sixteen after `0x`; zero if
it is too great. -/
def leadingNumber (text : List Char) : Nat :=
  let value := match text with
    | '0' :: mark :: digit :: rest =>
      if (mark = 'x' ∨ mark = 'X') ∧ (Text.hexValue? digit).isSome then
        let digits := ((digit :: rest).map Text.hexValue?).takeWhile Option.isSome
        digits.foldl (fun value digit => 16 * value + digit.getD 0) 0
      else Decimal.valueOfDigits (text.takeWhile Decimal.isDigit) 0
    | _ => Decimal.valueOfDigits (text.takeWhile Decimal.isDigit) 0
  if value ≤ greatestOption then value else 0

/-- Whether a value switches an option on. Of a number only the last byte counts. -/
def isOn (value : String) : Bool :=
  if value.toList.head?.any Decimal.isDigit then leadingNumber value.toList % 256 ≠ 0
  else value.map Char.toLower ∈ ["on", "yes", "true"]

def hasSwitch (address : Address) (name : String) : Bool :=
  (address.options.lookup name).any isOn

def immutable (address : Address) : Bool :=
  address.hasSwitch "immutable"

def isReadOnly (address : Address) : Bool :=
  address.access = .read || address.immutable

def model? (address : Address) : Option String :=
  address.options.lookup "modeof"

def lockless (address : Address) : Bool :=
  address.hasSwitch "nolock"

/-- Whether several programs could not use the store at a time, as a log of changes asks for. -/
def sharesNothing (address : Address) : Bool :=
  address.lockless || address.engine = .unlocked || address.engine = .lockFile

def isTransient (address : Address) : Bool :=
  address.path = "" || address.path = ":memory:" || address.access = .memory

end Address

end Formulary
