import Formulary.Text.Blank

/-!
The levels of log records, from the least to the most urgent.
-/

namespace Formulary.Log

inductive Level
  | trace
  | debug
  | info
  | warn
  | error
  deriving DecidableEq, Repr

namespace Level

def name : Level → String
  | trace => "trace"
  | debug => "debug"
  | info => "info"
  | warn => "warn"
  | error => "error"

def label : Level → String
  | trace => "TRACE"
  | debug => "DEBUG"
  | info => "INFO"
  | warn => "WARN"
  | error => "ERROR"

def urgency : Level → Nat
  | trace => 0
  | debug => 1
  | info => 2
  | warn => 3
  | error => 4

def normalize (text : String) : String :=
  (Text.trim text).map Char.toLower

def ofText (text : String) : Except String Level :=
  match normalize text with
  | "trace" => .ok trace
  | "debug" => .ok debug
  | "info" => .ok info
  | "warn" => .ok warn
  | "warning" => .ok warn
  | "error" => .ok error
  | other => .error other

def standard : Level := debug

end Level

end Formulary.Log
