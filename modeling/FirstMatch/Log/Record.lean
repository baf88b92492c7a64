/-!
What the log says about one happening: how important it is, what part of the program it comes from,
and a message with named fields.
-/

namespace FirstMatch

inductive Level where
  | error
  | warn
  | info
  | debug
  | trace
  deriving DecidableEq, Repr

namespace Level

def name : Level → String
  | error => "ERROR"
  | warn => "WARN"
  | info => "INFO"
  | debug => "DEBUG"
  | trace => "TRACE"

/-- How much a log has to show before it shows records of this level. -/
def verbosity : Level → Nat
  | error => 1
  | warn => 2
  | info => 3
  | debug => 4
  | trace => 5

end Level

structure LogRecord where
  level : Level
  target : String
  message : String
  fields : List (String × String)
  deriving DecidableEq, Repr

namespace LogRecord

def text (r : LogRecord) : String :=
  r.message ++ String.join (r.fields.map fun (name, value) => s!" {name}={value}")

def names (r : LogRecord) : List String := "message" :: r.fields.map (·.1)

/-- A character of the log, with those that could steer a terminal spelled out. -/
def showChar (c : Char) : List Char :=
  match c with
  | '\x1b' => "\\x1b".toList
  | '\x07' => "\\x07".toList
  | '\x08' => "\\x08".toList
  | '\x0c' => "\\x0c".toList
  | '\x7f' => "\\x7f".toList
  | c =>
    if 0x80 ≤ c.toNat ∧ c.toNat ≤ 0x9f then ['\\', 'u', '{'] ++ Nat.toDigits 16 c.toNat ++ ['}']
    else [c]

def line (r : LogRecord) : String :=
  s!"{r.level.name} {r.target}: {String.ofList (r.text.toList.flatMap showChar)}"

end LogRecord

end FirstMatch
