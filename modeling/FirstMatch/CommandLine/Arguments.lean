import FirstMatch.Text.Control

/-!
The arguments of the command line: a table to load, and the inputs for it. Flags are recognised
anywhere before the argument `--`, after which every argument is an operand.
-/

namespace FirstMatch

inductive Invocation where
  | help
  | version
  | run (table : Option String) (inputs : List String)
  deriving DecidableEq, Repr

inductive UsageError where
  | unexpectedArgument (argument : String)
  | unexpectedValue (value flag : String)
  | emptyTable
  deriving DecidableEq, Repr

namespace UsageError

/-- The complaint, which shows of an argument what can be seen of it. -/
def message : UsageError → String
  | unexpectedArgument a => s!"error: unexpected argument '{Text.visible a}' found"
  | unexpectedValue v flag =>
    s!"error: unexpected value '{Text.visible v}' for '{flag}' found; no more were expected"
  | emptyTable => "error: a value is required for '[SPEC]' but none was supplied"

end UsageError

namespace Invocation

/-- What an argument before `--` is. -/
inductive Word where
  | operand
  | help
  | version
  | wrong (error : UsageError)
  deriving DecidableEq, Repr

/-- Digits with at most one point, which is not first and not after the exponent mark, and at most
one exponent mark, which is neither first nor last. -/
def looksNumeric (cs : List Char) : Bool :=
  digitsThen cs fun rest =>
    match rest with
    | [] => true
    | '.' :: rest => rest.dropWhile Char.isDigit == [] || exponent (rest.dropWhile Char.isDigit)
    | rest => exponent rest
where
  digitsThen (cs : List Char) (check : List Char → Bool) : Bool :=
    match cs with
    | c :: _ => c.isDigit && check (cs.dropWhile Char.isDigit)
    | [] => false
  exponent : List Char → Bool
    | c :: rest => (c == 'e' || c == 'E') && !rest.isEmpty && rest.all Char.isDigit
    | [] => false

def longFlag (name : List Char) : Word :=
  let flag := String.ofList ('-' :: '-' :: name.takeWhile (· != '='))
  match name.dropWhile (· != '='), flag with
  | [], "--help" => .help
  | [], "--version" => .version
  | _ :: value, "--help" => .wrong (.unexpectedValue (String.ofList value) flag)
  | _ :: value, "--version" => .wrong (.unexpectedValue (String.ofList value) flag)
  | _, _ => .wrong (.unexpectedArgument flag)

/-- Once the table is given, what looks like a negative number is an input. -/
def classify (tableGiven : Bool) (argument : String) : Word :=
  match argument.toList with
  | '-' :: '-' :: name => longFlag name
  | '-' :: c :: cs =>
    if tableGiven && looksNumeric (c :: cs) then .operand
    else if c = 'h' then .help
    else if c = 'V' then .version
    else .wrong (.unexpectedArgument (String.ofList ['-', c]))
  | _ => .operand

def checkTable : Option String → Except UsageError Unit
  | some "" => .error .emptyTable
  | _ => .ok ()

def ofOperands (table : Option String) (inputs operands : List String) :
    Except UsageError Invocation :=
  let (table, inputs) := match table, operands with
    | none, first :: rest => (some first, inputs ++ rest)
    | table, operands => (table, inputs ++ operands)
  do
    checkTable table
    return .run table inputs

/-- Goes through the arguments from left to right. That the table is empty shows at the next
operand or flag that is accepted, or at the end. -/
def ofArguments (table : Option String) (inputs : List String) :
    List String → Except UsageError Invocation
  | [] => ofOperands table inputs []
  | "--" :: rest => ofOperands table inputs rest
  | argument :: rest =>
    match classify table.isSome argument, table with
    | .wrong error, _ => .error error
    | .help, table => do
      checkTable table
      return .help
    | .version, table => do
      checkTable table
      return .version
    | .operand, none => ofArguments (some argument) inputs rest
    | .operand, some path => do
      checkTable (some path)
      ofArguments (some path) (inputs ++ [argument]) rest

def parse (arguments : List String) : Except UsageError Invocation := ofArguments none [] arguments

end Invocation

end FirstMatch
