import FirstMatch.Json.Printer
import FirstMatch.Json.Reader
import FirstMatch.Text.Quoted

/-!
Why a well-formed text is no table: what was found and what was expected in its place, and the
wording of each.
-/

namespace FirstMatch

inductive Found where
  | null
  | bool (value : Bool)
  | number (value : Number)
  | string (value : String)
  | list
  | object
  deriving DecidableEq, Repr

inductive Expected where
  | table
  | rule
  | list
  | condition
  | action
  | float
  | operation
  deriving DecidableEq, Repr

/-- What a sequence with the wrong number of elements should have held. -/
inductive Arity where
  | rule
  | field (variant : String)
  | elements (count : Nat)
  deriving DecidableEq, Repr

inductive Refusal where
  | wrongType (found : Found) (expected : Expected)
  | wrongLength (length : Nat) (expected : Arity)
  | unknownOperation (name : String) (known : List String)
  | operationOutOfRange (index : Nat) (count : Nat)
  | missingField (name : String)
  | duplicateField (name : String)
  deriving DecidableEq, Repr

def Json.found : Json → Found
  | .null => .null
  | .bool b => .bool b
  | .number n => .number n
  | .string s => .string s
  | .list _ => .list
  | .object _ => .object

namespace Found

def message : Found → String
  | null => "null"
  | bool b => s!"boolean `{b}`"
  | number (.integer n) => s!"integer `{n}`"
  | number (.float x) => s!"floating point `{String.ofList (Number.float x).text}`"
  | string s => s!"string {Text.quoted s}"
  | list => "sequence"
  | object => "map"

end Found

namespace Expected

def message : Expected → String
  | table => "struct SwitchSpec"
  | rule => "struct RuleSpec"
  | list => "a sequence"
  | condition => "internally tagged enum PredicateSpec"
  | action => "internally tagged enum TransformerSpec"
  | float => "f64"
  | operation => "variant identifier"

end Expected

namespace Arity

def message : Arity → String
  | rule => "struct RuleSpec with 2 elements"
  | field variant => s!"struct variant {variant} with 1 element"
  | elements 1 => "1 element in sequence"
  | elements n => s!"{n} elements in sequence"

end Arity

namespace Refusal

def message : Refusal → String
  | wrongType found expected => s!"invalid type: {found.message}, expected {expected.message}"
  | wrongLength n expected => s!"invalid length {n}, expected {expected.message}"
  | unknownOperation name known =>
    s!"unknown variant `{name}`, expected one of {marked known}"
  | operationOutOfRange i n =>
    s!"invalid value: integer `{i}`, expected variant index 0 <= i < {n}"
  | missingField name => s!"missing field `{name}`"
  | duplicateField name => s!"duplicate field `{name}`"
where
  marked (names : List String) : String := ", ".intercalate (names.map fun n => s!"`{n}`")

end Refusal

namespace ReadError

def message : ReadError Refusal → String
  | .fault f => f.message
  | .refused r => r.message

end ReadError

end FirstMatch
