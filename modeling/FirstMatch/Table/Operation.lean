import FirstMatch.Table.Basic
import FirstMatch.Table.Refusal

/-!
The operations that conditions and actions are written with: each has a name and takes either
nothing or one field. The order of the operations is part of the format, since inside another
condition or action an operation may be written as its position.
-/

namespace FirstMatch

/-- How the fields of an operation become a condition or an action. -/
inductive Fields (α : Type) where
  | none (value : α)
  | one (name : String) (decode : Json → Except Refusal α)

structure Operation (α : Type) where
  name : String
  variant : String
  fields : Fields α

/-- The operations for one kind of thing, and what is expected where such a thing is due. -/
structure Vocabulary (α : Type) where
  expected : Expected
  operations : List (Operation α)

namespace Operation

variable {α : Type}

/-- The field of an operation among members in the order in which they are written. Members with
other names do not matter, but the field may stand there only once. -/
def decodeField (name : String) (decode : Json → Except Refusal α) :
    Option α → List (String × Json) → Except Refusal α
  | none, [] => .error (.missingField name)
  | some value, [] => .ok value
  | found, (key, value) :: rest =>
    if key = name then
      match found with
      | some _ => .error (.duplicateField name)
      | none => do
        let value ← decode value
        decodeField name decode (some value) rest
    else decodeField name decode found rest

def ofMembers (op : Operation α) (members : List (String × Json)) : Except Refusal α :=
  match op.fields with
  | .none value => .ok value
  | .one name decode => decodeField name decode none members

def ofItems (op : Operation α) (items : List Json) : Except Refusal α :=
  match op.fields, items with
  | .none value, [] => .ok value
  | .none _, items => .error (.wrongLength items.length (.elements 0))
  | .one _ _, [] => .error (.wrongLength 0 (.field op.variant))
  | .one _ decode, item :: rest => do
    let value ← decode item
    if rest.isEmpty then return value
    else .error (.wrongLength (rest.length + 1) (.elements 1))

end Operation

namespace Vocabulary

variable {α : Type}

def named (v : Vocabulary α) (name : String) : Except Refusal (Operation α) :=
  match v.operations.find? fun op => op.name == name with
  | some op => .ok op
  | none => .error (.unknownOperation name (v.operations.map fun op => op.name))

def operation (v : Vocabulary α) : Json → Except Refusal (Operation α)
  | .string name => v.named name
  | .number (.integer n) =>
    if 0 ≤ n then
      match v.operations[n.toNat]? with
      | some op => .ok op
      | none => .error (.operationOutOfRange n.toNat v.operations.length)
    else .error (.wrongType (.number (.integer n)) .operation)
  | value => .error (.wrongType value.found .operation)

/-- Finds the operation among the members of an object and keeps the other members. -/
def split (v : Vocabulary α) : Option (Operation α) → List (String × Json) →
    Except Refusal (Operation α × List (String × Json))
  | none, [] => .error (.missingField "op")
  | some op, [] => .ok (op, [])
  | found, (name, value) :: rest =>
    if name = "op" then
      match found with
      | some _ => .error (.duplicateField "op")
      | none => do
        let op ← v.operation value
        v.split (some op) rest
    else do
      let (op, others) ← v.split found rest
      return (op, (name, value) :: others)

def decode (v : Vocabulary α) : Json → Except Refusal α
  | .object members => do
    let (op, others) ← v.split none members
    op.ofMembers others
  | .list [] => .error (.missingField "op")
  | .list (first :: rest) => do
    let op ← v.operation first
    op.ofItems rest
  | value => .error (.wrongType value.found v.expected)

end Vocabulary

namespace Json

def decodeDouble : Json → Except Refusal Double
  | .number n => .ok n.toDouble
  | value => .error (.wrongType value.found .float)

def decodeList {α : Type} (decode : Json → Except Refusal α) : Json → Except Refusal (List α)
  | .list items => items.mapM decode
  | value => .error (.wrongType value.found .list)

end Json

namespace Condition

def vocabulary (inner : Json → Except Refusal Condition) : Vocabulary Condition where
  expected := .condition
  operations := [
    ⟨"always", "PredicateSpec::Always", .none .always⟩,
    ⟨"never", "PredicateSpec::Never", .none .never⟩,
    ⟨"is_null", "PredicateSpec::IsNull", .none .isNull⟩,
    ⟨"is_number", "PredicateSpec::IsNumber", .none .isNumber⟩,
    ⟨"is_string", "PredicateSpec::IsString", .none .isString⟩,
    ⟨"equals", "PredicateSpec::Equals", .one "value" fun v => .ok (.equals v.canonical)⟩,
    ⟨"less_than", "PredicateSpec::LessThan", .one "value" fun v => .lessThan <$> v.decodeDouble⟩,
    ⟨"greater_than", "PredicateSpec::GreaterThan",
      .one "value" fun v => .greaterThan <$> v.decodeDouble⟩,
    ⟨"not", "PredicateSpec::Not", .one "predicate" fun v => .not <$> inner v⟩,
    ⟨"all", "PredicateSpec::All", .one "predicates" fun v => .all <$> v.decodeList inner⟩,
    ⟨"any", "PredicateSpec::Any", .one "predicates" fun v => .any <$> v.decodeList inner⟩]

def ofJson : Nat → Json → Except Refusal Condition
  | 0, value => .error (.wrongType value.found .condition)
  | height + 1, value => (vocabulary (ofJson height)).decode value

end Condition

namespace Action

def vocabulary (inner : Json → Except Refusal Action) : Vocabulary Action where
  expected := .action
  operations := [
    ⟨"identity", "TransformerSpec::Identity", .none .identity⟩,
    ⟨"null", "TransformerSpec::Null", .none .null⟩,
    ⟨"constant", "TransformerSpec::Constant", .one "value" fun v => .ok (.constant v.canonical)⟩,
    ⟨"negate", "TransformerSpec::Negate", .none .negate⟩,
    ⟨"scale", "TransformerSpec::Scale", .one "factor" fun v => .scale <$> v.decodeDouble⟩,
    ⟨"offset", "TransformerSpec::Offset", .one "by" fun v => .offset <$> v.decodeDouble⟩,
    ⟨"to_string", "TransformerSpec::Stringify", .none .stringify⟩,
    ⟨"chain", "TransformerSpec::Chain", .one "steps" fun v => .chain <$> v.decodeList inner⟩]

def ofJson : Nat → Json → Except Refusal Action
  | 0, value => .error (.wrongType value.found .action)
  | height + 1, value => (vocabulary (ofJson height)).decode value

end Action

end FirstMatch
