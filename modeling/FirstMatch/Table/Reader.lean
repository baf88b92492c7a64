import FirstMatch.Table.Operation

/-!
Reading tables from text. Tables and rules are read as the text goes by, so that the first fault
or refusal from the left is reported; the conditions and actions in them are read whole, except
that their operation is looked up as soon as it is met, and then taken apart.
-/

namespace FirstMatch

abbrev TableReader (α : Type) := Reader Refusal α

namespace TableReader

open Reader

variable {α : Type}

/-- Refuses the value that stands here. A list or an object is refused at its bracket, and any
other value after it has been read. -/
def mismatch (expected : Expected) : TableReader α := fun text =>
  match skipBlanks text with
  | '[' :: _ => refuse (.wrongType .list expected)
  | '{' :: _ => refuse (.wrongType .object expected)
  | text => do
    let (value, _) ← scalar .strict text
    refuse (.wrongType value.found expected)

def accept (result : Except Refusal α) (rest : List Char) :
    Except (ReadError Refusal) (α × List Char) :=
  match result with
  | .ok x => .ok (x, rest)
  | .error reason => refuse reason

def closeSequence : TableReader Unit := fun text =>
  match skipBlanks text with
  | [] => fail .endInList
  | ']' :: rest => .ok ((), rest)
  | ',' :: rest =>
    match skipBlanks rest with
    | ']' :: _ => fail .trailingComma
    | _ => fail .trailingCharacters
  | _ => fail .trailingCharacters

/-- The operation of a condition or action that stands directly in a rule or table. -/
def operation (v : Vocabulary α) : TableReader (Operation α) := fun text =>
  match skipBlanks text with
  | '"' :: rest => do
    let (name, rest) ← string .strict rest
    accept (v.named name) rest
  | text => mismatch .operation text

/-- The operation found so far, and the other members read so far, the last one first. -/
abbrev Partial (α : Type) := Option (Operation α) × List (String × Json)

def operationMember (v : Vocabulary α) (depth : Nat) (found : Partial α) (name : String) :
    TableReader (Partial α) := fun text =>
  if name = "op" then
    match found.1 with
    | some _ => refuse (.duplicateField "op")
    | none => do
      let ((), rest) ← colon text
      let (op, rest) ← operation v rest
      return ((some op, found.2), rest)
  else do
    let (others, rest) ← member (value .strict depth) found.2 name text
    return ((found.1, others), rest)

def operand (v : Vocabulary α) : Nat → TableReader α
  | depth, text =>
    match skipBlanks text, depth with
    | '[' :: _, 0 => fail .tooDeep
    | '{' :: _, 0 => fail .tooDeep
    | '[' :: rest, depth + 1 => do
      let (more, rest) ← firstItem rest
      if more then
        let (op, rest) ← operation v rest
        let (items, rest) ← moreItems .strict (value .strict depth) rest rest
        accept (op.ofItems items) rest
      else refuse (.missingField "op")
    | '{' :: rest, depth + 1 => do
      let ((op, others), rest) ← members .strict (operationMember v depth) (none, []) rest
      match op with
      | some op => accept (op.ofMembers others.reverse) rest
      | none => refuse (.missingField "op")
    | text, _ => mismatch v.expected text

def condition (depth : Nat) : TableReader Condition :=
  operand (Condition.vocabulary (Condition.ofJson depth)) depth

def action (depth : Nat) : TableReader Action :=
  operand (Action.vocabulary (Action.ofJson depth)) depth

def ruleMember (depth : Nat) (found : Option Condition × Option Action) (name : String) :
    TableReader (Option Condition × Option Action) := fun text =>
  if name = "when" then
    if found.1.isSome then refuse (.duplicateField "when")
    else do
      let ((), rest) ← colon text
      let (c, rest) ← condition depth rest
      return ((some c, found.2), rest)
  else if name = "then" then
    if found.2.isSome then refuse (.duplicateField "then")
    else do
      let ((), rest) ← colon text
      let (a, rest) ← action depth rest
      return ((found.1, some a), rest)
  else do
    let ((), rest) ← colon text
    let ((), rest) ← skip rest
    return (found, rest)

def rule (depth : Nat) : TableReader Rule := fun text =>
  match skipBlanks text, depth with
  | '[' :: _, 0 => fail .tooDeep
  | '{' :: _, 0 => fail .tooDeep
  | '[' :: rest, depth + 1 => do
    let (more, rest) ← firstItem rest
    if !more then refuse (.wrongLength 0 .rule)
    else
      let (c, rest) ← condition depth rest
      let (more, rest) ← nextItem .strict rest
      if !more then refuse (.wrongLength 1 .rule)
      else
        let (a, rest) ← action depth rest
        let ((), rest) ← closeSequence rest
        return (⟨c, a⟩, rest)
  | '{' :: rest, depth + 1 => do
    let (found, rest) ← members .strict (ruleMember depth) (none, none) rest
    match found with
    | (some c, some a) => return (⟨c, a⟩, rest)
    | (none, _) => refuse (.missingField "when")
    | (some _, none) => refuse (.missingField "then")
  | text, _ => mismatch .rule text

def rules (depth : Nat) : TableReader (List Rule) := fun text =>
  match skipBlanks text, depth with
  | '[' :: _, 0 => fail .tooDeep
  | '[' :: rest, depth + 1 => items .strict (rule depth) rest
  | text, _ => mismatch .list text

def fallback (depth : Nat) : TableReader (Option Action) := fun text =>
  match skipBlanks text with
  | 'n' :: rest => word none ['u', 'l', 'l'] rest
  | text => do
    let (a, rest) ← action depth text
    return (some a, rest)

def tableMember (depth : Nat) (found : Option (List Rule) × Option (Option Action))
    (name : String) : TableReader (Option (List Rule) × Option (Option Action)) := fun text =>
  if name = "rules" then
    if found.1.isSome then refuse (.duplicateField "rules")
    else do
      let ((), rest) ← colon text
      let (rs, rest) ← rules depth rest
      return ((some rs, found.2), rest)
  else if name = "default" then
    if found.2.isSome then refuse (.duplicateField "default")
    else do
      let ((), rest) ← colon text
      let (a, rest) ← fallback depth rest
      return ((found.1, some a), rest)
  else do
    let ((), rest) ← colon text
    let ((), rest) ← skip rest
    return (found, rest)

def table (depth : Nat) : TableReader Table := fun text =>
  match skipBlanks text, depth with
  | '[' :: _, 0 => fail .tooDeep
  | '{' :: _, 0 => fail .tooDeep
  | '[' :: rest, depth + 1 => do
    let (more, rest) ← firstItem rest
    if !more then return (⟨[], none⟩, rest)
    else
      let (rs, rest) ← rules depth rest
      let (more, rest) ← nextItem .strict rest
      if !more then return (⟨rs, none⟩, rest)
      else
        let (a, rest) ← fallback depth rest
        let ((), rest) ← closeSequence rest
        return (⟨rs, a⟩, rest)
  | '{' :: rest, depth + 1 => do
    let ((rs, a), rest) ← members .strict (tableMember depth) (none, none) rest
    return (⟨rs.getD [], a.getD none⟩, rest)
  | text, _ => mismatch .table text

end TableReader

namespace Table

def ofText? (text : String) : Except (ReadError Refusal) Table :=
  Reader.all (TableReader.table Json.maxHeight) text.toList

end Table

namespace Condition

def ofText? (text : String) : Except (ReadError Refusal) Condition :=
  Reader.all (TableReader.condition Json.maxHeight) text.toList

end Condition

namespace Action

def ofText? (text : String) : Except (ReadError Refusal) Action :=
  Reader.all (TableReader.action Json.maxHeight) text.toList

end Action

end FirstMatch
