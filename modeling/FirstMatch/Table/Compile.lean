import FirstMatch.Dispatch.Factory
import FirstMatch.Table.Error
import FirstMatch.Table.Evaluation
import FirstMatch.Table.Reader

/-!
From a table to a dispatcher over JSON values: the table is checked for depth, its conditions and
actions become trees of functors, and these go through checked construction.
-/

namespace FirstMatch

namespace Predicate

variable {I : Type}

def negation (p : Predicate I) : Predicate I := fun x => do return !(← p x)

/-- Asks in order up to the first that rejects. -/
def conjunction : List (Predicate I) → Predicate I
  | [], _ => pure true
  | p :: ps, x => do if ← p x then conjunction ps x else return false

def disjunction : List (Predicate I) → Predicate I
  | [], _ => pure false
  | p :: ps, x => do if ← p x then return true else disjunction ps x

/-- Accepts what is equal to a value, a whole number never being equal to a float. -/
def equalTo (value : Json) : Predicate Json := fun x => pure (x.equal value)

/-- Accepts what meets a value: numbers that are the same as a number, and else what is equal. -/
def meeting : Json → Predicate Json
  | .number expected => fun x =>
    match x with
    | .number n => pure (n.same expected)
    | _ => pure false
  | value => equalTo value

end Predicate

def Transformer.chain {I : Type} : List (Transformer I I) → Transformer I I
  | [], x => pure x
  | t :: ts, x => do chain ts (← t x)

namespace Condition

mutual

def compile : Condition → Predicate Json
  | .always => fun _ => pure true
  | .never => fun _ => pure false
  | .isNull => fun x => pure x.isNull
  | .isNumber => fun x => pure x.isNumber
  | .isString => fun x => pure x.isString
  | .equals v => .meeting v
  | .lessThan bound => fun x => pure (x.double?.any fun y => y.less bound)
  | .greaterThan bound => fun x => pure (x.double?.any fun y => bound.less y)
  | .not c => .negation c.compile
  | .all cs => .conjunction (compileAll cs)
  | .any cs => .disjunction (compileAll cs)

def compileAll : List Condition → List (Predicate Json)
  | [] => []
  | c :: cs => c.compile :: compileAll cs

end

end Condition

namespace Action

mutual

def compile : Action → Transformer Json Json
  | .identity => fun x => pure x
  | .null => nullTransformer
  | .constant v => fun _ => pure v
  | .negate => fun x => pure x.negated
  | .scale factor => fun x => pure (x.scaled factor)
  | .offset amount => fun x => pure (x.shifted amount)
  | .stringify => fun x => pure x.stringified
  | .chain steps => .chain (compileAll steps)

def compileAll : List Action → List (Transformer Json Json)
  | [] => []
  | a :: as => a.compile :: compileAll as

end

end Action

namespace Rule

def defect? (index : Nat) (r : Rule) : Option Defect :=
  if maxDepth < r.condition.depth then some (.condition index)
  else if maxDepth < r.action.depth then some (.action index)
  else none

end Rule

namespace Table

def rulesDefect? : Nat → List Rule → Option Defect
  | _, [] => none
  | start, r :: rest => (r.defect? start).or (rulesDefect? (start + 1) rest)

def fallbackDefect? : Option Action → Option Defect
  | some a => if maxDepth < a.depth then some .fallback else none
  | none => none

/-- The first part that is too deep, the fallback after all rules. -/
def defect? (t : Table) : Option Defect :=
  (rulesDefect? 0 t.rules).or (fallbackDefect? t.fallback)

def validate (t : Table) : Except TableError Unit :=
  match t.defect? with
  | some d => .error (.invalid d)
  | none => .ok ()

def compile (t : Table) :
    Traced TableError (Dispatcher (Predicate Json) (Transformer Json Json)) := do
  Traced.ofExcept t.validate
  Traced.emit (.compilingTable t.rules.length t.fallback.isSome)
  Traced.mapError .construction (Dispatcher.ofSlots
    (some (t.rules.map fun r => some r.condition.compile))
    (some (t.rules.map fun r => some r.action.compile))
    (t.fallback.map Action.compile))

def decode (text : String) : Except TableError Table := (ofText? text).mapError .undecodable

def ofBytes (bytes : ByteArray) : Except TableError Table :=
  match String.fromUTF8? bytes with
  | some text => decode text
  | none => .error (.unreadable .notUtf8)

def ofFile : Except FileFault ByteArray → Except TableError Table
  | .ok bytes => ofBytes bytes
  | .error fault => .error (.unreadable fault)

end Table

end FirstMatch
