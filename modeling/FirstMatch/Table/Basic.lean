import FirstMatch.Json.Basic

/-!
Tables as documents: ordered rules, each a condition on a JSON value and the action for values
that meet it, and an action for the values that no rule takes.
-/

namespace FirstMatch

inductive Condition where
  | always
  | never
  | isNull
  | isNumber
  | isString
  | equals (value : Json)
  | lessThan (bound : Double)
  | greaterThan (bound : Double)
  | not (condition : Condition)
  | all (conditions : List Condition)
  | any (conditions : List Condition)
  deriving Repr

inductive Action where
  | identity
  | null
  | constant (value : Json)
  | negate
  | scale (factor : Double)
  | offset (amount : Double)
  | stringify
  | chain (steps : List Action)
  deriving Repr

instance : Inhabited Condition := ⟨.always⟩
instance : Inhabited Action := ⟨.identity⟩

structure Rule where
  condition : Condition
  action : Action
  deriving Repr

structure Table where
  rules : List Rule
  fallback : Option Action
  deriving Repr

namespace Condition

mutual

/-- Equality part by part, bounds as numbers and values as JSON values. -/
def equal : Condition → Condition → Bool
  | .always, .always => true
  | .never, .never => true
  | .isNull, .isNull => true
  | .isNumber, .isNumber => true
  | .isString, .isString => true
  | .equals a, .equals b => a.equal b
  | .lessThan x, .lessThan y => x.equal y
  | .greaterThan x, .greaterThan y => x.equal y
  | .not a, .not b => a.equal b
  | .all as, .all bs => equalList as bs
  | .any as, .any bs => equalList as bs
  | _, _ => false

def equalList : List Condition → List Condition → Bool
  | [], [] => true
  | a :: as, b :: bs => a.equal b && equalList as bs
  | _, _ => false

end

mutual

/-- The number of conditions on the longest way down, this one included. -/
def depth : Condition → Nat
  | .not c => 1 + c.depth
  | .all cs => 1 + depthList cs
  | .any cs => 1 + depthList cs
  | _ => 1

def depthList : List Condition → Nat
  | [] => 0
  | c :: cs => max c.depth (depthList cs)

end

end Condition

namespace Action

mutual

def equal : Action → Action → Bool
  | .identity, .identity => true
  | .null, .null => true
  | .constant a, .constant b => a.equal b
  | .negate, .negate => true
  | .scale x, .scale y => x.equal y
  | .offset x, .offset y => x.equal y
  | .stringify, .stringify => true
  | .chain as, .chain bs => equalList as bs
  | _, _ => false

def equalList : List Action → List Action → Bool
  | [], [] => true
  | a :: as, b :: bs => a.equal b && equalList as bs
  | _, _ => false

end

mutual

def depth : Action → Nat
  | .chain steps => 1 + depthList steps
  | _ => 1

def depthList : List Action → Nat
  | [] => 0
  | a :: as => max a.depth (depthList as)

end

end Action

namespace Rule

def equal (a b : Rule) : Bool := a.condition.equal b.condition && a.action.equal b.action

end Rule

namespace Table

def equalFallback : Option Action → Option Action → Bool
  | none, none => true
  | some a, some b => a.equal b
  | _, _ => false

def equalRules : List Rule → List Rule → Bool
  | [], [] => true
  | a :: as, b :: bs => a.equal b && equalRules as bs
  | _, _ => false

def equal (a b : Table) : Bool :=
  equalRules a.rules b.rules && equalFallback a.fallback b.fallback

/-- The built-in table: negative numbers are negated and doubled, zero becomes one, all else
passes through. -/
def sample : Table where
  rules :=
    [⟨.lessThan .zero, .scale (.ofInt (-2))⟩,
      ⟨.equals (Number.ofInt 0), .constant (Number.ofInt 1)⟩]
  fallback := some .identity

end Table

end FirstMatch
