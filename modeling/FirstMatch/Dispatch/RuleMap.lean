/-!
Maps from predicates to transformers that keep the order in which the keys came in. The key `none`
stands for the fallback, and the value `none` for a transformer that is absent.
-/

namespace FirstMatch

structure RuleMap (K V : Type) where
  entries : List (Option K × Option V)
  deriving DecidableEq, Repr

namespace RuleMap

variable {K V : Type} [DecidableEq K]

def empty : RuleMap K V := ⟨[]⟩

def size (m : RuleMap K V) : Nat := m.entries.length

def isEmpty (m : RuleMap K V) : Bool := m.entries.isEmpty

def get? (m : RuleMap K V) (key : Option K) : Option (Option V) := m.entries.lookup key

def contains (m : RuleMap K V) (key : Option K) : Bool := (m.get? key).isSome

/-- Gives an entry of this key the new value, or else adds one at the end. -/
def put (key : Option K) (value : Option V) :
    List (Option K × Option V) → List (Option K × Option V)
  | [] => [(key, value)]
  | (k, v) :: rest => if k = key then (k, value) :: rest else (k, v) :: put key value rest

/-- The value that the key had before, and the map in which it has the new value. A key that was
present keeps its place. -/
def insert (m : RuleMap K V) (key : Option K) (value : Option V) :
    Option (Option V) × RuleMap K V :=
  (m.get? key, ⟨put key value m.entries⟩)

def remove (m : RuleMap K V) (key : Option K) : Option (Option V) × RuleMap K V :=
  (m.get? key, ⟨m.entries.eraseP fun e => e.1 == key⟩)

def ofList (entries : List (Option K × Option V)) : RuleMap K V :=
  entries.foldl (fun m e => (m.insert e.1 e.2).2) empty

end RuleMap

end FirstMatch
