/-!
What can be wrong with the parts that a dispatcher is to be built from.
-/

namespace FirstMatch

inductive Side where
  | predicate
  | transformer
  deriving DecidableEq, Repr

inductive ConstructionError where
  | missingSequence (side : Side)
  | missingElement (side : Side) (index : Nat)
  | lengthMismatch (predicates transformers : Nat)
  | missingMap
  deriving DecidableEq, Repr

inductive ErrorKind where
  | invalidArgument
  | invalidConfig
  deriving DecidableEq, Repr

namespace ErrorKind

def name : ErrorKind → String
  | invalidArgument => "InvalidArgument"
  | invalidConfig => "InvalidConfig"

end ErrorKind

namespace Side

def name : Side → String
  | predicate => "predicate"
  | transformer => "transformer"

end Side

namespace ConstructionError

def kind (_ : ConstructionError) : ErrorKind := .invalidArgument

def message : ConstructionError → String
  | missingSequence side => s!"the {side.name} sequence must not be absent"
  | missingElement side i =>
    s!"the {side.name} sequence must not contain an absent element (index {i})"
  | lengthMismatch p t =>
    s!"the predicate and transformer sequences must be the same size ({p} != {t})"
  | missingMap => "the predicate and transformer map must not be absent"

end ConstructionError

end FirstMatch
