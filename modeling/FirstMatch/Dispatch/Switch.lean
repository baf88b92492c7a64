import FirstMatch.Dispatch.Traced

/-!
Dispatch to the first match: the predicates are asked in order, and the transformer at the place of
the first one that accepts is applied. When none accepts, the fallback is applied, or the null
transformer, which yields the empty output for every input.
-/

namespace FirstMatch

inductive Failure where
  | raised (payload : String)
  | missingTransformer (index : Nat)
  deriving DecidableEq, Repr

abbrev Predicate (I : Type) := I → Traced Failure Bool

abbrev Transformer (I O : Type) := I → Traced Failure O

def nullTransformer {I O : Type} [Inhabited O] : Transformer I O := fun _ => pure default

/-- A table of predicates and transformers paired by position, of whatever types these are. Nothing
keeps the two lists at the same length. -/
structure Switch (P T : Type) where
  predicates : List P
  transformers : List T
  fallback : Option T
  deriving DecidableEq, Repr

namespace Switch

variable {P T P' T' I O : Type}

def map (f : P → P') (g : T → T') (s : Switch P T) : Switch P' T' :=
  ⟨s.predicates.map f, s.transformers.map g, s.fallback.map g⟩

/-- Asks the predicates in order and gives the position of the first that accepts, counted from
`start`. Those after it are not asked. -/
def select (x : I) : Nat → List (Predicate I) → Traced Failure (Option Nat)
  | _, [] => pure none
  | start, p :: ps => do
    if ← p x then return some start else select x (start + 1) ps

variable [Inhabited O]

def fallbackTransformer (s : Switch P (Transformer I O)) : Transformer I O :=
  s.fallback.getD nullTransformer

/-- The event comes before the look-up, so it is in the log even if there is no transformer. -/
def transform (s : Switch (Predicate I) (Transformer I O)) : Transformer I O := fun x => do
  match ← select x 0 s.predicates with
  | some i =>
    Traced.emit (.ruleMatched i)
    match s.transformers[i]? with
    | some t => t x
    | none => Traced.fail (.missingTransformer i)
  | none =>
    Traced.emit .noRuleMatched
    s.fallbackTransformer x

end Switch

/-- What construction gives: a table without rules needs no switch. -/
inductive Dispatcher (P T : Type) where
  | null
  | given (transformer : T)
  | table (switch : Switch P T)
  deriving DecidableEq, Repr

namespace Dispatcher

variable {P T P' T' I O : Type}

def map (f : P → P') (g : T → T') : Dispatcher P T → Dispatcher P' T'
  | .null => .null
  | .given t => .given (g t)
  | .table s => .table (s.map f g)

def ofFallback : Option T → Dispatcher P T
  | none => .null
  | some t => .given t

def transform [Inhabited O] : Dispatcher (Predicate I) (Transformer I O) → Transformer I O
  | .null => nullTransformer
  | .given t => t
  | .table s => s.transform

end Dispatcher

end FirstMatch
