import FirstMatch.Dispatch.Factory

/-!
Tables put together rule by rule, where nothing can be absent and the two sides have one length.
-/

namespace FirstMatch

structure Builder (P T : Type) where
  rules : List (P × T)
  fallback : Option T
  deriving DecidableEq, Repr

namespace Builder

variable {P T : Type}

def empty : Builder P T := ⟨[], none⟩

def when (b : Builder P T) (predicate : P) (transformer : T) : Builder P T :=
  { b with rules := b.rules ++ [(predicate, transformer)] }

/-- Sets the fallback; the last one set counts. -/
def otherwise (b : Builder P T) (transformer : T) : Builder P T :=
  { b with fallback := some transformer }

def size (b : Builder P T) : Nat := b.rules.length

def isEmpty (b : Builder P T) : Bool := b.rules.isEmpty

def build (b : Builder P T) : Traced ConstructionError (Dispatcher P T) :=
  Dispatcher.ofSlots (some (b.rules.map fun r => some r.1))
    (some (b.rules.map fun r => some r.2)) b.fallback

/-- A switch even for a table without rules, so that its parts can be looked at. -/
def buildSwitch (b : Builder P T) : Switch P T :=
  ⟨b.rules.map (·.1), b.rules.map (·.2), b.fallback⟩

end Builder

end FirstMatch
