import FirstMatch.Dispatch.Error
import FirstMatch.Dispatch.RuleMap
import FirstMatch.Dispatch.Switch

/-!
Checked construction of dispatchers: from two sequences of slots, each of which may be absent, and
from an ordered map. Success leaves one event in the log, and an error none.
-/

namespace FirstMatch

/-- The elements of a sequence in which none is absent, counted from `start`. -/
def Side.elements {α : Type} (side : Side) :
    Nat → List (Option α) → Except ConstructionError (List α)
  | _, [] => .ok []
  | i, none :: _ => .error (.missingElement side i)
  | i, some x :: rest => (x :: ·) <$> side.elements (i + 1) rest

def Side.require {α : Type} (side : Side) :
    Option (List (Option α)) → Except ConstructionError (List α)
  | none => .error (.missingSequence side)
  | some slots => side.elements 0 slots

namespace Dispatcher

variable {P T : Type}

def ofSlots (predicates : Option (List (Option P))) (transformers : Option (List (Option T)))
    (fallback : Option T) : Traced ConstructionError (Dispatcher P T) := do
  let ps ← Traced.ofExcept (Side.predicate.require predicates)
  let ts ← Traced.ofExcept (Side.transformer.require transformers)
  if ps.length ≠ ts.length then
    Traced.fail (.lengthMismatch ps.length ts.length)
  else if ps.isEmpty then
    Traced.emit (.emptyTable fallback.isSome)
    return ofFallback fallback
  else
    Traced.emit (.buildingSwitch ps.length)
    return .table ⟨ps, ts, fallback⟩

/-- The order of the map is the order of the rules, and the entry under `none` is the fallback. -/
def ofMap [DecidableEq P] : Option (RuleMap P T) → Traced ConstructionError (Dispatcher P T)
  | none => Traced.fail .missingMap
  | some m =>
    if m.isEmpty then do
      Traced.emit .emptyMap
      return .null
    else do
      let (taken, rules) := m.remove none
      let fallback := taken.join
      if rules.isEmpty then
        Traced.emit (.onlyDefault fallback.isSome)
        return ofFallback fallback
      else
        let ps ← Traced.ofExcept (Side.predicate.require (some (rules.entries.map (·.1))))
        let ts ← Traced.ofExcept (Side.transformer.require (some (rules.entries.map (·.2))))
        Traced.emit (.buildingFromMap ps.length)
        return .table ⟨ps, ts, fallback⟩

end Dispatcher

end FirstMatch
