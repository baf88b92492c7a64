import FirstMatch.Log.Record

/-!
The events that construction and dispatch leave in the log.
-/

namespace FirstMatch

inductive Event where
  | compilingTable (rules : Nat) (hasDefault : Bool)
  | emptyTable (hasDefault : Bool)
  | buildingSwitch (rules : Nat)
  | emptyMap
  | onlyDefault (hasDefault : Bool)
  | buildingFromMap (rules : Nat)
  | ruleMatched (rule : Nat)
  | noRuleMatched
  deriving DecidableEq, Repr

namespace Event

def level : Event → Level
  | ruleMatched _ => .trace
  | noRuleMatched => .trace
  | _ => .debug

def target : Event → String
  | compilingTable _ _ => "switchyard_core::domain::spec"
  | _ => "switchyard_core::impls::switch"

def message : Event → String
  | compilingTable _ _ => "compiling switch spec"
  | emptyTable _ => "empty switch table"
  | buildingSwitch _ => "building switch transformer"
  | emptyMap => "empty switch map"
  | onlyDefault _ => "switch map holds only a default"
  | buildingFromMap _ => "building switch transformer from map"
  | ruleMatched _ => "switch rule matched"
  | noRuleMatched => "no switch rule matched, using default"

def fields : Event → List (String × String)
  | compilingTable rules hasDefault =>
    [("rules", toString rules), ("has_default", toString hasDefault)]
  | emptyTable hasDefault => [("has_default", toString hasDefault)]
  | buildingSwitch rules => [("rules", toString rules)]
  | emptyMap => []
  | onlyDefault hasDefault => [("has_default", toString hasDefault)]
  | buildingFromMap rules => [("rules", toString rules)]
  | ruleMatched rule => [("rule", toString rule)]
  | noRuleMatched => []

def record (e : Event) : LogRecord := ⟨e.level, e.target, e.message, e.fields⟩

end Event

end FirstMatch
