import FirstMatch.Json.Printer
import FirstMatch.Table.Basic

/-!
Tables as JSON. The operation comes first, then its field; bounds, factors and amounts are written
as floats, and an absent fallback is left out.
-/

namespace FirstMatch

namespace Condition

mutual

def toJson : Condition → Json
  | .always => .object [("op", .string "always")]
  | .never => .object [("op", .string "never")]
  | .isNull => .object [("op", .string "is_null")]
  | .isNumber => .object [("op", .string "is_number")]
  | .isString => .object [("op", .string "is_string")]
  | .equals v => .object [("op", .string "equals"), ("value", v)]
  | .lessThan x => .object [("op", .string "less_than"), ("value", .ofDouble x)]
  | .greaterThan x => .object [("op", .string "greater_than"), ("value", .ofDouble x)]
  | .not c => .object [("op", .string "not"), ("predicate", c.toJson)]
  | .all cs => .object [("op", .string "all"), ("predicates", .list (toJsonList cs))]
  | .any cs => .object [("op", .string "any"), ("predicates", .list (toJsonList cs))]

def toJsonList : List Condition → List Json
  | [] => []
  | c :: cs => c.toJson :: toJsonList cs

end

end Condition

namespace Action

mutual

def toJson : Action → Json
  | .identity => .object [("op", .string "identity")]
  | .null => .object [("op", .string "null")]
  | .constant v => .object [("op", .string "constant"), ("value", v)]
  | .negate => .object [("op", .string "negate")]
  | .scale x => .object [("op", .string "scale"), ("factor", .ofDouble x)]
  | .offset x => .object [("op", .string "offset"), ("by", .ofDouble x)]
  | .stringify => .object [("op", .string "to_string")]
  | .chain steps => .object [("op", .string "chain"), ("steps", .list (toJsonList steps))]

def toJsonList : List Action → List Json
  | [] => []
  | a :: as => a.toJson :: toJsonList as

end

end Action

namespace Rule

def toJson (r : Rule) : Json := .object [("when", r.condition.toJson), ("then", r.action.toJson)]

end Rule

namespace Table

def toJson (t : Table) : Json :=
  .object (("rules", .list (t.rules.map Rule.toJson)) ::
    match t.fallback with
    | none => []
    | some a => [("default", a.toJson)])

def text (t : Table) : String := t.toJson.text

end Table

end FirstMatch
