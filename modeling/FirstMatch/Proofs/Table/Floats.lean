import FirstMatch.Proofs.Json.Floats
import FirstMatch.Table.Printer

/-!
The floats in a table: bounds, factors and amounts, and the floats in the values that stand in its
conditions and actions.
-/

namespace FirstMatch

namespace Condition

mutual

/-- Bounds are finite, and the values in it well-formed. -/
def WellFormed : Condition → Prop
  | .equals v => v.WellFormed
  | .lessThan x | .greaterThan x => x.isFinite = true
  | .not c => c.WellFormed
  | .all cs | .any cs => WellFormedList cs
  | .always | .never | .isNull | .isNumber | .isString => True

def WellFormedList : List Condition → Prop
  | [] => True
  | c :: cs => c.WellFormed ∧ WellFormedList cs

end

mutual

def floats : Condition → List Double
  | .equals v => v.floats
  | .lessThan x | .greaterThan x => [x]
  | .not c => c.floats
  | .all cs | .any cs => floatsList cs
  | .always | .never | .isNull | .isNumber | .isString => []

def floatsList : List Condition → List Double
  | [] => []
  | c :: cs => c.floats ++ floatsList cs

end

mutual

def mapFloats (g : Double → Double) : Condition → Condition
  | .always => .always
  | .never => .never
  | .isNull => .isNull
  | .isNumber => .isNumber
  | .isString => .isString
  | .equals v => .equals (v.mapFloats g)
  | .lessThan x => .lessThan (g x)
  | .greaterThan x => .greaterThan (g x)
  | .not c => .not (c.mapFloats g)
  | .all cs => .all (mapFloatsList g cs)
  | .any cs => .any (mapFloatsList g cs)

def mapFloatsList (g : Double → Double) : List Condition → List Condition
  | [] => []
  | c :: cs => c.mapFloats g :: mapFloatsList g cs

end

mutual

theorem mapFloats_self {g : Double → Double} :
    ∀ c : Condition, (∀ x ∈ c.floats, g x = x) → c.mapFloats g = c
  | .always, _ | .never, _ | .isNull, _ | .isNumber, _ | .isString, _ => by
    simp only [mapFloats]
  | .equals v, h => by simp only [mapFloats, Json.mapFloats_self v h]
  | .lessThan x, h | .greaterThan x, h => by
    simp only [mapFloats, h x (by simp [floats])]
  | .not c, h => by simp only [mapFloats, mapFloats_self c h]
  | .all cs, h | .any cs, h => by simp only [mapFloats, mapFloatsList_self cs h]

theorem mapFloatsList_self {g : Double → Double} :
    ∀ cs : List Condition, (∀ x ∈ floatsList cs, g x = x) → mapFloatsList g cs = cs
  | [], _ => rfl
  | c :: cs, h => by
    have hc : c.mapFloats g = c := mapFloats_self c fun x hx => h x (List.mem_append_left _ hx)
    have hcs : mapFloatsList g cs = cs :=
      mapFloatsList_self cs fun x hx => h x (List.mem_append_right _ hx)
    simp only [mapFloatsList, hc, hcs]

end

mutual

/-- The floats stand in the written form as they stand here. -/
theorem floats_toJson : ∀ c : Condition, c.WellFormed → c.toJson.floats = c.floats
  | .always, _ | .never, _ | .isNull, _ | .isNumber, _ | .isString, _ => rfl
  | .equals v, _ => by
    rw [toJson, Json.floats_field, floats]
  | .lessThan x, h | .greaterThan x, h => by
    rw [toJson, Json.floats_field, Json.ofDouble_eq h, floats, Json.floats]
  | .not c, h => by
    rw [toJson, Json.floats_field, floats, floats_toJson c h]
  | .all cs, h | .any cs, h => by
    rw [toJson, Json.floats_field, floats, Json.floats, floats_toJsonList cs h]

theorem floats_toJsonList :
    ∀ cs : List Condition, WellFormedList cs →
      Json.floatsItems (toJsonList cs) = floatsList cs
  | [], _ => rfl
  | c :: cs, h => by
    simp only [toJsonList, Json.floatsItems, floatsList, floats_toJson c h.1,
      floats_toJsonList cs h.2]

end

end Condition

namespace Action

mutual

/-- Factors and amounts are finite, and the values in it well-formed. -/
def WellFormed : Action → Prop
  | .constant v => v.WellFormed
  | .scale x | .offset x => x.isFinite = true
  | .chain steps => WellFormedList steps
  | .identity | .null | .negate | .stringify => True

def WellFormedList : List Action → Prop
  | [] => True
  | a :: as => a.WellFormed ∧ WellFormedList as

end

mutual

def floats : Action → List Double
  | .constant v => v.floats
  | .scale x | .offset x => [x]
  | .chain steps => floatsList steps
  | .identity | .null | .negate | .stringify => []

def floatsList : List Action → List Double
  | [] => []
  | a :: as => a.floats ++ floatsList as

end

mutual

def mapFloats (g : Double → Double) : Action → Action
  | .identity => .identity
  | .null => .null
  | .constant v => .constant (v.mapFloats g)
  | .negate => .negate
  | .scale x => .scale (g x)
  | .offset x => .offset (g x)
  | .stringify => .stringify
  | .chain steps => .chain (mapFloatsList g steps)

def mapFloatsList (g : Double → Double) : List Action → List Action
  | [] => []
  | a :: as => a.mapFloats g :: mapFloatsList g as

end

mutual

theorem mapFloats_self {g : Double → Double} :
    ∀ a : Action, (∀ x ∈ a.floats, g x = x) → a.mapFloats g = a
  | .identity, _ | .null, _ | .negate, _ | .stringify, _ => by simp only [mapFloats]
  | .constant v, h => by simp only [mapFloats, Json.mapFloats_self v h]
  | .scale x, h | .offset x, h => by simp only [mapFloats, h x (by simp [floats])]
  | .chain steps, h => by simp only [mapFloats, mapFloatsList_self steps h]

theorem mapFloatsList_self {g : Double → Double} :
    ∀ as : List Action, (∀ x ∈ floatsList as, g x = x) → mapFloatsList g as = as
  | [], _ => rfl
  | a :: as, h => by
    have ha : a.mapFloats g = a := mapFloats_self a fun x hx => h x (List.mem_append_left _ hx)
    have has : mapFloatsList g as = as :=
      mapFloatsList_self as fun x hx => h x (List.mem_append_right _ hx)
    simp only [mapFloatsList, ha, has]

end

mutual

theorem floats_toJson : ∀ a : Action, a.WellFormed → a.toJson.floats = a.floats
  | .identity, _ | .null, _ | .negate, _ | .stringify, _ => rfl
  | .constant v, _ => by
    rw [toJson, Json.floats_field, floats]
  | .scale x, h | .offset x, h => by
    rw [toJson, Json.floats_field, Json.ofDouble_eq h, floats, Json.floats]
  | .chain steps, h => by
    rw [toJson, Json.floats_field, floats, Json.floats, floats_toJsonList steps h]

theorem floats_toJsonList :
    ∀ as : List Action, WellFormedList as → Json.floatsItems (toJsonList as) = floatsList as
  | [], _ => rfl
  | a :: as, h => by
    simp only [toJsonList, Json.floatsItems, floatsList, floats_toJson a h.1,
      floats_toJsonList as h.2]

end

end Action

namespace Rule

def WellFormed (r : Rule) : Prop := r.condition.WellFormed ∧ r.action.WellFormed

def floats (r : Rule) : List Double := r.condition.floats ++ r.action.floats

def mapFloats (g : Double → Double) (r : Rule) : Rule :=
  ⟨r.condition.mapFloats g, r.action.mapFloats g⟩

end Rule

namespace Table

def WellFormed (t : Table) : Prop :=
  (∀ r ∈ t.rules, r.WellFormed) ∧ ∀ a, t.fallback = some a → a.WellFormed

def floats (t : Table) : List Double :=
  t.rules.flatMap Rule.floats ++ (t.fallback.map Action.floats).getD []

def mapFloats (g : Double → Double) (t : Table) : Table :=
  ⟨t.rules.map (Rule.mapFloats g), t.fallback.map (Action.mapFloats g)⟩

theorem mapFloats_self {g : Double → Double} {t : Table} (h : ∀ x ∈ t.floats, g x = x) :
    t.mapFloats g = t := by
  obtain ⟨rules, fallback⟩ := t
  have hrule : ∀ r ∈ rules, r.mapFloats g = r := by
    intro r hr
    have hf : ∀ x ∈ r.floats, g x = x := fun x hx =>
      h x (List.mem_append_left _ (List.mem_flatMap.mpr ⟨r, hr, hx⟩))
    have hc := Condition.mapFloats_self r.condition fun x hx => hf x (List.mem_append_left _ hx)
    have ha := Action.mapFloats_self r.action fun x hx => hf x (List.mem_append_right _ hx)
    simp only [Rule.mapFloats, hc, ha]
  have hrules : rules.map (Rule.mapFloats g) = rules := by
    rw [List.map_congr_left hrule, List.map_id']
  have hfallback : fallback.map (Action.mapFloats g) = fallback := by
    cases fallback with
    | none => rfl
    | some a =>
      have ha := Action.mapFloats_self a fun x hx => h x (List.mem_append_right _ hx)
      simp only [Option.map_some, ha]
  simp only [mapFloats, hrules, hfallback]

end Table

end FirstMatch
