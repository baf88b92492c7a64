import FirstMatch.Proofs.Table.Accepted
import FirstMatch.Proofs.Table.RoundTrip

/-!
How deep the conditions and actions of a table from a text can be. Every condition within another
takes at least one bracket more than that one, and every step of a chain takes two, in whatever
form they are written; so the limit on brackets bounds the recursion of the check for depth.
-/

namespace FirstMatch

namespace Condition

mutual

theorem depth_le_height : ∀ c : Condition, c.depth ≤ c.toJson.height
  | .not c => by
    have hc := c.depth_le_height
    simp only [depth, toJson, Json.height, Json.heightMembers]
    omega
  | .all cs => by
    have hcs := depthList_le_height cs
    simp only [depth, toJson, Json.height, Json.heightMembers]
    omega
  | .any cs => by
    have hcs := depthList_le_height cs
    simp only [depth, toJson, Json.height, Json.heightMembers]
    omega
  | .always | .never | .isNull | .isNumber | .isString | .equals _ | .lessThan _
  | .greaterThan _ => Nat.le_add_left 1 _

theorem depthList_le_height :
    ∀ cs : List Condition, depthList cs ≤ Json.heightItems (toJsonList cs)
  | [] => Nat.zero_le _
  | c :: cs => by
    have hc := c.depth_le_height
    have hcs := depthList_le_height cs
    simp only [depthList, toJsonList, Json.heightItems]
    omega

end

end Condition

namespace Action

mutual

/-- A chain opens two brackets before its steps, and every action opens one. -/
theorem two_mul_depth_le_height : ∀ a : Action, 2 * a.depth ≤ a.toJson.height + 1
  | .chain steps => by
    have hsteps := two_mul_depthList_le_height steps
    simp only [depth, toJson, Json.height, Json.heightMembers]
    omega
  | .identity | .null | .constant _ | .negate | .scale _ | .offset _ | .stringify =>
    Nat.add_le_add_right (Nat.le_add_left 1 _) 1

theorem two_mul_depthList_le_height :
    ∀ as : List Action, 2 * depthList as ≤ Json.heightItems (toJsonList as) + 1
  | [] => Nat.zero_le _
  | a :: as => by
    have ha := a.two_mul_depth_le_height
    have has := two_mul_depthList_le_height as
    simp only [depthList, toJsonList, Json.heightItems]
    omega

end

end Action

namespace Table

variable {t : Table}

theorem rule_height_le {r : Rule} (hr : r ∈ t.rules) : r.toJson.height + 2 ≤ t.toJson.height := by
  have hle := Json.height_le_of_mem_items (List.mem_map_of_mem (f := Rule.toJson) hr)
  simp only [toJson, Json.height, Json.heightMembers]
  omega

theorem fallback_height_le {a : Action} (ha : t.fallback = some a) :
    a.toJson.height + 1 ≤ t.toJson.height := by
  simp only [toJson, ha, Json.height, Json.heightMembers]
  omega

/-- Whatever text is accepted, no way down into a condition of a rule goes through more than 124
conditions, none into an action of a rule through more than 62 actions, and none into the fallback
through more than 63. -/
theorem text_bounds_depth {text : String} (h : ofText? text = .ok t) :
    (∀ r ∈ t.rules, r.condition.depth ≤ 124 ∧ r.action.depth ≤ 62) ∧
      ∀ a ∈ t.fallback, a.depth ≤ 63 := by
  have hheight : t.toJson.height ≤ 127 := (ofText?_fits h).2
  constructor
  · intro r hr
    have hrule := rule_height_le hr
    have hcondition := r.condition.depth_le_height
    have haction := r.action.two_mul_depth_le_height
    simp only [Rule.toJson, Json.height, Json.heightMembers] at hrule
    constructor <;> omega
  · intro a ha
    have hfallback := fallback_height_le ha
    have haction := a.two_mul_depth_le_height
    omega

def deepest : Table where
  rules := [⟨Nat.repeat .not 123 .always, Nat.repeat (fun a => .chain [a]) 61 .null⟩]
  fallback := some (Nat.repeat (fun a => .chain [a]) 62 .null)

theorem repeat_not_wellFormed (n : Nat) : (Nat.repeat .not n .always : Condition).WellFormed := by
  induction n with
  | zero => trivial
  | succ n ih => exact ih

theorem repeat_chain_wellFormed (n : Nat) :
    (Nat.repeat (fun a => .chain [a]) n .null : Action).WellFormed := by
  induction n with
  | zero => trivial
  | succ n ih => exact ⟨ih, trivial⟩

/-- Its text opens 127 brackets in both parts, and each of the three bounds is reached. -/
theorem deepest_reaches_bounds :
    ofText? deepest.text = .ok deepest ∧
    (∀ r ∈ deepest.rules, r.condition.depth = 124 ∧ r.action.depth = 62) ∧
    (∀ a ∈ deepest.fallback, a.depth = 63) ∧
    (∀ r ∈ deepest.rules, r.condition.depth ≤ 124 ∧ r.action.depth ≤ 62) ∧
    ∀ a ∈ deepest.fallback, a.depth ≤ 63 := by
  have hwf : deepest.WellFormed := by
    constructor
    · intro r hr
      rw [List.mem_singleton.mp hr]
      exact ⟨repeat_not_wellFormed 123, repeat_chain_wellFormed 61⟩
    · intro a ha
      obtain rfl := Option.some.inj ha
      exact repeat_chain_wellFormed 62
  have hheight : deepest.toJson.height ≤ Json.maxHeight := by decide +kernel
  have hfloats : deepest.floats = [] := by decide +kernel
  have htext : ofText? deepest.text = .ok deepest := by
    refine ofText?_of_reread hwf hheight ?_
    rw [hfloats]
    exact nofun
  refine ⟨htext, ?_, ?_, text_bounds_depth htext⟩
  · intro r hr
    rw [List.mem_singleton.mp hr]
    constructor <;> decide +kernel
  · intro a ha
    obtain rfl := Option.some.inj ha
    decide +kernel

end Table

end FirstMatch
