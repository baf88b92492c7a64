import FirstMatch.Proofs.Dispatch.Log
import Mathlib.Logic.Relation

/-!
Chains of actions. What an action makes of a value is settled by its leaves, which are the actions
in it that are no chains, from left to right. Chains can be put in, taken out and regrouped anywhere
in an action, as long as its leaves stay, and whatever leaves the leaves alone can be done that way.
-/

namespace FirstMatch

namespace Action

mutual

/-- The actions within that are no chains, from left to right. -/
def leaves : Action → List Action
  | .chain steps => leavesList steps
  | .identity => [.identity]
  | .null => [.null]
  | .constant value => [.constant value]
  | .negate => [.negate]
  | .scale factor => [.scale factor]
  | .offset amount => [.offset amount]
  | .stringify => [.stringify]

def leavesList : List Action → List Action
  | [] => []
  | a :: as => a.leaves ++ leavesList as

end

/-- A chain is put around an action, or its steps take its place in the chain that it stands in,
which removes it if it is empty. Either may happen at any place within an action. -/
inductive Regroups : Action → Action → Prop where
  | wrap (a : Action) : Regroups a (.chain [a])
  | merge (before inner after : List Action) :
      Regroups (.chain (before ++ .chain inner :: after)) (.chain (before ++ (inner ++ after)))
  | within {a b : Action} (before after : List Action) (step : Regroups a b) :
      Regroups (.chain (before ++ a :: after)) (.chain (before ++ b :: after))

abbrev Regrouped : Action → Action → Prop := Relation.EqvGen Regroups

variable {a b : Action} {as bs : List Action}

theorem leavesList_append (as bs : List Action) :
    leavesList (as ++ bs) = leavesList as ++ leavesList bs := by
  induction as with
  | nil => rfl
  | cons a as ih => rw [List.cons_append, leavesList, leavesList, ih, List.append_assoc]

theorem applyAll_append (as bs : List Action) (x : Json) :
    applyAll (as ++ bs) x = applyAll bs (applyAll as x) := by
  induction as generalizing x with
  | nil => rfl
  | cons a as ih => exact ih (a.apply x)

mutual

theorem applyAll_leaves : ∀ (a : Action) (x : Json), applyAll a.leaves x = a.apply x
  | .chain steps, x => applyAll_leavesList steps x
  | .identity, _ | .null, _ | .constant _, _ | .negate, _ | .scale _, _ | .offset _, _
  | .stringify, _ => rfl

theorem applyAll_leavesList : ∀ (as : List Action) (x : Json),
    applyAll (leavesList as) x = applyAll as x
  | [], _ => rfl
  | a :: as, x => by
    rw [leavesList, applyAll_append, applyAll_leaves a, applyAll_leavesList as, applyAll]

end

mutual

theorem ne_chain_of_mem_leaves : ∀ {a b : Action}, b ∈ a.leaves → ∀ steps, b ≠ .chain steps
  | .chain _, _, h => ne_chain_of_mem_leavesList h
  | .identity, _, h | .null, _, h | .constant _, _, h | .negate, _, h | .scale _, _, h
  | .offset _, _, h | .stringify, _, h => by
    obtain rfl := List.mem_singleton.mp h
    intro steps hchain
    cases hchain

theorem ne_chain_of_mem_leavesList :
    ∀ {as : List Action} {b : Action}, b ∈ leavesList as → ∀ steps, b ≠ .chain steps
  | _ :: _, _, h => (List.mem_append.mp h).elim ne_chain_of_mem_leaves ne_chain_of_mem_leavesList

end

theorem compile_chain_leaves (a : Action) : (chain a.leaves).compile = a.compile := by
  funext x
  rw [compile_apply, compile_apply, apply, applyAll_leaves]

theorem compile_eq_of_leaves_eq (h : a.leaves = b.leaves) : a.compile = b.compile := by
  rw [← compile_chain_leaves a, h, compile_chain_leaves]

/-! Depth -/

theorem depth_of_not_chain (h : ∀ steps, a ≠ .chain steps) : a.depth = 1 := by
  cases a with
  | chain steps => exact absurd rfl (h steps)
  | _ => rfl

theorem depthList_le {bound : Nat} (h : ∀ a ∈ as, a.depth ≤ bound) : depthList as ≤ bound := by
  induction as with
  | nil => exact Nat.zero_le _
  | cons a as ih =>
    exact Nat.max_le.mpr ⟨h a List.mem_cons_self, ih fun b hb => h b (List.mem_cons_of_mem a hb)⟩

theorem depth_chain_leaves (a : Action) : (chain a.leaves).depth ≤ 2 := by
  have hleaves : depthList a.leaves ≤ 1 :=
    depthList_le fun b hb => (depth_of_not_chain (ne_chain_of_mem_leaves hb)).le
  rw [depth]
  omega

/-! Regrouping -/

theorem Regroups.leaves_eq (h : Regroups a b) : a.leaves = b.leaves := by
  induction h with
  | wrap a => rw [leaves, leavesList, leavesList, List.append_nil]
  | merge before inner after =>
    simp only [leaves, leavesList, leavesList_append]
  | within before after _ ih =>
    simp only [leaves, leavesList, leavesList_append, ih]

theorem Regrouped.within (before after : List Action) (h : Regrouped a b) :
    Regrouped (.chain (before ++ a :: after)) (.chain (before ++ b :: after)) := by
  induction h with
  | rel a b h => exact .rel _ _ (.within before after h)
  | refl a => exact .refl _
  | symm a b _ ih => exact .symm _ _ ih
  | trans a b c _ _ ih ih' => exact .trans _ _ _ ih ih'

theorem Regrouped.behind (before : List Action) (h : Regrouped (.chain as) (.chain bs)) :
    Regrouped (.chain (before ++ as)) (.chain (before ++ bs)) := by
  have hmerge : ∀ steps, Regrouped (.chain (before ++ [.chain steps])) (.chain (before ++ steps)) :=
    fun steps => by simpa using Relation.EqvGen.rel _ _ (Regroups.merge before steps [])
  exact ((hmerge as).symm.trans _ _ _ (h.within before [])).trans _ _ _ (hmerge bs)

mutual

theorem regrouped_leaves : ∀ a : Action, a.Regrouped (.chain a.leaves)
  | .chain steps => regrouped_leavesList steps
  | .identity | .null | .constant _ | .negate | .scale _ | .offset _ | .stringify =>
    .rel _ _ (.wrap _)

theorem regrouped_leavesList : ∀ as : List Action, (chain as).Regrouped (.chain (leavesList as))
  | [] => .refl _
  | a :: as => by
    have hhead : Regrouped (.chain (a :: as)) (.chain (.chain a.leaves :: as)) :=
      (regrouped_leaves a).within [] as
    have hmerge : Regrouped (.chain (.chain a.leaves :: as)) (.chain (a.leaves ++ as)) :=
      .rel _ _ (.merge [] a.leaves as)
    have htail : Regrouped (.chain (a.leaves ++ as)) (.chain (a.leaves ++ leavesList as)) :=
      (regrouped_leavesList as).behind a.leaves
    exact (hhead.trans _ _ _ hmerge).trans _ _ _ htail

end

/-- Regrouping does whatever leaves the leaves alone, and nothing else. -/
theorem regrouped_iff : a.Regrouped b ↔ a.leaves = b.leaves := by
  constructor
  · intro h
    induction h with
    | rel a b h => exact h.leaves_eq
    | refl a => rfl
    | symm a b _ ih => exact ih.symm
    | trans a b c _ _ ih ih' => exact ih.trans ih'
  · intro h
    have hb := regrouped_leaves b
    rw [← h] at hb
    exact (regrouped_leaves a).trans _ _ _ hb.symm

theorem Regrouped.compile_eq (h : a.Regrouped b) : a.compile = b.compile :=
  compile_eq_of_leaves_eq (regrouped_iff.mp h)

end Action

namespace Table

structure Regrouped (t u : Table) : Prop where
  rules : List.Forall₂ (fun r s => r.condition = s.condition ∧ r.action.Regrouped s.action)
    t.rules u.rules
  fallback : Option.Rel Action.Regrouped t.fallback u.fallback

variable {t u : Table}

theorem Regrouped.conditions_eq (h : t.Regrouped u) :
    t.rules.map (fun r => r.condition.compile) = u.rules.map fun r => r.condition.compile := by
  rw [← List.forall₂_eq_eq_eq, List.forall₂_map_left_iff, List.forall₂_map_right_iff]
  exact h.rules.imp fun r s hrs => congrArg Condition.compile hrs.1

theorem Regrouped.actions_eq (h : t.Regrouped u) :
    t.rules.map (fun r => r.action.compile) = u.rules.map fun r => r.action.compile := by
  rw [← List.forall₂_eq_eq_eq, List.forall₂_map_left_iff, List.forall₂_map_right_iff]
  exact h.rules.imp fun r s hrs => hrs.2.compile_eq

theorem Regrouped.fallback_eq (h : t.Regrouped u) :
    t.fallback.map Action.compile = u.fallback.map Action.compile := by
  obtain ⟨-, hfallback⟩ := h
  generalize t.fallback = a at hfallback
  generalize u.fallback = b at hfallback
  cases hfallback with
  | none => rfl
  | some hab => exact congrArg some hab.compile_eq

theorem Regrouped.compile_eq (h : t.Regrouped u) (ht : t.validate = .ok ())
    (hu : u.validate = .ok ()) : t.compile = u.compile := by
  have hlength := h.rules.length_eq
  have hsome := congrArg Option.isSome h.fallback_eq
  have hempty : t.rules.isEmpty = u.rules.isEmpty := by
    rw [Bool.eq_iff_iff, List.isEmpty_iff_length_eq_zero, List.isEmpty_iff_length_eq_zero, hlength]
  rw [Option.isSome_map, Option.isSome_map] at hsome
  rw [compile_of_valid ht, compile_of_valid hu, dispatcher, dispatcher, Dispatcher.ofRules,
    Dispatcher.ofRules, Event.ofRules, Event.ofRules, h.conditions_eq, h.actions_eq, h.fallback_eq,
    hlength, hempty, hsome]

end Table

namespace Action

/-- An action does with every value what the single chain of its leaves does, which holds no chains
and is never too deep. Putting in, taking out and regrouping chains anywhere within an action leads
to all actions with the same leaves and to no others, and none of it changes what is done with any
value. In a table all of it can be done in every action at once: unless one of the tables is too
deep they compile to the same. -/
theorem chains_flatten (a : Action) :
    (∀ x, a.compile x = (chain a.leaves).compile x) ∧
    (∀ b ∈ a.leaves, ∀ steps, b ≠ .chain steps) ∧
    (chain a.leaves).depth ≤ 2 ∧
    (∀ b, a.Regrouped b ↔ a.leaves = b.leaves) ∧
    (∀ b, a.Regrouped b → ∀ x, a.compile x = b.compile x) ∧
    ∀ t u : Table, t.Regrouped u → t.validate = .ok () → u.validate = .ok () →
      t.compile = u.compile := by
  refine ⟨?_, fun b hb => ne_chain_of_mem_leaves hb, depth_chain_leaves a, fun b => regrouped_iff,
    ?_, fun t u h => h.compile_eq⟩
  · intro x
    rw [compile_chain_leaves]
  · intro b hb x
    rw [hb.compile_eq]

/-- Chains that are empty, or hold one step or further chains, at several depths. -/
example : leaves (.chain [.chain [], .negate, .chain [.chain [.stringify], .chain []], .null]) =
    [.negate, .stringify, .null] := rfl

end Action

end FirstMatch
