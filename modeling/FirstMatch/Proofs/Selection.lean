import FirstMatch.Proofs.Congruence
import Mathlib.Data.List.Forall2

/-!
Which rule takes a value. Equal tables have equal conditions at the same places, equal conditions
take equal values alike, and so the dispatchers of equal tables select the same rule.
-/

namespace FirstMatch

theorem Traced.signals_emit_bind {ε β : Type} (e : Event) (f : Unit → Traced ε β) :
    (emit e >>= f).signals = .event e :: (f ()).signals := rfl

section Positions

variable {α β γ δ : Type} {R : α → β → Prop} {S : γ → δ → Prop}

theorem rel_bind {a : Option α} {b : Option β} {f : α → Option γ} {g : β → Option δ}
    (h : Option.Rel R a b) (hf : ∀ x y, R x y → Option.Rel S (f x) (g y)) :
    Option.Rel S (a.bind f) (b.bind g) := by
  cases h with
  | none => exact .none
  | some h => exact hf _ _ h

theorem rel_imp {T : α → β → Prop} {a : Option α} {b : Option β} (h : Option.Rel R a b)
    (hT : ∀ x y, R x y → T x y) : Option.Rel T a b := by
  cases h with
  | none => exact .none
  | some h => exact .some (hT _ _ h)

theorem rel_getElem? {as : List α} {bs : List β} (h : List.Forall₂ R as bs) (i : Nat) :
    Option.Rel R as[i]? bs[i]? := by
  induction h generalizing i with
  | nil => exact .none
  | cons h _ ih =>
    cases i with
    | zero => exact .some h
    | succ i => exact ih i

theorem findIdx?_congr {as : List α} {bs : List β} {p : α → Bool} {q : β → Bool}
    (h : List.Forall₂ R as bs) (hp : ∀ a b, R a b → p a = q b) :
    as.findIdx? p = bs.findIdx? q := by
  induction h with
  | nil => rfl
  | cons h _ ih => simp only [List.findIdx?_cons, hp _ _ h, ih]

/-- A comparison of lists that goes on from one element to the next compares them by place. -/
theorem forall₂_of_step {same : List α → List β → Bool}
    (hnil : ∀ b bs, same [] (b :: bs) = false) (hcons : ∀ a as, same (a :: as) [] = false)
    (hstep : ∀ a as b bs, same (a :: as) (b :: bs) = true → R a b ∧ same as bs = true)
    {as : List α} {bs : List β} (h : same as bs = true) : List.Forall₂ R as bs := by
  induction as generalizing bs with
  | nil =>
    cases bs with
    | nil => exact .nil
    | cons b bs => exact absurd ((hnil b bs).symm.trans h) Bool.false_ne_true
  | cons a as ih =>
    cases bs with
    | nil => exact absurd ((hcons a as).symm.trans h) Bool.false_ne_true
    | cons b bs =>
      obtain ⟨hab, hrest⟩ := hstep a as b bs h
      exact .cons hab (ih hrest)

end Positions

namespace Condition

def child? : Condition → Nat → Option Condition
  | .not c, 0 => some c
  | .all cs, i => cs[i]?
  | .any cs, i => cs[i]?
  | _, _ => none

def at? (c : Condition) : List Nat → Option Condition
  | [] => some c
  | i :: path => (c.child? i).bind fun d => d.at? path

abbrev Equal (c d : Condition) : Prop := c.equal d = true

theorem forall₂_equal {cs ds : List Condition} (h : equalList cs ds = true) :
    List.Forall₂ Equal cs ds :=
  forall₂_of_step (fun _ _ => rfl) (fun _ _ => rfl)
    (fun _ _ _ _ h => by simpa only [equalList, Bool.and_eq_true] using h) h

theorem rel_child? {c d : Condition} (h : c.equal d = true) (i : Nat) :
    Option.Rel Equal (c.child? i) (d.child? i) := by
  cases c <;> cases d <;> simp only [equal, Bool.false_eq_true] at h
  case not.not c d =>
    cases i with
    | zero => exact .some h
    | succ i => exact .none
  case all.all cs ds => exact rel_getElem? (forall₂_equal h) i
  case any.any cs ds => exact rel_getElem? (forall₂_equal h) i
  all_goals exact .none

theorem rel_at? {c d : Condition} (h : c.equal d = true) (path : List Nat) :
    Option.Rel Equal (c.at? path) (d.at? path) := by
  induction path generalizing c d with
  | nil => exact .some h
  | cons i path ih => exact rel_bind (rel_child? h i) fun _ _ => ih

theorem compile_congr {c d : Condition} {x y : Json} (h : c.equal d = true)
    (hx : x.equal y = true) : c.compile x = d.compile y := by
  rw [compile_apply, compile_apply, test_congr h hx]

end Condition

/-- The position of the rule that takes an input. A dispatcher without rules asks nothing. -/
def Dispatcher.select {I T : Type} (x : I) :
    Dispatcher (Predicate I) T → Traced Failure (Option Nat)
  | .table s => Switch.select x 0 s.predicates
  | _ => pure none

def Event.ofChoice : Option Nat → Event
  | some i => .ruleMatched i
  | none => .noRuleMatched

/-- When the choice is made without a trace, and the transformers leave none, the log holds the
event of the choice and nothing else. -/
theorem Switch.signals_transform {I O : Type} [Inhabited O]
    {s : Switch (Predicate I) (Transformer I O)} {x : I} {chosen : Option Nat}
    (hs : select x 0 s.predicates = pure chosen)
    (ht : ∀ t ∈ s.transformers, (t x).signals = [])
    (hf : (s.fallbackTransformer x).signals = []) :
    (s.transform x).signals = [.event (.ofChoice chosen)] := by
  simp only [transform, hs, pure_bind]
  cases chosen with
  | none => simp only [Traced.signals_emit_bind, hf, Event.ofChoice]
  | some i =>
    simp only [Traced.signals_emit_bind, Event.ofChoice]
    cases hi : s.transformers[i]? with
    | none => rfl
    | some t => simp only [ht t (List.mem_of_getElem? hi)]

namespace Table

def conditionAt? (t : Table) (rule : Nat) (path : List Nat) : Option Condition :=
  t.rules[rule]?.bind fun r => r.condition.at? path

def choice (t : Table) (x : Json) : Option Nat := t.rules.findIdx? fun r => r.condition.test x

theorem forall₂_rules {rs ss : List Rule} (h : equalRules rs ss = true) :
    List.Forall₂ (fun r s => r.equal s = true) rs ss :=
  forall₂_of_step (fun _ _ => rfl) (fun _ _ => rfl)
    (fun _ _ _ _ h => by simpa only [equalRules, Bool.and_eq_true] using h) h

variable {a b : Table} {x y : Json}

theorem rel_conditionAt? (h : a.equal b = true) (rule : Nat) (path : List Nat) :
    Option.Rel Condition.Equal (a.conditionAt? rule path) (b.conditionAt? rule path) := by
  simp only [equal, Bool.and_eq_true] at h
  refine rel_bind (rel_getElem? (forall₂_rules h.1) rule) fun r s hrs => ?_
  simp only [Rule.equal, Bool.and_eq_true] at hrs
  exact Condition.rel_at? hrs.1 path

theorem choice_congr (h : a.equal b = true) (hx : x.equal y = true) : a.choice x = b.choice y := by
  simp only [equal, Bool.and_eq_true] at h
  refine findIdx?_congr (forall₂_rules h.1) fun r s hrs => ?_
  simp only [Rule.equal, Bool.and_eq_true] at hrs
  exact Condition.test_congr hrs.1 hx

theorem select_dispatcher (t : Table) (x : Json) : t.dispatcher.select x = pure (t.choice x) := by
  obtain ⟨rules, fallback⟩ := t
  cases rules with
  | nil => cases fallback <;> rfl
  | cons r rest => exact select_rules (r :: rest) x

theorem signals_transform_dispatcher (t : Table) (x : Json) :
    (t.dispatcher.transform x).signals =
      if t.rules.isEmpty then [] else [.event (.ofChoice (t.choice x))] := by
  obtain ⟨rules, fallback⟩ := t
  cases rules with
  | nil => exact congrArg Traced.signals (transform_dispatcher_nil fallback x)
  | cons r rest =>
    refine Switch.signals_transform (select_dispatcher ⟨r :: rest, fallback⟩ x) ?_ ?_
    · intro t ht
      obtain ⟨r, _, rfl⟩ := List.mem_map.mp ht
      exact congrArg Traced.signals (r.action.compile_apply x)
    · exact congrArg Traced.signals (fallbackTransformer_compile _ _ fallback x)

/-- At every place, equal tables have conditions that give equal values one verdict, or both have
none there. They pass the check for depth together, and then they select the same rule for equal
values, or both none; what they write into the log names that rule. -/
theorem equal_tables_select (h : a.equal b = true) (hx : x.equal y = true) :
    (∀ rule path, Option.Rel
      (fun c d => ∃ verdict, c.compile x = pure verdict ∧ d.compile y = pure verdict)
      (a.conditionAt? rule path) (b.conditionAt? rule path)) ∧
    a.validate = b.validate ∧
    (a.validate = .ok () → ∃ d e chosen,
      a.compile.result = .ok d ∧ b.compile.result = .ok e ∧
      d.select x = pure chosen ∧ e.select y = pure chosen ∧
      (d.transform x).signals = (e.transform y).signals ∧
      (a.rules ≠ [] → (d.transform x).signals = [.event (.ofChoice chosen)])) := by
  have hc := choice_congr h hx
  have hrules : a.rules.isEmpty = b.rules.isEmpty := by
    simp only [equal, Bool.and_eq_true] at h
    rw [Bool.eq_iff_iff, List.isEmpty_iff_length_eq_zero, List.isEmpty_iff_length_eq_zero,
      (forall₂_rules h.1).length_eq]
  refine ⟨?_, validate_eq h, ?_⟩
  · intro rule path
    refine rel_imp (rel_conditionAt? h rule path) fun c d hcd => ?_
    have hverdict : c.compile x = pure (c.test x) := c.compile_apply x
    exact ⟨c.test x, hverdict, (Condition.compile_congr hcd hx).symm.trans hverdict⟩
  · intro hv
    refine ⟨a.dispatcher, b.dispatcher, a.choice x, result_compile hv,
      result_compile ((validate_eq h).symm.trans hv), select_dispatcher a x,
      hc ▸ select_dispatcher b y, ?_, ?_⟩
    · simp only [signals_transform_dispatcher, hrules, hc]
    · intro hne
      simp only [signals_transform_dispatcher, List.isEmpty_iff, hne, if_false]

/-- A table that compares with a zero of this sign, on its own and within values. -/
def zeroChoices (negative : Bool) : Table :=
  let zero : Json := .number (.float (.finite negative .zero))
  { rules :=
      [⟨.all [.isNumber, .not (.equals zero)], .negate⟩,
        ⟨.lessThan (.finite negative .zero), .identity⟩,
        ⟨.any [.never, .equals (.object [("zeros", .list [zero, zero])])], .stringify⟩]
    fallback := none }

def zeroMember (negative : Bool) : Json :=
  .object [("zeros", .list [.number (.float (.finite negative .zero)),
    .number (.float (.finite true .zero))])]

theorem zeroChoices_select :
    (zeroChoices false).equal (zeroChoices true) = true ∧
    (zeroMember true).equal (zeroMember false) = true ∧
    (zeroChoices false).validate = .ok () ∧
    (∀ rule path, Option.Rel
      (fun c d => ∃ verdict, c.compile (zeroMember true) = pure verdict ∧
        d.compile (zeroMember false) = pure verdict)
      ((zeroChoices false).conditionAt? rule path) ((zeroChoices true).conditionAt? rule path)) ∧
    ∃ d e, (zeroChoices false).compile.result = .ok d ∧ (zeroChoices true).compile.result = .ok e ∧
      d.select (zeroMember true) = pure (some 2) ∧ e.select (zeroMember false) = pure (some 2) ∧
      (d.transform (zeroMember true)).signals = [.event (.ruleMatched 2)] := by
  have ht : (zeroChoices false).equal (zeroChoices true) = true := by decide
  have hx : (zeroMember true).equal (zeroMember false) = true := by decide
  have hv : (zeroChoices false).validate = .ok () := by decide
  have hchoice : (zeroChoices false).choice (zeroMember true) = some 2 := by decide
  obtain ⟨hplaces, -, hselect⟩ := equal_tables_select ht hx
  obtain ⟨d, e, chosen, hd, he, hdx, hex, -, hlog⟩ := hselect hv
  obtain rfl : (zeroChoices false).dispatcher = d := by
    rw [result_compile hv] at hd
    exact Except.ok.inj hd
  obtain rfl : chosen = some 2 := by
    rw [select_dispatcher, hchoice] at hdx
    exact (Except.ok.inj (congrArg Traced.result hdx)).symm
  exact ⟨ht, hx, hv, hplaces, _, e, hd, he, hdx, hex, hlog (by decide)⟩

end Table

end FirstMatch
