import FirstMatch.Proofs.Output

/-!
What a table means, said apart from how it runs: acceptance is a proposition about a value, and
what an action or a table yields is a relation between values. A compiled table yields exactly
what the table means.
-/

namespace FirstMatch

namespace Json

/-- What is asked of a value by the one it is compared with: a number is met by numbers only, as
numbers, and anything else by equal values. -/
def Meets (x : Json) : Json → Prop
  | .number a => ∃ b, x = .number b ∧ b.same a = true
  | v => x.equal v = true

theorem meets_iff (x v : Json) : x.meets v = true ↔ x.Meets v := by
  cases v <;> cases x <;> simp [meets, Meets, equal]

end Json

namespace Condition

/-- A conjunction holds of the empty list, and a disjunction does not. -/
def Accepts : Condition → Json → Prop
  | .always, _ => True
  | .never, _ => False
  | .isNull, x => x = .null
  | .isNumber, x => ∃ n, x = .number n
  | .isString, x => ∃ s, x = .string s
  | .equals v, x => x.Meets v
  | .lessThan bound, x => ∃ n, x = .number n ∧ n.toDouble.less bound = true
  | .greaterThan bound, x => ∃ n, x = .number n ∧ bound.less n.toDouble = true
  | .not c, x => ¬ c.Accepts x
  | .all cs, x => ∀ c, c ∈ cs → c.Accepts x
  | .any cs, x => ∃ c, ∃ _ : c ∈ cs, c.Accepts x

mutual

theorem test_iff : ∀ (c : Condition) (x : Json), c.test x = true ↔ c.Accepts x
  | .always, x => by simp [test, Accepts]
  | .never, x => by simp [test, Accepts]
  | .isNull, x => by cases x <;> simp [test, Accepts, Json.isNull]
  | .isNumber, x => by cases x <;> simp [test, Accepts, Json.isNumber]
  | .isString, x => by cases x <;> simp [test, Accepts, Json.isString]
  | .equals v, x => by simp only [test, Accepts, Json.meets_iff]
  | .lessThan bound, x => by cases x <;> simp [test, Accepts, Json.double?]
  | .greaterThan bound, x => by cases x <;> simp [test, Accepts, Json.double?]
  | .not c, x => by
    have h := test_iff c x
    simp only [test, Accepts, ← h, Bool.not_eq_true', Bool.not_eq_true]
  | .all cs, x => by
    have h := testAll_iff cs x
    simp only [test, Accepts, h]
  | .any cs, x => by
    have h := testAny_iff cs x
    simp only [test, Accepts, h, exists_prop]

theorem testAll_iff : ∀ (cs : List Condition) (x : Json),
    testAll cs x = true ↔ ∀ c, c ∈ cs → c.Accepts x
  | [], x => by simp [testAll]
  | c :: cs, x => by
    have hc := test_iff c x
    have hcs := testAll_iff cs x
    simp only [testAll, Bool.and_eq_true, hc, hcs, List.forall_mem_cons]

theorem testAny_iff : ∀ (cs : List Condition) (x : Json),
    testAny cs x = true ↔ ∃ c, c ∈ cs ∧ c.Accepts x
  | [], x => by simp [testAny]
  | c :: cs, x => by
    have hc := test_iff c x
    have hcs := testAny_iff cs x
    simp only [testAny, Bool.or_eq_true, hc, hcs, List.mem_cons, exists_eq_or_imp]

end

end Condition

namespace Action

/-- A chain hands what one step yields to the next, from left to right. -/
inductive Yields : Action → Json → Json → Prop where
  | identity (x) : Yields .identity x x
  | null (x) : Yields .null x .null
  | constant (v x) : Yields (.constant v) x v
  | negate (x) : Yields .negate x x.negated
  | scale (factor x) : Yields (.scale factor) x (x.scaled factor)
  | offset (amount x) : Yields (.offset amount) x (x.shifted amount)
  | stringify (x) : Yields .stringify x x.stringified
  | chainNil (x) : Yields (.chain []) x x
  | chainCons {a as x y z} : Yields a x y → Yields (.chain as) y z →
      Yields (.chain (a :: as)) x z

mutual

theorem yields_apply : ∀ (a : Action) (x : Json), a.Yields x (a.apply x)
  | .identity, x => .identity x
  | .null, x => .null x
  | .constant v, x => .constant v x
  | .negate, x => .negate x
  | .scale factor, x => .scale factor x
  | .offset amount, x => .offset amount x
  | .stringify, x => .stringify x
  | .chain steps, x => yields_applyAll steps x

theorem yields_applyAll : ∀ (steps : List Action) (x : Json),
    (Action.chain steps).Yields x (applyAll steps x)
  | [], x => .chainNil x
  | a :: as, x => .chainCons (yields_apply a x) (yields_applyAll as (a.apply x))

end

theorem Yields.eq_apply {a : Action} {x y : Json} (h : a.Yields x y) : y = a.apply x := by
  induction h with
  | chainCons _ _ ih ihs =>
    subst ih
    simpa only [apply, applyAll] using ihs
  | _ => simp only [apply, applyAll]

theorem yields_iff (a : Action) (x y : Json) : a.Yields x y ↔ y = a.apply x := by
  constructor
  · exact Yields.eq_apply
  · rintro rfl
    exact yields_apply a x

end Action

namespace Table

def PassesAll (rules : List Rule) (x : Json) : Prop := ∀ r ∈ rules, ¬ r.condition.Accepts x

/-- The first rule that accepts decides; without one the fallback does, and without that the
output is null. -/
inductive Yields (t : Table) (x : Json) : Json → Prop where
  | rule {before r after y} (split : t.rules = before ++ r :: after)
      (passed : PassesAll before x) (accepts : r.condition.Accepts x)
      (yields : r.action.Yields x y) : Yields t x y
  | fallback {a y} (passed : PassesAll t.rules x) (given : t.fallback = some a)
      (yields : a.Yields x y) : Yields t x y
  | null (passed : PassesAll t.rules x) (absent : t.fallback = none) : Yields t x .null

theorem find?_eq_none_iff (rules : List Rule) (x : Json) :
    rules.find? (fun r => r.condition.test x) = none ↔ PassesAll rules x := by
  simp only [List.find?_eq_none, PassesAll, Condition.test_iff]

theorem find?_eq_some_iff (rules : List Rule) (r : Rule) (x : Json) :
    rules.find? (fun r => r.condition.test x) = some r ↔
      r.condition.Accepts x ∧ ∃ before after, rules = before ++ r :: after ∧
        PassesAll before x := by
  simp only [List.find?_eq_some_iff_append, Condition.test_iff, PassesAll, Bool.not_eq_true',
    ← Bool.not_eq_true]

theorem yields_output (t : Table) (x : Json) : t.Yields x (t.output x) := by
  unfold output
  cases hf : t.rules.find? fun r => r.condition.test x with
  | some r =>
    obtain ⟨ha, before, after, hs, hp⟩ := (find?_eq_some_iff t.rules r x).mp hf
    exact .rule hs hp ha (r.action.yields_apply x)
  | none =>
    have hp := (find?_eq_none_iff t.rules x).mp hf
    cases hd : t.fallback with
    | some a => exact .fallback hp hd (a.yields_apply x)
    | none => exact .null hp hd

theorem Yields.eq_output {t : Table} {x y : Json} (h : t.Yields x y) : y = t.output x := by
  cases h with
  | @rule before r after _ hs hp ha hy =>
    have hf := (find?_eq_some_iff t.rules r x).mpr ⟨ha, before, after, hs, hp⟩
    simp only [output, hf, hy.eq_apply]
  | fallback hp hd hy =>
    simp only [output, (find?_eq_none_iff t.rules x).mpr hp, hd, hy.eq_apply]
  | null hp hd => simp only [output, (find?_eq_none_iff t.rules x).mpr hp, hd]

/-- A table that is not too deep compiles, and the dispatcher answers every value with the one
value that the table yields. Without rules the dispatcher is the fallback itself. -/
theorem compile_denotes (t : Table) (h : t.validate = .ok ()) :
    ∃ d, t.compile.result = .ok d ∧
      (∀ x, ∃ y, (d.transform x).result = .ok y ∧ ∀ z, t.Yields x z ↔ z = y) ∧
      (t.rules = [] → d = .ofFallback (t.fallback.map Action.compile)) := by
  refine ⟨t.dispatcher, result_compile h, ?_, ?_⟩
  · intro x
    refine ⟨t.output x, result_transform_dispatcher t x, fun z => ⟨Yields.eq_output, ?_⟩⟩
    rintro rfl
    exact yields_output t x
  · intro hr
    simp only [dispatcher, Dispatcher.ofRules, hr, List.isEmpty_nil, if_true]

def nested : Table where
  rules :=
    [⟨.any [.isNull, .all [.isNumber, .not (.lessThan .zero)]], .chain [.negate, .stringify]⟩]
  fallback := none

theorem nested_denotes :
    nested.validate = .ok () ∧
    ∃ d, nested.compile.result = .ok d ∧
      (∀ x, ∃ y, (d.transform x).result = .ok y ∧ ∀ z, nested.Yields x z ↔ z = y) ∧
      (nested.rules = [] → d = .ofFallback (nested.fallback.map Action.compile)) :=
  ⟨rfl, compile_denotes nested rfl⟩

end Table

end FirstMatch
