import FirstMatch.Table.Compile

/-!
Construction and dispatch for tables in which nothing is absent: the functors made of conditions
and actions do what these do, a table that passes the check for depth compiles, and the dispatcher
answers every value with the output of the table.
-/

namespace FirstMatch

namespace Traced

variable {ε ε' α β : Type}

theorem ofExcept_ok (a : α) : (ofExcept (.ok a) : Traced ε α) = pure a := rfl

theorem result_emit_bind (e : Event) (f : Unit → Traced ε β) :
    (emit e >>= f).result = (f ()).result := rfl

@[simp] theorem result_mapError (f : ε → ε') (x : Traced ε α) :
    (x.mapError f).result = x.result.mapError f := rfl

end Traced

theorem Side.elements_map_some {α β : Type} (side : Side) (f : α → β) (start : Nat)
    (xs : List α) : side.elements start (xs.map fun x => some (f x)) = .ok (xs.map f) := by
  induction xs generalizing start with
  | nil => rfl
  | cons x xs ih =>
    simp only [List.map_cons, Side.elements, ih (start + 1)]
    rfl

def Event.ofRules {α T : Type} (rules : List α) (fallback : Option T) : Event :=
  if rules.isEmpty then .emptyTable fallback.isSome else .buildingSwitch rules.length

namespace Dispatcher

variable {α P T : Type}

/-- The dispatcher of a complete table: a switch, unless there are no rules. -/
def ofRules (f : α → P) (g : α → T) (rules : List α) (fallback : Option T) : Dispatcher P T :=
  if rules.isEmpty then ofFallback fallback else .table ⟨rules.map f, rules.map g, fallback⟩

theorem ofSlots_rules (f : α → P) (g : α → T) (rules : List α) (fallback : Option T) :
    ofSlots (some (rules.map fun r => some (f r))) (some (rules.map fun r => some (g r)))
        fallback =
      ⟨[.event (.ofRules rules fallback)], .ok (ofRules f g rules fallback)⟩ := by
  simp only [ofSlots, Side.require, Side.elements_map_some, Traced.ofExcept_ok, pure_bind,
    List.length_map, ne_eq, not_true_eq_false, if_false, ofRules, Event.ofRules]
  cases rules with
  | nil => rfl
  | cons r rest =>
    simp only [List.map_cons, List.isEmpty_cons, Bool.false_eq_true, if_false]
    rfl

theorem result_ofSlots (f : α → P) (g : α → T) (rules : List α) (fallback : Option T) :
    (ofSlots (some (rules.map fun r => some (f r))) (some (rules.map fun r => some (g r)))
      fallback).result = .ok (ofRules f g rules fallback) := by
  rw [ofSlots_rules]

end Dispatcher

namespace Switch

variable {α I : Type}

/-- Predicates without effects are searched like a list. -/
theorem select_map_pure (test : α → I → Bool) (x : I) (start : Nat) (items : List α) :
    select x start (items.map fun a x => pure (test a x)) =
      pure ((items.findIdx? fun a => test a x).map (start + ·)) := by
  induction items generalizing start with
  | nil => rfl
  | cons a items ih =>
    simp only [List.map_cons, select, pure_bind, List.findIdx?_cons]
    cases h : test a x with
    | true => simp
    | false =>
      simp only [Bool.false_eq_true, if_false, ih (start + 1)]
      cases items.findIdx? fun a => test a x with
      | none => rfl
      | some i => simp only [Option.map_some, Nat.add_assoc, Nat.add_comm 1 i]

end Switch

theorem Predicate.meeting_eq (v : Json) : meeting v = fun x => pure (x.meets v) := by
  funext x
  cases v <;> cases x <;> rfl

namespace Condition

mutual

/-- The functor made of a condition has its verdict, without leaving anything in the trace. -/
theorem compile_apply : ∀ (c : Condition) (x : Json), c.compile x = pure (c.test x)
  | .always, _ | .never, _ | .isNull, _ | .isNumber, _ | .isString, _ | .lessThan _, _
  | .greaterThan _, _ => rfl
  | .equals v, x => congrFun (Predicate.meeting_eq v) x
  | .not c, x => by
    simp only [compile, Predicate.negation, compile_apply c x, pure_bind, test]
  | .all cs, x => conjunction_compileAll cs x
  | .any cs, x => disjunction_compileAll cs x

theorem conjunction_compileAll : ∀ (cs : List Condition) (x : Json),
    Predicate.conjunction (compileAll cs) x = pure (testAll cs x)
  | [], _ => rfl
  | c :: cs, x => by
    simp only [compileAll, Predicate.conjunction, compile_apply c x, pure_bind, testAll,
      conjunction_compileAll cs x]
    cases c.test x <;> rfl

theorem disjunction_compileAll : ∀ (cs : List Condition) (x : Json),
    Predicate.disjunction (compileAll cs) x = pure (testAny cs x)
  | [], _ => rfl
  | c :: cs, x => by
    simp only [compileAll, Predicate.disjunction, compile_apply c x, pure_bind, testAny,
      disjunction_compileAll cs x]
    cases c.test x <;> rfl

end

theorem compile_eq (c : Condition) : c.compile = fun x => pure (c.test x) := funext c.compile_apply

end Condition

namespace Action

mutual

theorem compile_apply : ∀ (a : Action) (x : Json), a.compile x = pure (a.apply x)
  | .identity, _ | .null, _ | .constant _, _ | .negate, _ | .scale _, _ | .offset _, _
  | .stringify, _ => rfl
  | .chain steps, x => chain_compileAll steps x

theorem chain_compileAll : ∀ (steps : List Action) (x : Json),
    Transformer.chain (compileAll steps) x = pure (applyAll steps x)
  | [], _ => rfl
  | a :: as, x => by
    simp only [compileAll, Transformer.chain, compile_apply a x, pure_bind, applyAll,
      chain_compileAll as]

end

theorem compile_eq (a : Action) : a.compile = fun x => pure (a.apply x) := funext a.compile_apply

end Action

namespace Table

/-- The action of the first rule whose condition accepts, or else the fallback, or else null. -/
def output (t : Table) (x : Json) : Json :=
  match t.rules.find? fun r => r.condition.test x, t.fallback with
  | some r, _ => r.action.apply x
  | none, some a => a.apply x
  | none, none => .null

def dispatcher (t : Table) : Dispatcher (Predicate Json) (Transformer Json Json) :=
  .ofRules (fun r => r.condition.compile) (fun r => r.action.compile) t.rules
    (t.fallback.map Action.compile)

theorem result_compile {t : Table} (h : t.validate = .ok ()) :
    t.compile.result = .ok t.dispatcher := by
  simp only [compile, h, Traced.ofExcept_ok, pure_bind, Traced.result_emit_bind,
    Traced.result_mapError, Dispatcher.result_ofSlots]
  rfl

theorem select_rules (rules : List Rule) (x : Json) :
    Switch.select x 0 (rules.map fun r => r.condition.compile) =
      pure (rules.findIdx? fun r => r.condition.test x) := by
  have h := Switch.select_map_pure (fun r x => r.condition.test x) x 0 rules
  simp only [Nat.zero_add, Option.map_id'] at h
  simp only [Condition.compile_eq, h]

theorem fallbackTransformer_compile {P : Type} (ps : List P) (ts : List (Transformer Json Json))
    (fallback : Option Action) (x : Json) :
    Switch.fallbackTransformer ⟨ps, ts, fallback.map Action.compile⟩ x =
      pure (output ⟨[], fallback⟩ x) := by
  cases fallback with
  | none => rfl
  | some a => exact a.compile_apply x

theorem transform_dispatcher_nil (fallback : Option Action) (x : Json) :
    (dispatcher ⟨[], fallback⟩).transform x = pure (output ⟨[], fallback⟩ x) := by
  cases fallback with
  | none => rfl
  | some a => exact a.compile_apply x

theorem result_transform_switch (rules : List Rule) (fallback : Option Action) (x : Json) :
    (Switch.transform ⟨rules.map fun r => r.condition.compile,
      rules.map fun r => r.action.compile, fallback.map Action.compile⟩ x).result =
      .ok (output ⟨rules, fallback⟩ x) := by
  simp only [Switch.transform, select_rules, pure_bind]
  cases hi : rules.findIdx? fun r => r.condition.test x with
  | none =>
    have hf : rules.find? (fun r => r.condition.test x) = none := by
      rw [List.find?_eq_none]
      intro r hr
      simpa using List.findIdx?_eq_none_iff.mp hi r hr
    simp only [output, hf, Traced.result_emit_bind, fallbackTransformer_compile]
    rfl
  | some i =>
    obtain ⟨hlt, hp, hbefore⟩ := List.findIdx?_eq_some_iff_getElem.mp hi
    have hf : rules.find? (fun r => r.condition.test x) = some rules[i] :=
      List.find?_eq_some_iff_getElem.mpr ⟨hp, i, hlt, rfl, fun j hj => by simpa using hbefore j hj⟩
    simp only [output, hf, List.getElem?_map, Option.map_some, List.getElem?_eq_getElem hlt,
      Traced.result_emit_bind, Action.compile_apply]
    rfl

theorem result_transform_dispatcher (t : Table) (x : Json) :
    (t.dispatcher.transform x).result = .ok (t.output x) := by
  obtain ⟨rules, fallback⟩ := t
  cases rules with
  | nil => exact congrArg Traced.result (transform_dispatcher_nil fallback x)
  | cons r rest => exact result_transform_switch (r :: rest) fallback x

end Table

end FirstMatch
