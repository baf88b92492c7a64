import FirstMatch.Proofs.Dispatch.Log

/-!
The check for depth. What it counts is the longest way from a condition or an action down to one
within it, and what it blames is the first part of the table with a way of more than 32 nodes:
rule by rule, the condition of a rule before its action, and the fallback after all rules. A table
fails to compile for this reason only.
-/

namespace FirstMatch

section Trees

variable {α : Type} {children : α → List α} {depth : α → Nat} {greatest : List α → Nat} {a : α}
  {as way : List α} {n : Nat}

/-- The nodes on a way down, from the first one to itself or to any node within it. -/
inductive WayDown (children : α → List α) : α → List α → Prop where
  | stop (a : α) : WayDown children a [a]
  | step {a b : α} {way : List α} (child : b ∈ children a) (rest : WayDown children b way) :
      WayDown children a (a :: way)

/-- A depth that goes one beyond the greatest one of the children, which is 0 for no children. -/
structure CountsDepth (children : α → List α) (depth : α → Nat) (greatest : List α → Nat) :
    Prop where
  node : ∀ a, depth a = 1 + greatest (children a)
  nil : greatest [] = 0
  cons : ∀ a as, greatest (a :: as) = max (depth a) (greatest as)

namespace CountsDepth

theorem le_greatest (h : CountsDepth children depth greatest) (ha : a ∈ as) :
    depth a ≤ greatest as := by
  induction as with
  | nil => cases ha
  | cons b as ih =>
    rw [h.cons]
    rcases List.mem_cons.mp ha with rfl | ha
    · exact Nat.le_max_left ..
    · exact Nat.le_trans (ih ha) (Nat.le_max_right ..)

theorem exists_greatest (h : CountsDepth children depth greatest) (hpos : 0 < greatest as) :
    ∃ a ∈ as, depth a = greatest as := by
  induction as with
  | nil =>
    rw [h.nil] at hpos
    exact absurd hpos (Nat.lt_irrefl 0)
  | cons b as ih =>
    rw [h.cons] at hpos ⊢
    rcases Nat.le_total (greatest as) (depth b) with hle | hle
    · exact ⟨b, List.mem_cons_self, (Nat.max_eq_left hle).symm⟩
    · rw [Nat.max_eq_right hle] at hpos ⊢
      obtain ⟨a, ha, heq⟩ := ih hpos
      exact ⟨a, List.mem_cons_of_mem _ ha, heq⟩

theorem length_le (h : CountsDepth children depth greatest) (hway : WayDown children a way) :
    way.length ≤ depth a := by
  induction hway with
  | stop a =>
    rw [h.node]
    exact Nat.le_add_right 1 _
  | step child _ ih =>
    rw [h.node, List.length_cons, Nat.add_comm]
    exact Nat.add_le_add_left (Nat.le_trans ih (h.le_greatest child)) 1

theorem exists_longest (h : CountsDepth children depth greatest) (a : α) :
    ∃ way, WayDown children a way ∧ way.length = depth a := by
  obtain ⟨n, hn⟩ : ∃ n, greatest (children a) = n := ⟨_, rfl⟩
  induction n generalizing a with
  | zero =>
    refine ⟨[a], .stop a, ?_⟩
    rw [h.node, hn]
    rfl
  | succ n ih =>
    have hpos : 0 < greatest (children a) := by omega
    obtain ⟨b, hb, hdepth⟩ := h.exists_greatest hpos
    have hchild := h.node b
    obtain ⟨way, hway, hlength⟩ := ih b (by omega)
    refine ⟨a :: way, .step hb hway, ?_⟩
    rw [h.node, List.length_cons, hlength, hdepth, Nat.add_comm]

/-- More than a number of nodes lie on some way down exactly if the depth is more than it. -/
theorem lt_iff (h : CountsDepth children depth greatest) :
    n < depth a ↔ ∃ way, WayDown children a way ∧ n < way.length := by
  constructor
  · intro hn
    obtain ⟨way, hway, hlength⟩ := h.exists_longest a
    exact ⟨way, hway, hlength ▸ hn⟩
  · rintro ⟨way, hway, hn⟩
    exact Nat.lt_of_lt_of_le hn (h.length_le hway)

end CountsDepth

end Trees

namespace Condition

def children : Condition → List Condition
  | .not c => [c]
  | .all cs => cs
  | .any cs => cs
  | .always | .never | .isNull | .isNumber | .isString | .equals _ | .lessThan _
  | .greaterThan _ => []

/-- A way down into the condition goes through more than 32 conditions. -/
def TooDeep (c : Condition) : Prop := ∃ way, WayDown children c way ∧ 32 < way.length

theorem countsDepth : CountsDepth children depth depthList where
  node c := by cases c <;> simp only [depth, children, depthList, Nat.max_zero, Nat.add_zero]
  nil := by simp only [depthList]
  cons c cs := by simp only [depthList]

theorem maxDepth_lt_iff {c : Condition} : maxDepth < c.depth ↔ c.TooDeep := countsDepth.lt_iff

end Condition

namespace Action

def children : Action → List Action
  | .chain steps => steps
  | .identity | .null | .constant _ | .negate | .scale _ | .offset _ | .stringify => []

def TooDeep (a : Action) : Prop := ∃ way, WayDown children a way ∧ 32 < way.length

theorem countsDepth : CountsDepth children depth depthList where
  node a := by cases a <;> simp only [depth, children, depthList, Nat.add_zero]
  nil := by simp only [depthList]
  cons a as := by simp only [depthList]

theorem maxDepth_lt_iff {a : Action} : maxDepth < a.depth ↔ a.TooDeep := countsDepth.lt_iff

end Action

/-! The texts name the rule and its part -/

namespace Defect

theorem append_maxDepth (start text : String) :
    start ++ text ++ toString maxDepth = start ++ (text ++ "32") := by
  have hlimit : toString maxDepth = "32" := rfl
  rw [hlimit, String.append_assoc]

theorem message_condition (i : Nat) :
    (condition i).message = "rule " ++ toString i ++ ": predicate nesting exceeds 32" :=
  append_maxDepth ("rule " ++ toString i) ": predicate nesting exceeds "

theorem message_action (i : Nat) :
    (action i).message = "rule " ++ toString i ++ ": transformer nesting exceeds 32" :=
  append_maxDepth ("rule " ++ toString i) ": transformer nesting exceeds "

theorem message_fallback : fallback.message = "default: transformer nesting exceeds 32" := rfl

end Defect

/-! The first part that is too deep -/

namespace Rule

structure Shallow (r : Rule) : Prop where
  condition : ¬ r.condition.TooDeep
  action : ¬ r.action.TooDeep

variable {r : Rule} {i : Nat} {d : Defect}

theorem defect?_eq_some_iff :
    r.defect? i = some d ↔ r.condition.TooDeep ∧ d = .condition i ∨
      ¬ r.condition.TooDeep ∧ r.action.TooDeep ∧ d = .action i := by
  rw [defect?, ← Condition.maxDepth_lt_iff, ← Action.maxDepth_lt_iff]
  by_cases hcondition : maxDepth < r.condition.depth
  · simp [hcondition, eq_comm]
  · by_cases haction : maxDepth < r.action.depth <;> simp [hcondition, haction, eq_comm]

theorem defect?_eq_none_iff : r.defect? i = none ↔ r.Shallow := by
  rw [Option.eq_none_iff_forall_ne_some]
  constructor
  · intro h
    have hcondition : ¬ r.condition.TooDeep := by
      intro hdeep
      exact h _ (defect?_eq_some_iff.mpr (.inl ⟨hdeep, rfl⟩))
    refine ⟨hcondition, ?_⟩
    intro hdeep
    exact h _ (defect?_eq_some_iff.mpr (.inr ⟨hcondition, hdeep, rfl⟩))
  · intro hshallow d hd
    rcases defect?_eq_some_iff.mp hd with ⟨hdeep, -⟩ | ⟨-, hdeep, -⟩
    · exact hshallow.condition hdeep
    · exact hshallow.action hdeep

end Rule

namespace Table

variable {t : Table} {rules : List Rule} {start : Nat} {d : Defect}

theorem rulesDefect?_eq_none_iff : rulesDefect? start rules = none ↔ ∀ r ∈ rules, r.Shallow := by
  induction rules generalizing start with
  | nil => exact ⟨fun _ => List.forall_mem_nil _, fun _ => rfl⟩
  | cons r rules ih =>
    rw [rulesDefect?, Option.or_eq_none_iff, Rule.defect?_eq_none_iff, ih, List.forall_mem_cons]

theorem rulesDefect?_eq_some_iff :
    rulesDefect? start rules = some d ↔ ∃ before r after, rules = before ++ r :: after ∧
      (∀ q ∈ before, q.Shallow) ∧ r.defect? (start + before.length) = some d := by
  induction rules generalizing start with
  | nil =>
    constructor
    · intro h
      cases h
    · rintro ⟨before, r, after, hsplit, -⟩
      cases before <;> cases hsplit
  | cons q rules ih =>
    rw [rulesDefect?, Option.or_eq_some_iff, Rule.defect?_eq_none_iff, ih]
    constructor
    · rintro (hq | ⟨hq, before, r, after, rfl, hbefore, hr⟩)
      · exact ⟨[], q, rules, rfl, List.forall_mem_nil _, hq⟩
      · refine ⟨q :: before, r, after, rfl, List.forall_mem_cons.mpr ⟨hq, hbefore⟩, ?_⟩
        rwa [List.length_cons, Nat.add_comm before.length, ← Nat.add_assoc]
    · rintro ⟨before, r, after, hsplit, hbefore, hr⟩
      cases before with
      | nil =>
        cases hsplit
        exact .inl hr
      | cons p before =>
        cases hsplit
        obtain ⟨hp, hbefore⟩ := List.forall_mem_cons.mp hbefore
        refine .inr ⟨hp, before, r, after, rfl, hbefore, ?_⟩
        rwa [List.length_cons, Nat.add_comm before.length, ← Nat.add_assoc] at hr

structure Shallow (t : Table) : Prop where
  rules : ∀ r ∈ t.rules, r.Shallow
  fallback : ∀ a ∈ t.fallback, ¬ a.TooDeep

inductive Blames (t : Table) : Defect → Prop where
  | condition {before r after} (split : t.rules = before ++ r :: after)
      (fine : ∀ q ∈ before, q.Shallow) (deep : r.condition.TooDeep) :
      Blames t (.condition before.length)
  | action {before r after} (split : t.rules = before ++ r :: after)
      (fine : ∀ q ∈ before, q.Shallow) (condition : ¬ r.condition.TooDeep)
      (deep : r.action.TooDeep) :
      Blames t (.action before.length)
  | fallback {a} (fine : ∀ r ∈ t.rules, r.Shallow) (given : t.fallback = some a)
      (deep : a.TooDeep) : Blames t .fallback

theorem fallbackDefect?_eq_some_iff {fallback : Option Action} :
    fallbackDefect? fallback = some d ↔ ∃ a, fallback = some a ∧ a.TooDeep ∧ d = .fallback := by
  cases fallback with
  | none => simp [fallbackDefect?]
  | some a =>
    simp only [fallbackDefect?, ← Action.maxDepth_lt_iff]
    by_cases hdeep : maxDepth < a.depth <;> simp [hdeep, eq_comm]

theorem defect?_eq_some_iff : t.defect? = some d ↔ t.Blames d := by
  rw [defect?, Option.or_eq_some_iff, rulesDefect?_eq_some_iff, rulesDefect?_eq_none_iff,
    fallbackDefect?_eq_some_iff]
  constructor
  · rintro (⟨before, r, after, hsplit, hbefore, hr⟩ | ⟨hrules, a, ha, hdeep, rfl⟩)
    · rw [Nat.zero_add] at hr
      rcases Rule.defect?_eq_some_iff.mp hr with ⟨hdeep, rfl⟩ | ⟨hshallow, hdeep, rfl⟩
      · exact .condition hsplit hbefore hdeep
      · exact .action hsplit hbefore hshallow hdeep
    · exact .fallback hrules ha hdeep
  · intro h
    cases h with
    | @condition before r after hsplit hbefore hdeep =>
      refine .inl ⟨before, r, after, hsplit, hbefore, ?_⟩
      exact Rule.defect?_eq_some_iff.mpr (.inl ⟨hdeep, by rw [Nat.zero_add]⟩)
    | @action before r after hsplit hbefore hshallow hdeep =>
      refine .inl ⟨before, r, after, hsplit, hbefore, ?_⟩
      exact Rule.defect?_eq_some_iff.mpr (.inr ⟨hshallow, hdeep, by rw [Nat.zero_add]⟩)
    | fallback hrules ha hdeep => exact .inr ⟨hrules, _, ha, hdeep, rfl⟩

theorem defect?_eq_none_iff : t.defect? = none ↔ t.Shallow := by
  have hfallback : fallbackDefect? t.fallback = none ↔ ∀ a ∈ t.fallback, ¬ a.TooDeep := by
    rw [Option.eq_none_iff_forall_ne_some]
    constructor
    · intro h a ha hdeep
      exact h _ (fallbackDefect?_eq_some_iff.mpr ⟨a, ha, hdeep, rfl⟩)
    · intro h d hd
      obtain ⟨a, ha, hdeep, -⟩ := fallbackDefect?_eq_some_iff.mp hd
      exact h a ha hdeep
  rw [defect?, Option.or_eq_none_iff, rulesDefect?_eq_none_iff, hfallback]
  constructor
  · rintro ⟨hrules, hfallback⟩
    exact ⟨hrules, hfallback⟩
  · intro h
    exact ⟨h.rules, h.fallback⟩

theorem validate_eq_ok_iff : t.validate = .ok () ↔ t.Shallow := by
  rw [← defect?_eq_none_iff, validate]
  cases t.defect? <;> simp

theorem validate_eq_error_iff {e : TableError} :
    t.validate = .error e ↔ ∃ d, e = .invalid d ∧ t.Blames d := by
  simp only [← defect?_eq_some_iff, validate]
  cases t.defect? <;> simp [eq_comm]

theorem compile_eq_error_iff {e : TableError} :
    t.compile.result = .error e ↔ t.validate = .error e := by
  cases h : t.validate with
  | error d =>
    have hresult : t.compile.result = .error d := congrArg Traced.result (compile_of_invalid h)
    rw [hresult, Except.error.injEq, Except.error.injEq]
  | ok _ =>
    rw [result_compile h]
    exact ⟨nofun, nofun⟩

/-- The check passes exactly if no way down into a condition or an action of the table goes through
more than 32 of them. Otherwise there is one first part with such a way, which is the one that is
named: the condition or else the action of the first rule that has one, or the fallback if no rule
has. To compile a table fails exactly where the check does, with the same error, which is never one
of construction. -/
theorem validate_blames (t : Table) :
    (t.validate = .ok () ↔ t.Shallow) ∧
    (¬ t.Shallow → ∃! d, t.Blames d) ∧
    (∀ e, t.validate = .error e ↔ ∃ d, e = .invalid d ∧ t.Blames d) ∧
    (∀ i, (Defect.condition i).message =
        "rule " ++ toString i ++ ": predicate nesting exceeds 32" ∧
      (Defect.action i).message = "rule " ++ toString i ++ ": transformer nesting exceeds 32") ∧
    Defect.fallback.message = "default: transformer nesting exceeds 32" ∧
    (∀ e, t.compile.result = .error e ↔ t.validate = .error e) ∧
    ∀ e, t.compile.result ≠ .error (.construction e) := by
  refine ⟨validate_eq_ok_iff, ?_, fun e => validate_eq_error_iff, ?_, Defect.message_fallback,
    fun e => compile_eq_error_iff, ?_⟩
  · intro hshallow
    rw [← defect?_eq_none_iff] at hshallow
    obtain ⟨d, hd⟩ := Option.ne_none_iff_exists'.mp hshallow
    refine ⟨d, defect?_eq_some_iff.mp hd, ?_⟩
    intro c hc
    exact Option.some.inj ((defect?_eq_some_iff.mpr hc).symm.trans hd)
  · intro i
    exact ⟨Defect.message_condition i, Defect.message_action i⟩
  · intro e he
    obtain ⟨d, hd, -⟩ := validate_eq_error_iff.mp (compile_eq_error_iff.mp he)
    cases hd

/-- The 33rd condition on a way is one too many, and is found before the action of its rule. -/
example : defect? ⟨[⟨Nat.repeat .not 31 .always, .null⟩,
    ⟨Nat.repeat .not 32 .always, Nat.repeat (fun a => .chain [.null, a]) 32 .null⟩], none⟩ =
    some (.condition 1) := by decide

end Table

end FirstMatch
