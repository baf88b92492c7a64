import FirstMatch.Proofs.Denotation
import Mathlib.Logic.Relation
import Mathlib.Order.WellFounded

/-!
Negation normal form of conditions. Negations are pushed inward, from conjunctions to disjunctions
and back, until they stand on tests of the value alone, and junctions are spliced into junctions of
the same kind. The single steps may be taken anywhere and in any order. None of them changes what is
accepted, they come to an end, and the condition they end with does not depend on the order.
-/

namespace FirstMatch

inductive Junction where
  | all
  | any

namespace Junction

def join : Junction → List Condition → Condition
  | .all, cs => .all cs
  | .any, cs => .any cs

def dual : Junction → Junction
  | .all => .any
  | .any => .all

/-- What a junction becomes under a negation, if there is one. -/
def under (negated : Bool) (j : Junction) : Junction := bif negated then j.dual else j

/-- The conditions joined in a junction of this kind, any other condition being the only one. -/
def parts : Junction → Condition → List Condition
  | .all, .all cs => cs
  | .any, .any cs => cs
  | _, c => [c]

variable (j : Junction) (cs : List Condition)

theorem join_ne_not (c : Condition) : j.join cs ≠ .not c := by
  cases j <;> exact Condition.noConfusion

theorem join_injective {k : Junction} {ds : List Condition} (h : j.join cs = k.join ds) :
    j = k ∧ cs = ds := by
  cases j <;> cases k <;> simp_all [join]

@[simp]
theorem parts_join : j.parts (j.join cs) = cs := by
  cases j <;> rfl

theorem parts_of_ne {c : Condition} (h : ∀ cs, c ≠ j.join cs) : j.parts c = [c] := by
  cases j <;> cases c <;> first | rfl | exact absurd rfl (h _)

theorem dual_under (negated : Bool) : j.dual.under negated = j.under !negated := by
  cases j <;> cases negated <;> rfl

end Junction

namespace Condition

inductive IsTest : Condition → Prop where
  | isNull : IsTest .isNull
  | isNumber : IsTest .isNumber
  | isString : IsTest .isString
  | equals (value : Json) : IsTest (.equals value)
  | lessThan (bound : Double) : IsTest (.lessThan bound)
  | greaterThan (bound : Double) : IsTest (.greaterThan bound)

inductive Rewrites : Condition → Condition → Prop where
  | notNot (c : Condition) : Rewrites (.not (.not c)) c
  | notAlways : Rewrites (.not .always) .never
  | notNever : Rewrites (.not .never) .always
  | notJoin (j : Junction) (cs : List Condition) :
      Rewrites (.not (j.join cs)) (j.dual.join (cs.map .not))
  | splice (j : Junction) (before inner after : List Condition) :
      Rewrites (j.join (before ++ j.join inner :: after)) (j.join (before ++ (inner ++ after)))
  | underNot {c d : Condition} (step : Rewrites c d) : Rewrites (.not c) (.not d)
  | underJoin {c d : Condition} (j : Junction) (before after : List Condition)
      (step : Rewrites c d) :
      Rewrites (j.join (before ++ c :: after)) (j.join (before ++ d :: after))

abbrev RewritesTo : Condition → Condition → Prop := Relation.ReflTransGen Rewrites

/-- Negation stands on tests only, and no junction directly holds one of its own kind. -/
inductive IsNormal : Condition → Prop where
  | always : IsNormal .always
  | never : IsNormal .never
  | test {c : Condition} (h : c.IsTest) : IsNormal c
  | notTest {c : Condition} (h : c.IsTest) : IsNormal (.not c)
  | join (j : Junction) {cs : List Condition} (apart : ∀ inner, j.join inner ∉ cs)
      (normal : ∀ c ∈ cs, IsNormal c) : IsNormal (j.join cs)

def signed (negated : Bool) (c : Condition) : Condition := bif negated then .not c else c

mutual

/-- The normal form of a condition or of its negation, found in one pass. -/
def normalAs (negated : Bool) : Condition → Condition
  | .always => bif negated then .never else .always
  | .never => bif negated then .always else .never
  | .not c => c.normalAs !negated
  | .all cs =>
    (Junction.all.under negated).join (normalParts (Junction.all.under negated) negated cs)
  | .any cs =>
    (Junction.any.under negated).join (normalParts (Junction.any.under negated) negated cs)
  | .isNull => signed negated .isNull
  | .isNumber => signed negated .isNumber
  | .isString => signed negated .isString
  | .equals value => signed negated (.equals value)
  | .lessThan bound => signed negated (.lessThan bound)
  | .greaterThan bound => signed negated (.greaterThan bound)

def normalParts (j : Junction) (negated : Bool) : List Condition → List Condition
  | [] => []
  | c :: cs => j.parts (c.normalAs negated) ++ normalParts j negated cs

end

def normal (c : Condition) : Condition := c.normalAs false

variable {c d : Condition} {cs : List Condition}

theorem normalAs_join (j : Junction) (negated : Bool) (cs : List Condition) :
    (j.join cs).normalAs negated =
      (j.under negated).join (normalParts (j.under negated) negated cs) := by
  cases j <;> simp only [Junction.join, normalAs]

theorem IsTest.normalAs_eq (h : c.IsTest) (negated : Bool) :
    c.normalAs negated = signed negated c := by
  cases h <;> simp only [normalAs]

/-! Acceptance -/

theorem accepts_join_dual (j : Junction) (cs : List Condition) (x : Json) :
    (j.dual.join (cs.map .not)).Accepts x ↔ ¬ (j.join cs).Accepts x := by
  cases j <;> simp [Junction.dual, Junction.join, Accepts]

theorem accepts_join_splice (j : Junction) (before inner after : List Condition) (x : Json) :
    (j.join (before ++ (inner ++ after))).Accepts x ↔
      (j.join (before ++ j.join inner :: after)).Accepts x := by
  cases j with
  | all => simp only [Junction.join, Accepts, List.forall_mem_append, List.forall_mem_cons]
  | any =>
    simp only [Junction.join, Accepts, List.mem_append, List.mem_cons, exists_prop, or_and_right,
      exists_or, exists_eq_left]

theorem accepts_join_congr (j : Junction) (before after : List Condition) {x : Json}
    (h : d.Accepts x ↔ c.Accepts x) :
    (j.join (before ++ d :: after)).Accepts x ↔ (j.join (before ++ c :: after)).Accepts x := by
  cases j with
  | all => simp only [Junction.join, Accepts, List.forall_mem_append, List.forall_mem_cons, h]
  | any =>
    simp only [Junction.join, Accepts, List.mem_append, List.mem_cons, exists_prop, or_and_right,
      exists_or, exists_eq_left, h]

theorem Rewrites.accepts_iff (h : c.Rewrites d) (x : Json) : d.Accepts x ↔ c.Accepts x := by
  induction h with
  | notNot c => simp only [Accepts, not_not]
  | notAlways | notNever => simp only [Accepts, not_true, not_false_iff]
  | notJoin j cs => rw [accepts_join_dual, Accepts]
  | splice j before inner after => exact accepts_join_splice j before inner after x
  | underNot _ ih => simp only [Accepts, ih]
  | underJoin j before after _ ih => exact accepts_join_congr j before after ih

theorem RewritesTo.accepts_iff (h : c.RewritesTo d) (x : Json) : d.Accepts x ↔ c.Accepts x := by
  induction h with
  | refl => rfl
  | tail _ hstep ih => exact (hstep.accepts_iff x).trans ih

theorem RewritesTo.compile_eq (h : c.RewritesTo d) (x : Json) : d.compile x = c.compile x := by
  have htest : d.test x = c.test x := by
    rw [Bool.eq_iff_iff, test_iff, test_iff]
    exact h.accepts_iff x
  rw [compile_apply, compile_apply, htest]

/-! Steps lower the weight -/

mutual

/-- A measure that every step lowers: a negation doubles what stands under it, so that handing it to
all parts of a junction saves what the junction itself weighs. -/
def weight : Condition → Nat
  | .not c => 2 * c.weight
  | .all cs => 1 + weightList cs
  | .any cs => 1 + weightList cs
  | _ => 1

def weightList : List Condition → Nat
  | [] => 0
  | c :: cs => c.weight + weightList cs

end

theorem weight_join (j : Junction) (cs : List Condition) :
    (j.join cs).weight = 1 + weightList cs := by
  cases j <;> simp only [Junction.join, weight]

theorem weight_pos (c : Condition) : 0 < c.weight := by
  cases c with
  | not c =>
    have := weight_pos c
    rw [weight]
    omega
  | all cs | any cs =>
    rw [weight]
    omega
  | _ => simp only [weight, Nat.zero_lt_one]

theorem weightList_append (cs ds : List Condition) :
    weightList (cs ++ ds) = weightList cs + weightList ds := by
  induction cs with
  | nil => simp only [List.nil_append, weightList, Nat.zero_add]
  | cons c cs ih => simp only [List.cons_append, weightList, ih, Nat.add_assoc]

theorem weightList_map_not (cs : List Condition) :
    weightList (cs.map .not) = 2 * weightList cs := by
  induction cs with
  | nil => rfl
  | cons c cs ih => simp only [List.map_cons, weightList, weight, ih, Nat.mul_add]

theorem Rewrites.weight_lt (h : c.Rewrites d) : d.weight < c.weight := by
  induction h with
  | notNot c =>
    have := weight_pos c
    simp only [weight]
    omega
  | notAlways | notNever =>
    simp only [weight]
    omega
  | notJoin j cs =>
    simp only [weight, weight_join, weightList_map_not]
    omega
  | splice j before inner after =>
    simp only [weight_join, weightList_append, weightList]
    omega
  | underNot _ ih =>
    simp only [weight]
    omega
  | underJoin j before after _ ih =>
    simp only [weight_join, weightList_append, weightList]
    omega

theorem RewritesTo.weight_le (h : c.RewritesTo d) : d.weight ≤ c.weight := by
  induction h with
  | refl => exact le_rfl
  | tail _ hstep ih => exact hstep.weight_lt.le.trans ih

theorem rewriting_ends : ¬ ∃ run : Nat → Condition, ∀ n, (run n).Rewrites (run (n + 1)) := by
  rintro ⟨run, hrun⟩
  obtain ⟨n, hn⟩ := WellFounded.not_rel_apply_succ (r := (· < ·)) fun n => (run n).weight
  exact hn (hrun n).weight_lt

/-! Depth -/

theorem depth_join (j : Junction) (cs : List Condition) : (j.join cs).depth = 1 + depthList cs := by
  cases j <;> simp only [Junction.join, depth]

theorem depthList_append (cs ds : List Condition) :
    depthList (cs ++ ds) = max (depthList cs) (depthList ds) := by
  induction cs with
  | nil => simp only [List.nil_append, depthList, Nat.zero_max]
  | cons c cs ih => simp only [List.cons_append, depthList, ih, Nat.max_assoc]

theorem depthList_map_not_le (cs : List Condition) :
    depthList (cs.map .not) ≤ 1 + depthList cs := by
  induction cs with
  | nil => simp only [List.map_nil, depthList, Nat.zero_le]
  | cons c cs ih =>
    simp only [List.map_cons, depthList, depth]
    omega

theorem Rewrites.depth_le (h : c.Rewrites d) : d.depth ≤ c.depth := by
  induction h with
  | notNot c =>
    simp only [depth]
    omega
  | notAlways | notNever => simp only [depth, Nat.le_add_left]
  | notJoin j cs =>
    have := depthList_map_not_le cs
    simp only [depth, depth_join]
    omega
  | splice j before inner after =>
    simp only [depth_join, depthList_append, depthList]
    omega
  | underNot _ ih =>
    simp only [depth]
    omega
  | underJoin j before after _ ih =>
    simp only [depth_join, depthList_append, depthList]
    omega

theorem RewritesTo.depth_le (h : c.RewritesTo d) : d.depth ≤ c.depth := by
  induction h with
  | refl => exact le_rfl
  | tail _ hstep ih => exact hstep.depth_le.trans ih

/-! The normal form is reached -/

theorem RewritesTo.underJoin (j : Junction) (before after : List Condition)
    (h : c.RewritesTo d) :
    (j.join (before ++ c :: after)).RewritesTo (j.join (before ++ d :: after)) :=
  h.lift (fun c => j.join (before ++ c :: after)) fun _ _ hstep => .underJoin j before after hstep

theorem rewritesTo_parts (j : Junction) (before after : List Condition) (c : Condition) :
    (j.join (before ++ c :: after)).RewritesTo (j.join (before ++ (j.parts c ++ after))) := by
  by_cases h : ∃ inner, c = j.join inner
  · obtain ⟨inner, rfl⟩ := h
    rw [Junction.parts_join]
    exact .single (.splice j before inner after)
  · rw [j.parts_of_ne fun inner hc => h ⟨inner, hc⟩]
    exact .refl

theorem signed_join_rewritesTo (j : Junction) (negated : Bool) (cs : List Condition) :
    (signed negated (j.join cs)).RewritesTo
      ((j.under negated).join (cs.map (signed negated))) := by
  cases negated with
  | false =>
    have hid : cs.map (signed false) = cs := List.map_id cs
    rw [hid]
    exact .refl
  | true => exact .single (.notJoin j cs)

theorem signed_not_rewritesTo (negated : Bool) (c : Condition) :
    (signed negated (.not c)).RewritesTo (signed (!negated) c) := by
  cases negated with
  | false => exact .refl
  | true => exact .single (.notNot c)

mutual

/-- Polarity and condition go down together: what stands under a negation is the negated one. -/
theorem signed_rewritesTo_normalAs :
    ∀ (negated : Bool) (c : Condition), (signed negated c).RewritesTo (c.normalAs negated)
  | false, .always | false, .never => .refl
  | true, .always => .single .notAlways
  | true, .never => .single .notNever
  | negated, .not c =>
    (signed_not_rewritesTo negated c).trans (signed_rewritesTo_normalAs (!negated) c)
  | negated, .all cs =>
    (signed_join_rewritesTo .all negated cs).trans
      (join_rewritesTo_normalParts (Junction.all.under negated) negated [] cs)
  | negated, .any cs =>
    (signed_join_rewritesTo .any negated cs).trans
      (join_rewritesTo_normalParts (Junction.any.under negated) negated [] cs)
  | _, .isNull | _, .isNumber | _, .isString | _, .equals _ | _, .lessThan _
  | _, .greaterThan _ => .refl

/-- The parts are done from left to right; those before them are done already. -/
theorem join_rewritesTo_normalParts :
    ∀ (j : Junction) (negated : Bool) (before cs : List Condition),
    (j.join (before ++ cs.map (signed negated))).RewritesTo
      (j.join (before ++ normalParts j negated cs))
  | _, _, _, [] => .refl
  | j, negated, before, c :: cs => by
    have hhead := (signed_rewritesTo_normalAs negated c).underJoin j before
      (cs.map (signed negated))
    have hsplice := rewritesTo_parts j before (cs.map (signed negated)) (c.normalAs negated)
    have htail := join_rewritesTo_normalParts j negated
      (before ++ j.parts (c.normalAs negated)) cs
    rw [List.append_assoc, List.append_assoc] at htail
    rw [List.map_cons, normalParts]
    exact (hhead.trans hsplice).trans htail

end

theorem rewritesTo_normal (c : Condition) : c.RewritesTo c.normal :=
  signed_rewritesTo_normalAs false c

/-! What is reached is normal -/

theorem isNormal_signed (h : c.IsTest) (negated : Bool) : (signed negated c).IsNormal := by
  cases negated with
  | false => exact .test h
  | true => exact .notTest h

theorem IsNormal.of_join {j : Junction} (h : (j.join cs).IsNormal) :
    (∀ inner, j.join inner ∉ cs) ∧ ∀ c ∈ cs, c.IsNormal := by
  generalize hc : j.join cs = c at h
  cases h with
  | join k apart normal =>
    obtain ⟨rfl, rfl⟩ := j.join_injective cs hc
    exact ⟨apart, normal⟩
  | always | never => cases j <;> cases hc
  | test htest => cases j <;> cases hc <;> cases htest
  | notTest => exact absurd hc (j.join_ne_not cs _)

theorem IsNormal.of_mem_parts {j : Junction} (h : c.IsNormal) (hd : d ∈ j.parts c) :
    d.IsNormal ∧ ∀ inner, d ≠ j.join inner := by
  by_cases hjoin : ∃ inner, c = j.join inner
  · obtain ⟨inner, rfl⟩ := hjoin
    rw [Junction.parts_join] at hd
    obtain ⟨apart, normal⟩ := h.of_join
    exact ⟨normal d hd, fun cs hcs => apart cs (hcs ▸ hd)⟩
  · have hne : ∀ inner, c ≠ j.join inner := fun inner hc => hjoin ⟨inner, hc⟩
    rw [j.parts_of_ne hne] at hd
    obtain rfl := List.mem_singleton.mp hd
    exact ⟨h, hne⟩

mutual

theorem isNormal_normalAs : ∀ (negated : Bool) (c : Condition), (c.normalAs negated).IsNormal
  | false, .always | true, .never => .always
  | true, .always | false, .never => .never
  | negated, .not c => isNormal_normalAs (!negated) c
  | negated, .all cs => isNormal_join_normalParts (Junction.all.under negated) negated cs
  | negated, .any cs => isNormal_join_normalParts (Junction.any.under negated) negated cs
  | negated, .isNull => isNormal_signed .isNull negated
  | negated, .isNumber => isNormal_signed .isNumber negated
  | negated, .isString => isNormal_signed .isString negated
  | negated, .equals value => isNormal_signed (.equals value) negated
  | negated, .lessThan bound => isNormal_signed (.lessThan bound) negated
  | negated, .greaterThan bound => isNormal_signed (.greaterThan bound) negated

theorem isNormal_join_normalParts (j : Junction) (negated : Bool) (cs : List Condition) :
    (j.join (normalParts j negated cs)).IsNormal := by
  have hparts := isNormal_of_mem_normalParts j negated cs
  exact .join j (fun inner hinner => (hparts _ hinner).2 inner rfl) fun c hc => (hparts c hc).1

theorem isNormal_of_mem_normalParts : ∀ (j : Junction) (negated : Bool) (cs : List Condition),
    ∀ d ∈ normalParts j negated cs, d.IsNormal ∧ ∀ inner, d ≠ j.join inner
  | _, _, [], _, hd => absurd hd List.not_mem_nil
  | j, negated, c :: cs, d, hd => by
    rw [normalParts] at hd
    rcases List.mem_append.mp hd with hhead | htail
    · exact (isNormal_normalAs negated c).of_mem_parts hhead
    · exact isNormal_of_mem_normalParts j negated cs d htail

end

theorem isNormal_normal (c : Condition) : c.normal.IsNormal := isNormal_normalAs false c

/-! There is no other -/

theorem normalParts_append (j : Junction) (negated : Bool) (cs ds : List Condition) :
    normalParts j negated (cs ++ ds) = normalParts j negated cs ++ normalParts j negated ds := by
  induction cs with
  | nil => rfl
  | cons c cs ih => simp only [List.cons_append, normalParts, ih, List.append_assoc]

theorem normalParts_map_not (j : Junction) (negated : Bool) (cs : List Condition) :
    normalParts j negated (cs.map .not) = normalParts j (!negated) cs := by
  induction cs with
  | nil => rfl
  | cons c cs ih => simp only [List.map_cons, normalParts, normalAs, ih]

theorem Rewrites.normalAs_eq (h : c.Rewrites d) (negated : Bool) :
    d.normalAs negated = c.normalAs negated := by
  induction h generalizing negated with
  | notNot c => simp only [normalAs, Bool.not_not]
  | notAlways | notNever => cases negated <;> rfl
  | notJoin j cs =>
    rw [normalAs, normalAs_join, normalAs_join, normalParts_map_not, Junction.dual_under]
  | splice j before inner after =>
    simp only [normalAs_join, normalParts_append, normalParts, Junction.parts_join]
  | underNot _ ih => rw [normalAs, normalAs, ih]
  | underJoin j before after _ ih =>
    simp only [normalAs_join, normalParts_append, normalParts, ih]

theorem RewritesTo.normal_eq (h : c.RewritesTo d) : d.normal = c.normal := by
  induction h with
  | refl => rfl
  | tail _ hstep ih => exact (hstep.normalAs_eq false).trans ih

theorem normalParts_eq_self {j : Junction} (apart : ∀ inner, j.join inner ∉ cs)
    (h : ∀ c ∈ cs, c.normal = c) : normalParts j false cs = cs := by
  induction cs with
  | nil => rfl
  | cons c cs ih =>
    have hne : ∀ inner, c ≠ j.join inner := fun inner hc =>
      apart inner (hc ▸ List.mem_cons_self)
    have hc : c.normalAs false = c := h c List.mem_cons_self
    have hcs := ih (fun inner hinner => apart inner (List.mem_cons_of_mem c hinner))
      fun d hd => h d (List.mem_cons_of_mem c hd)
    rw [normalParts, hc, j.parts_of_ne hne, hcs, List.singleton_append]

theorem IsNormal.normal_eq (h : c.IsNormal) : c.normal = c := by
  induction h with
  | always | never => rfl
  | test h => exact h.normalAs_eq false
  | notTest h =>
    rw [normal, normalAs]
    exact h.normalAs_eq true
  | join j apart _ ih =>
    rw [normal, normalAs_join]
    exact congrArg j.join (normalParts_eq_self apart ih)

theorem isNormal_iff_stops (c : Condition) : c.IsNormal ↔ ¬ ∃ d, c.Rewrites d := by
  constructor
  · rintro h ⟨d, hstep⟩
    -- a step from a normal condition would lead back to it, at a lower weight
    have hback : d.normal = c := (RewritesTo.normal_eq (.single hstep)).trans h.normal_eq
    have hle := (rewritesTo_normal d).weight_le
    have hlt := hstep.weight_lt
    rw [hback] at hle
    omega
  · intro h
    rcases Relation.ReflTransGen.cases_head (rewritesTo_normal c) with heq | ⟨d, hstep, -⟩
    · rw [heq]
      exact isNormal_normal c
    · exact absurd ⟨d, hstep⟩ h

theorem RewritesTo.isNormal_iff (h : c.RewritesTo d) : d.IsNormal ↔ d = c.normal := by
  constructor
  · intro hd
    rw [← h.normal_eq, hd.normal_eq]
  · rintro rfl
    exact isNormal_normal c

theorem compile_not_of_not_number {x : Json} (h : ∀ n, x ≠ .number n) (bound : Double) :
    (Condition.not (.lessThan bound)).compile x = pure true ∧
      (Condition.not (.greaterThan bound)).compile x = pure true := by
  cases x with
  | number n => exact absurd rfl (h n)
  | _ => exact ⟨rfl, rfl⟩

/-- Rewriting ends whatever steps are taken, and it ends exactly where negation stands on tests only
and no junction directly holds one of its own kind. There is one such condition that can be reached.
It accepts the same values as the condition that rewriting started from, as does everything on the
way, and it is no deeper. Negated comparisons are tests to be left as they are: they take all values
that are no numbers, which no comparison does. -/
theorem negation_normal_form (c : Condition) :
    (¬ ∃ run : Nat → Condition, ∀ n, (run n).Rewrites (run (n + 1))) ∧
    (∃ d, c.RewritesTo d ∧ d.IsNormal ∧ ∀ e, c.RewritesTo e → e.IsNormal → e = d) ∧
    (∀ d, c.RewritesTo d → (d.IsNormal ↔ ¬ ∃ e, d.Rewrites e)) ∧
    (∀ d, c.RewritesTo d → (∀ x, d.compile x = c.compile x) ∧ d.depth ≤ c.depth) ∧
    ∀ x, (∀ n, x ≠ .number n) → ∀ bound,
      (Condition.not (.lessThan bound)).compile x = pure true ∧
        (Condition.not (.greaterThan bound)).compile x = pure true := by
  refine ⟨rewriting_ends, ⟨c.normal, rewritesTo_normal c, isNormal_normal c, ?_⟩,
    fun d _ => isNormal_iff_stops d, fun d h => ⟨h.compile_eq, h.depth_le⟩,
    fun x hx bound => compile_not_of_not_number hx bound⟩
  intro e he hnormal
  exact he.isNormal_iff.mp hnormal

/-- Negations of junctions within each other, empty ones included. -/
example : (Condition.not (.all [.not (.any []), .any [.isNull, .not (.not (.lessThan .zero))],
    .not (.any [.isString])])).normal =
    .any [.all [.not .isNull, .not (.lessThan .zero)], .isString] := rfl

end Condition

end FirstMatch
