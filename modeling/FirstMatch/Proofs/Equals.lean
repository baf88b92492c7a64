import FirstMatch.Proofs.Json.Arranged
import FirstMatch.Proofs.Value

/-!
Comparison with a value for equality. It accepts what is equal in structure, and for a number also
the numbers that are written the other way, whole or with a point, with the same double.
-/

namespace FirstMatch

namespace Json

/-- Values of one kind with equal parts, where floats are equal as numbers and a whole number is
equal to itself only. -/
inductive StructurallyEqual : Json → Json → Prop where
  | null : StructurallyEqual .null .null
  | bool (b : Bool) : StructurallyEqual (.bool b) (.bool b)
  | integer (n : Int) : StructurallyEqual (Number.ofInt n) (Number.ofInt n)
  | float {x y : Double} (value : x.toRat = y.toRat) :
      StructurallyEqual (.number (.float x)) (.number (.float y))
  | string (s : String) : StructurallyEqual (.string s) (.string s)
  | list {xs ys : List Json} (each : List.Forall₂ StructurallyEqual xs ys) :
      StructurallyEqual (.list xs) (.list ys)
  | object {xs ys : List (String × Json)}
      (each : List.Forall₂ (SameName StructurallyEqual) xs ys) :
      StructurallyEqual (.object xs) (.object ys)

theorem structurallyEqual_number {a b : Number} (h : a.equal b = true) :
    StructurallyEqual (.number a) (.number b) := by
  cases a with
  | integer m =>
    cases b with
    | integer n =>
      rw [beq_iff_eq.mp h]
      exact .integer n
    | float y => cases h
  | float x =>
    cases b with
    | integer n => cases h
    | float y =>
      refine .float ?_
      rcases Double.alike_of_equal h with rfl | ⟨hx, hy⟩
      · rfl
      · obtain ⟨s, rfl⟩ := Double.isZero_iff.mp hx
        obtain ⟨t, rfl⟩ := Double.isZero_iff.mp hy
        exact Double.toRat_eq_iff.mpr (by cases s <;> cases t <;> rfl)

mutual

theorem structurallyEqual_of_equal : ∀ {x y : Json}, x.equal y = true → StructurallyEqual x y
  | .null, y, h => by
    cases y with
    | null => exact .null
    | _ => cases h
  | .bool a, y, h => by
    cases y with
    | bool b =>
      rw [beq_iff_eq.mp h]
      exact .bool b
    | _ => cases h
  | .number a, y, h => by
    cases y with
    | number b => exact structurallyEqual_number h
    | _ => cases h
  | .string a, y, h => by
    cases y with
    | string b =>
      rw [beq_iff_eq.mp h]
      exact .string b
    | _ => cases h
  | .list xs, y, h => by
    cases y with
    | list ys => exact .list (forall₂_of_equalItems h)
    | _ => cases h
  | .object xs, y, h => by
    cases y with
    | object ys => exact .object (forall₂_of_equalMembers h)
    | _ => cases h

theorem forall₂_of_equalItems : ∀ {xs ys : List Json}, equalItems xs ys = true →
    List.Forall₂ StructurallyEqual xs ys
  | [], [], _ => .nil
  | x :: xs, y :: ys, h => by
    rw [equalItems, Bool.and_eq_true] at h
    exact .cons (structurallyEqual_of_equal h.1) (forall₂_of_equalItems h.2)

theorem forall₂_of_equalMembers : ∀ {xs ys : List (String × Json)}, equalMembers xs ys = true →
    List.Forall₂ (SameName StructurallyEqual) xs ys
  | [], [], _ => .nil
  | (k, x) :: xs, (l, y) :: ys, h => by
    rw [equalMembers, Bool.and_eq_true, Bool.and_eq_true] at h
    obtain ⟨⟨hname, hvalue⟩, hrest⟩ := h
    obtain rfl := beq_iff_eq.mp hname
    exact .cons (.mk k (structurallyEqual_of_equal hvalue)) (forall₂_of_equalMembers hrest)

end

mutual

/-- Only a float that is not finite can have the value of another without being equal to it. -/
theorem StructurallyEqual.equal : ∀ {x y : Json}, StructurallyEqual x y → x.WellFormed →
    y.WellFormed → x.equal y = true
  | _, _, .null, _, _ => rfl
  | _, _, .bool b, _, _ => beq_self_eq_true b
  | _, _, .integer n, _, _ => beq_self_eq_true n
  | _, _, .float value, hx, hy => (Double.equal_iff hx hy).mpr (Double.toRat_eq_iff.mp value)
  | _, _, .string s, _, _ => beq_self_eq_true s
  | _, _, .list each, hx, hy => equalItems_of_forall₂ each hx hy
  | _, _, .object each, hx, hy => equalMembers_of_forall₂ each hx.2 hy.2

theorem equalItems_of_forall₂ : ∀ {xs ys : List Json}, List.Forall₂ StructurallyEqual xs ys →
    WellFormedItems xs → WellFormedItems ys → equalItems xs ys = true
  | _, _, .nil, _, _ => rfl
  | _, _, .cons head tail, hx, hy => by
    rw [equalItems, head.equal hx.1 hy.1, equalItems_of_forall₂ tail hx.2 hy.2, Bool.and_self]

theorem equalMembers_of_forall₂ : ∀ {xs ys : List (String × Json)},
    List.Forall₂ (SameName StructurallyEqual) xs ys →
    WellFormedMembers xs → WellFormedMembers ys → equalMembers xs ys = true
  | _, _, .nil, _, _ => rfl
  | _, _, .cons (.mk name value) tail, hx, hy => by
    rw [equalMembers, value.equal hx.1 hy.1, equalMembers_of_forall₂ tail hx.2 hy.2,
      beq_self_eq_true, Bool.and_self, Bool.and_self]

end

theorem equal_iff {x y : Json} (hx : x.WellFormed) (hy : y.WellFormed) :
    x.equal y = true ↔ StructurallyEqual x y := by
  constructor
  · exact structurallyEqual_of_equal
  · intro h
    exact h.equal hx hy

/-- Two numbers of which one is a float and the other is not, with one double. -/
def MixedEqual (v x : Json) : Prop :=
  ∃ a b : Number, v = .number a ∧ x = .number b ∧ a.isFloat ≠ b.isFloat ∧
    a.toDouble.toRat = b.toDouble.toRat

end Json

theorem Number.same_iff_equal {a b : Number} (ha : a.WellFormed) (hb : b.WellFormed) :
    a.same b = true ↔
      a.equal b = true ∨ a.isFloat ≠ b.isFloat ∧ a.toDouble.toRat = b.toDouble.toRat := by
  by_cases hkind : a.isFloat = b.isFloat
  · simp only [hkind, ne_eq, not_true_eq_false, false_and, or_false]
    cases a with
    | integer m =>
      cases b with
      | integer n => rw [same_integer_iff ha, equal, beq_iff_eq]
      | float y => cases hkind
    | float x =>
      cases b with
      | integer n => cases hkind
      | float y => rfl
  · have hfloat : (a.isFloat || b.isFloat) = true := by
      cases ha : a.isFloat <;> cases hb : b.isFloat <;> simp_all
    have hdiffer : ¬ a.equal b = true := by
      intro h
      exact hkind (isFloat_eq h)
    rw [same_iff_toDouble ha hb hfloat]
    simp only [hdiffer, ne_eq, hkind, not_false_eq_true, true_and, Bool.false_eq_true, false_or]

namespace Json

variable {v x : Json}

theorem meets_comm (x v : Json) : x.meets v = v.meets x := by
  have hequal := equal_comm x v
  cases x with
  | number a =>
    cases v with
    | number b => exact Number.same_comm a b
    | _ => exact hequal
  | _ => cases v <;> exact hequal

theorem meets_iff_equal (hv : v.WellFormed) (hx : x.WellFormed) :
    v.meets x = true ↔ v.equal x = true ∨ v.MixedEqual x := by
  by_cases hnumbers : ∃ a b, v = .number a ∧ x = .number b
  · obtain ⟨a, b, rfl, rfl⟩ := hnumbers
    refine (Number.same_iff_equal hv hx).trans (or_congr_right ?_)
    constructor
    · rintro ⟨hkind, hvalue⟩
      exact ⟨a, b, rfl, rfl, hkind, hvalue⟩
    · rintro ⟨a, b, ⟨⟩, ⟨⟩, hkind, hvalue⟩
      exact ⟨hkind, hvalue⟩
  · have hmixed : ¬ v.MixedEqual x := by
      rintro ⟨a, b, hva, hxb, -⟩
      exact hnumbers ⟨a, b, hva, hxb⟩
    have hmeets : v.meets x = v.equal x := by
      unfold meets
      split
      · rename_i a b
        exact absurd ⟨a, b, rfl, rfl⟩ hnumbers
      · rfl
    rw [hmeets]
    exact (or_iff_left hmixed).symm

end Json

namespace Condition

variable {v x : Json}

theorem accepts_equals : (equals v).compile.Accepts x ↔ v.meets x = true := by
  rw [accepts_compile, test, Json.meets_comm]

theorem accepts_equals_iff (hv : v.WellFormed) (hx : x.WellFormed) :
    (equals v).compile.Accepts x ↔ v.StructurallyEqual x ∨ v.MixedEqual x := by
  rw [accepts_equals, Json.meets_iff_equal hv hx, Json.equal_iff hv hx]

theorem accepts_equals_of_equalTo (hv : v.WellFormed) (hx : x.WellFormed)
    (h : (Predicate.equalTo v).Accepts x) : (equals v).compile.Accepts x := by
  have hequal : v.equal x = true := (Json.equal_comm v x).trans (Except.ok.inj h)
  rw [accepts_equals, Json.meets_iff_equal hv hx]
  exact .inl hequal

/-- The comparison with a well-formed value accepts the values of the same structure, and for a
number also those of the other kind with the same double, if it is on the outside. So it accepts the
value itself, it accepts what accepts the value in turn, and it accepts whatever is plainly equal;
of whole numbers of 64 bits, with or without sign, it accepts only the same one. -/
theorem equals_structural (hv : v.WellFormed) (hx : x.WellFormed) :
    ((equals v).compile.Accepts x ↔ v.StructurallyEqual x ∨ v.MixedEqual x) ∧
    (equals v).compile.Accepts v ∧
    ((equals v).compile.Accepts x ↔ (equals x).compile.Accepts v) ∧
    ((Predicate.equalTo v).Accepts x → (equals v).compile.Accepts x) ∧
    ∀ m n : Int, (Number.integer m).WellFormed → (Number.integer n).WellFormed →
      ((equals (Number.ofInt m)).compile.Accepts (Number.ofInt n) ↔ m = n) := by
  refine ⟨accepts_equals_iff hv hx, ?_, ?_, accepts_equals_of_equalTo hv hx, ?_⟩
  · rw [accepts_equals_iff hv hv]
    exact .inl (Json.structurallyEqual_of_equal (Json.equal_self hv))
  · rw [accepts_equals, accepts_equals, Json.meets_comm]
  · intro m n hm _
    rw [accepts_equals]
    exact Number.same_integer_iff hm

def within (n : Number) : Json := .list [.object [("n", .number n)], .null]

theorem within_wellFormed {n : Number} (h : n.WellFormed) : (within n).WellFormed :=
  ⟨⟨List.pairwise_singleton .., h, trivial⟩, trivial, trivial⟩

/-- Within a value, 1 and 1.0 are different. -/
theorem within_structural :
    (within (.integer 1)).WellFormed ∧ (within (.float (.ofInt 1))).WellFormed ∧
    (equals (within (.integer 1))).compile.Accepts (within (.integer 1)) ∧
    ¬ (equals (within (.integer 1))).compile.Accepts (within (.float (.ofInt 1))) ∧
    ¬ (equals (within (.float (.ofInt 1)))).compile.Accepts (within (.integer 1)) := by
  have hone : (Number.float (.ofInt 1)).WellFormed := Double.ofInt_isFinite (by decide)
  have hv : (within (.integer 1)).WellFormed := within_wellFormed (by decide)
  have hx : (within (.float (.ofInt 1))).WellFormed := within_wellFormed hone
  obtain ⟨hiff, hself, hsymm, -⟩ := equals_structural hv hx
  have hdifferent : ¬ (equals (within (.integer 1))).compile.Accepts
      (within (.float (.ofInt 1))) := by
    rw [hiff]
    rintro (hequal | ⟨a, b, ha, -⟩)
    · cases hequal with
      | list each =>
        cases each with
        | cons head _ =>
          cases head with
          | object each =>
            cases each with
            | cons member _ =>
              cases member with
              | mk _ value => cases value
    · cases ha
  exact ⟨hv, hx, hself, hdifferent, fun h => hdifferent (hsymm.mpr h)⟩

end Condition

end FirstMatch
