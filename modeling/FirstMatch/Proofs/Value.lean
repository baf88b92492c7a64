import FirstMatch.Proofs.Comparison
import FirstMatch.Proofs.Dispatch.Order

/-!
Equality of numbers and the values that they stand for. Numbers of one value are always taken as
equal. Numbers of two values are taken as equal if one of them is a whole number that no double
stands for, and the other is the float that it is converted to; so a float can be equal to two
whole numbers that are not equal to each other.
-/

namespace FirstMatch

namespace Number

def toRat : Number → ℚ
  | .integer n => n
  | .float x => x.toRat

/-- A whole number that no double stands for, and the float that it is converted to. -/
def ConvertsTo (a b : Number) : Prop :=
  ∃ (n : Int) (x : Double), a = .integer n ∧ b = .float x ∧
    (∀ y : Double, y.isFinite = true → y.toRat ≠ n) ∧ (Double.ofInt n).toRat = x.toRat

theorem ConvertsTo.toRat_ne {a b : Number} (hb : b.WellFormed) (h : a.ConvertsTo b) :
    a.toRat ≠ b.toRat := by
  obtain ⟨n, x, rfl, rfl, hno, -⟩ := h
  exact (hno x hb).symm

theorem ConvertsTo.large {a b : Number} (h : a.ConvertsTo b) :
    ∃ n : Int, a = .integer n ∧ 2 ^ 53 < n.natAbs := by
  obtain ⟨n, x, rfl, rfl, hno, -⟩ := h
  refine ⟨n, rfl, ?_⟩
  have hwhole : ∀ y : Double, ¬ y.IsWhole n := by
    intro y hy
    exact hno y hy.finite ((Double.toRat_eq_intCast_iff hy.finite).mpr hy)
  by_contra hle
  rcases Nat.lt_or_eq_of_le (Nat.le_of_not_lt hle) with hlt | heq
  · exact hwhole _ (Double.isWhole_ofInt hlt)
  · rcases Int.natAbs_eq n with hn | hn
    · rw [heq] at hn
      subst hn
      exact hwhole (.ofInt (2 ^ 53)) ⟨by decide +kernel, by decide +kernel⟩
    · rw [heq] at hn
      subst hn
      exact hwhole (.ofInt (-2 ^ 53)) ⟨by decide +kernel, by decide +kernel⟩

theorem convertsTo_of_units {n : Int} {x : Double}
    (hno : (Double.ofInt n).units ≠ n * Magnitude.one)
    (hx : (Double.ofInt n).units = x.units) : (integer n).ConvertsTo (.float x) := by
  refine ⟨n, x, rfl, rfl, ?_, Double.toRat_eq_iff.mpr hx⟩
  intro y hy hvalue
  exact hno ((Double.toRat_eq_intCast_iff hy).mp hvalue).converted.units

variable {v x w : Number}

theorem same_comm (v x : Number) : v.same x = x.same v := by
  have hequal : ∀ a b : Double, a.equal b = b.equal a := fun a b =>
    Bool.eq_iff_iff.mpr ⟨Double.equal_symm, Double.equal_symm⟩
  simp only [same, Bool.or_comm, hequal v.toDouble, BEq.comm (a := v.signed?),
    BEq.comm (a := v.unsigned?)]

theorem same_iff_toDouble (hv : v.WellFormed) (hx : x.WellFormed)
    (hfloat : (v.isFloat || x.isFloat) = true) :
    v.same x = true ↔ v.toDouble.toRat = x.toDouble.toRat :=
  (same_of_float hv hx hfloat).trans Double.toRat_eq_iff.symm

theorem same_integer_float_iff {n : Int} {y : Double} (hn : (integer n).WellFormed)
    (hy : (float y).WellFormed) :
    (integer n).same (.float y) = true ↔
      (integer n).toRat = (float y).toRat ∨ (integer n).ConvertsTo (.float y) := by
  rw [same_iff_toDouble hn hy rfl, toDouble, toDouble]
  constructor
  · intro hdouble
    by_cases hexact : ∃ z : Double, z.isFinite = true ∧ z.toRat = n
    · obtain ⟨z, hz, hvalue⟩ := hexact
      have hwhole := ((Double.toRat_eq_intCast_iff hz).mp hvalue).converted
      left
      exact ((Double.toRat_eq_intCast_iff hwhole.finite).mpr hwhole).symm.trans hdouble
    · right
      refine ⟨n, y, rfl, rfl, ?_, hdouble⟩
      intro z hz hvalue
      exact hexact ⟨z, hz, hvalue⟩
  · rintro (hvalue | ⟨m, z, ⟨⟩, ⟨⟩, -, hdouble⟩)
    · have hwhole := ((Double.toRat_eq_intCast_iff (x := y) hy).mp hvalue.symm).converted
      exact ((Double.toRat_eq_intCast_iff hwhole.finite).mpr hwhole).trans hvalue
    · exact hdouble

theorem not_convertsTo_integer {n : Int} : ¬ v.ConvertsTo (.integer n) := by
  rintro ⟨m, y, -, ⟨⟩, -⟩

theorem not_float_convertsTo {y : Double} : ¬ (float y).ConvertsTo x := by
  rintro ⟨m, z, ⟨⟩, -⟩

theorem same_iff_toRat (hv : v.WellFormed) (hx : x.WellFormed) :
    x.same v = true ↔ v.toRat = x.toRat ∨ v.ConvertsTo x ∨ x.ConvertsTo v := by
  cases v with
  | integer m =>
    cases x with
    | integer n =>
      rw [same_integer_iff hx, toRat, toRat, Int.cast_inj, eq_comm]
      simp only [not_convertsTo_integer, or_false]
    | float y =>
      rw [same_comm, same_integer_float_iff hv hx]
      simp only [not_float_convertsTo, or_false]
  | float z =>
    cases x with
    | integer n =>
      rw [same_integer_float_iff hx hv, eq_comm]
      simp only [not_float_convertsTo, false_or]
    | float y =>
      rw [same_iff_toDouble hx hv rfl, eq_comm]
      simp only [not_float_convertsTo, or_false, toRat, toDouble]

theorem same_trans_iff (hv : v.WellFormed) (hx : x.WellFormed) (hw : w.WellFormed)
    (hvx : x.same v = true) (hxw : w.same x = true) : w.same v = true ↔ ¬ v.Merged w := by
  obtain ⟨hleft, -⟩ := (Comparison.same_iff hv hx).mp hvx
  obtain ⟨hright, -⟩ := (Comparison.same_iff hx hw).mp hxw
  rw [Comparison.same_iff hv hw]
  exact and_iff_right (hright.trans hleft)

theorem exists_float_of_merged (hx : x.WellFormed) (hw : w.WellFormed) (hvx : x.same v = true)
    (hxw : w.same x = true) (h : v.Merged w) : ∃ y, x = .float y := by
  obtain ⟨j, k, rfl, rfl, hne, -⟩ := h
  cases x with
  | float y => exact ⟨y, rfl⟩
  | integer n =>
    have hn : n = j := (same_integer_iff hx).mp hvx
    have hk : k = n := (same_integer_iff hw).mp hxw
    exact absurd (hk.trans hn).symm hne

end Number

namespace Condition

theorem accepts_compile {c : Condition} {x : Json} : c.compile.Accepts x ↔ c.test x = true := by
  rw [Predicate.Accepts, compile_apply]
  constructor
  · intro h
    exact Except.ok.inj h
  · intro h
    exact congrArg Except.ok h

variable {v x : Number}

/-- The comparison with a number accepts the numbers of the same value. Other than these it accepts
a float that the number is converted to, or a number that is converted to the float that it is
compared with; a number is converted like this only if no double has its value, which takes more
than 2^53. Where a first number accepts a second, and this a third, the first accepts the third
unless the second is a float and the others are different whole numbers that are one double. -/
theorem equals_by_value (hv : v.WellFormed) (hx : x.WellFormed) :
    ((equals (.number v)).compile.Accepts (.number x) ↔
      v.toRat = x.toRat ∨ v.ConvertsTo x ∨ x.ConvertsTo v) ∧
    (∀ a b : Number, b.WellFormed → a.ConvertsTo b →
      a.toRat ≠ b.toRat ∧ ∃ n : Int, a = .integer n ∧ 2 ^ 53 < n.natAbs) ∧
    ∀ w : Number, w.WellFormed → (equals (.number v)).compile.Accepts (.number x) →
      (equals (.number x)).compile.Accepts (.number w) →
      ((equals (.number v)).compile.Accepts (.number w) ↔ ¬ v.Merged w) ∧
      (v.Merged w → ∃ y, x = .float y) := by
  simp only [accepts_compile, test, Json.meets]
  refine ⟨Number.same_iff_toRat hv hx, ?_, ?_⟩
  · intro a b hb h
    exact ⟨h.toRat_ne hb, h.large⟩
  · intro w hw hvx hxw
    exact ⟨Number.same_trans_iff hv hx hw hvx hxw, Number.exists_float_of_merged hx hw hvx hxw⟩

/-- 2^64 as a float is equal to both of the greatest whole numbers. -/
theorem greatest_by_value :
    (Number.integer (2 ^ 64 - 1)).WellFormed ∧ (Number.float (.ofInt (2 ^ 64))).WellFormed ∧
    (Number.integer (2 ^ 64 - 2)).WellFormed ∧
    (equals (Number.ofInt (2 ^ 64 - 1))).compile.Accepts (.number (.float (.ofInt (2 ^ 64)))) ∧
    (equals (.number (.float (.ofInt (2 ^ 64))))).compile.Accepts (Number.ofInt (2 ^ 64 - 2)) ∧
    ¬ (equals (Number.ofInt (2 ^ 64 - 1))).compile.Accepts (Number.ofInt (2 ^ 64 - 2)) := by
  have hv : (Number.integer (2 ^ 64 - 1)).WellFormed := by decide
  have hx : (Number.float (.ofInt (2 ^ 64))).WellFormed := Double.ofInt_isFinite (by decide)
  have hw : (Number.integer (2 ^ 64 - 2)).WellFormed := by decide
  have hgreatest : (Number.integer (2 ^ 64 - 1)).ConvertsTo (.float (.ofInt (2 ^ 64))) :=
    Number.convertsTo_of_units (by decide +kernel) (by decide +kernel)
  have hsecond : (Number.integer (2 ^ 64 - 2)).ConvertsTo (.float (.ofInt (2 ^ 64))) :=
    Number.convertsTo_of_units (by decide +kernel) (by decide +kernel)
  have hmerged : (Number.integer (2 ^ 64 - 1)).Merged (.integer (2 ^ 64 - 2)) :=
    ⟨_, _, rfl, rfl, by decide, by decide +kernel⟩
  obtain ⟨hiff, -, htrans⟩ := equals_by_value hv hx
  have hleft := hiff.mpr (.inr (.inl hgreatest))
  have hright := (equals_by_value hx hw).1.mpr (.inr (.inr hsecond))
  refine ⟨hv, hx, hw, hleft, hright, ?_⟩
  intro h
  exact (htrans _ hw hleft hright).1.mp h hmerged

/-- 2^53 + 1 is no double. The comparison with it accepts the float 2^53, and the comparison with
this accepts 2^53, which the first one does not. -/
theorem beyond_limit_not_by_value :
    (Number.integer (2 ^ 53 + 1)).WellFormed ∧ (Number.float (.ofInt (2 ^ 53))).WellFormed ∧
    (equals (Number.ofInt (2 ^ 53 + 1))).compile.Accepts (.number (.float (.ofInt (2 ^ 53)))) ∧
    (Number.integer (2 ^ 53 + 1)).toRat ≠ (Number.float (.ofInt (2 ^ 53))).toRat ∧
    (equals (.number (.float (.ofInt (2 ^ 53))))).compile.Accepts (Number.ofInt (2 ^ 53)) ∧
    ¬ (equals (Number.ofInt (2 ^ 53 + 1))).compile.Accepts (Number.ofInt (2 ^ 53)) := by
  have hx : (Number.float (.ofInt (2 ^ 53))).WellFormed := Double.ofInt_isFinite (by decide)
  have hconverts : (Number.integer (2 ^ 53 + 1)).ConvertsTo (.float (.ofInt (2 ^ 53))) :=
    Number.convertsTo_of_units (by decide +kernel) (by decide +kernel)
  simp only [accepts_compile]
  refine ⟨by decide, hx, by decide +kernel, hconverts.toRat_ne hx, by decide +kernel, ?_⟩
  decide +kernel

end Condition

end FirstMatch
