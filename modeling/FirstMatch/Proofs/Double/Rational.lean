import FirstMatch.Proofs.Double.Whole
import Mathlib.Data.Rat.Cast.Order

/-!
The value of a finite double as a fraction. Equality and order of finite doubles are equality and
order of their values, and whole doubles are those with a whole value.
-/

namespace FirstMatch

namespace Double

variable {x y : Double}

theorem less_iff (hx : x.isFinite = true) (hy : y.isFinite = true) :
    x.less y = true ↔ x.units < y.units := by
  obtain ⟨s, m, rfl⟩ := isFinite_iff.mp hx
  obtain ⟨t, n, rfl⟩ := isFinite_iff.mp hy
  exact decide_eq_true_iff

theorem equal_iff (hx : x.isFinite = true) (hy : y.isFinite = true) :
    x.equal y = true ↔ x.units = y.units := by
  obtain ⟨s, m, rfl⟩ := isFinite_iff.mp hx
  obtain ⟨t, n, rfl⟩ := isFinite_iff.mp hy
  exact beq_iff_eq

theorem atMost_iff (hx : x.isFinite = true) (hy : y.isFinite = true) :
    x.atMost y = true ↔ x.units ≤ y.units := by
  rw [atMost, Bool.or_eq_true, less_iff hx hy, equal_iff hx hy]
  exact Int.le_iff_lt_or_eq.symm

/-- The value of a finite double. -/
def toRat (x : Double) : ℚ := x.units / Magnitude.one

theorem one_ne_zero : (Magnitude.one : ℚ) ≠ 0 :=
  Nat.cast_ne_zero.mpr (Nat.ne_of_gt Magnitude.one_pos)

theorem one_cast_pos : (0 : ℚ) < Magnitude.one := Nat.cast_pos.mpr Magnitude.one_pos

theorem toRat_eq_iff : x.toRat = y.toRat ↔ x.units = y.units := by
  rw [toRat, toRat, div_left_inj' one_ne_zero, Int.cast_inj]

theorem toRat_lt_iff : x.toRat < y.toRat ↔ x.units < y.units := by
  rw [toRat, toRat, div_lt_div_iff_of_pos_right one_cast_pos, Int.cast_lt]

theorem toRat_le_iff : x.toRat ≤ y.toRat ↔ x.units ≤ y.units := by
  rw [toRat, toRat, div_le_div_iff_of_pos_right one_cast_pos, Int.cast_le]

theorem toRat_eq_intCast_iff (hx : x.isFinite = true) {n : Int} : x.toRat = n ↔ x.IsWhole n := by
  have hunits : x.toRat = n ↔ x.units = n * Magnitude.one := by
    rw [toRat, div_eq_iff one_ne_zero, ← Int.cast_natCast, ← Int.cast_mul, Int.cast_inj]
  rw [hunits]
  constructor
  · intro h
    exact ⟨hx, h⟩
  · intro h
    exact h.units

theorem isWhole_iff {n : Int} : x.IsWhole n ↔ x.isFinite = true ∧ x.toRat = n := by
  constructor
  · intro h
    exact ⟨h.finite, (toRat_eq_intCast_iff h.finite).mpr h⟩
  · rintro ⟨hx, h⟩
    exact (toRat_eq_intCast_iff hx).mp h

end Double

end FirstMatch
