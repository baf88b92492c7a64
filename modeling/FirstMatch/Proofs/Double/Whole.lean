import FirstMatch.Json.Basic
import FirstMatch.Proofs.Double.Nearest

/-!
Doubles that are whole numbers. Whole numbers of 53 bits are doubles, and every whole number that
is a double is converted to it.
-/

namespace FirstMatch

def FitsSigned (n : Int) : Prop := -2 ^ 63 ≤ n ∧ n < 2 ^ 63

instance (n : Int) : Decidable (FitsSigned n) :=
  inferInstanceAs (Decidable (-2 ^ 63 ≤ n ∧ n < 2 ^ 63))

theorem ite_eq_some_iff {p : Int → Prop} [DecidablePred p] {n k : Int} :
    (if p n then some n else none) = some k ↔ n = k ∧ p k := by
  rw [Option.ite_none_right_eq_some, Option.some.injEq]
  constructor
  · rintro ⟨hfits, rfl⟩
    exact ⟨rfl, hfits⟩
  · rintro ⟨rfl, hfits⟩
    exact ⟨hfits, rfl⟩

theorem fitSigned?_eq_some_iff {n k : Int} : fitSigned? n = some k ↔ n = k ∧ FitsSigned k :=
  ite_eq_some_iff (p := fun n => -2 ^ 63 ≤ n ∧ n < 2 ^ 63)

theorem fitUnsigned?_eq_some_iff {n k : Int} :
    fitUnsigned? n = some k ↔ n = k ∧ 0 ≤ k ∧ k < 2 ^ 64 :=
  ite_eq_some_iff (p := fun n => 0 ≤ n ∧ n < 2 ^ 64)

namespace Double

/-- Finite, and this whole number. -/
structure IsWhole (x : Double) (k : Int) : Prop where
  finite : x.isFinite = true
  units : x.units = k * Magnitude.one

theorem natAbs_signed (negative : Bool) (n : Nat) : (signed negative n).natAbs = n := by
  unfold signed
  split
  · rw [Int.natAbs_neg, Int.natAbs_natCast]
  · rw [Int.natAbs_natCast]

theorem signed_mul (negative : Bool) (n c : Nat) :
    signed negative (n * c) = signed negative n * c := by
  unfold signed
  split
  · rw [Int.natCast_mul, Int.neg_mul]
  · rw [Int.natCast_mul]

theorem one_cast_ne_zero : (Magnitude.one : Int) ≠ 0 :=
  Int.natCast_ne_zero.mpr (Nat.ne_of_gt Magnitude.one_pos)

theorem IsWhole.unique {x : Double} {j k : Int} (hj : x.IsWhole j) (hk : x.IsWhole k) : j = k :=
  Int.eq_of_mul_eq_mul_right one_cast_ne_zero (hj.units.symm.trans hk.units)

theorem isWhole_finite_iff {negative : Bool} {m : Magnitude} {k : Int} :
    (finite negative m).IsWhole k ↔
      m.units % Magnitude.one = 0 ∧ signed negative (m.units / Magnitude.one) = k := by
  constructor
  · rintro ⟨-, h⟩
    have habs : m.units = k.natAbs * Magnitude.one := by
      have hunits := congrArg Int.natAbs h
      rwa [units, natAbs_signed, Int.natAbs_mul, Int.natAbs_natCast] at hunits
    refine ⟨by rw [habs, Nat.mul_mod_left], ?_⟩
    apply Int.eq_of_mul_eq_mul_right one_cast_ne_zero
    rw [← signed_mul, habs, Nat.mul_div_cancel _ Magnitude.one_pos, ← habs]
    exact h
  · rintro ⟨hmod, rfl⟩
    refine ⟨rfl, ?_⟩
    rw [← signed_mul, Nat.div_mul_cancel (Nat.dvd_of_mod_eq_zero hmod)]
    rfl

theorem signed_natAbs (n : Int) : signed (n < 0) n.natAbs = n := by
  by_cases hn : n < 0
  · simp only [signed, hn, decide_true, if_true]
    omega
  · simp only [signed, hn, decide_false, Bool.false_eq_true, if_false]
    omega

/-- Whole numbers of 53 bits are doubles. -/
theorem isWhole_ofInt {n : Int} (h : n.natAbs < 2 ^ 53) : (ofInt n).IsWhole n := by
  obtain ⟨m, hm, hunits⟩ := @Magnitude.round?_exact n.natAbs 1074 h (by decide)
  rw [← Magnitude.one] at hm hunits
  rw [ofInt, round_of_some hm]
  constructor
  · rfl
  · rw [units, hunits, signed_mul, signed_natAbs]

theorem ofInt_eq_finite {n : Int} (h : n.natAbs ≤ 2 ^ 64) :
    ∃ m, ofInt n = .finite (n < 0) m ∧ m.units ≤ 2 ^ 65 * Magnitude.one := by
  have hbits : n.natAbs ≤ (2 ^ 53 - 1) * 2 ^ 12 := Nat.le_trans h (by decide)
  have hle := Magnitude.mul_two_pow_le hbits 1074
  rw [← Magnitude.one] at hle
  obtain ⟨m, hm, hexponent⟩ := Magnitude.round?_of_le Nat.one_pos (by decide) hle
  refine ⟨m, round_of_some hm, ?_⟩
  have hunits := Magnitude.units_le_of_exponent hexponent
  simp only [Nat.reduceAdd] at hunits
  rw [← Magnitude.one] at hunits
  exact hunits

theorem IsWhole.eq_finite {x : Double} {k : Int} (h : x.IsWhole k) :
    ∃ negative m, x = .finite negative m ∧ m.units = k.natAbs * Magnitude.one := by
  obtain ⟨negative, m, rfl⟩ := isFinite_iff.mp h.finite
  have hunits := congrArg Int.natAbs h.units
  rw [Double.units, natAbs_signed, Int.natAbs_mul, Int.natAbs_natCast] at hunits
  exact ⟨negative, m, rfl, hunits⟩

/-- A whole number that is a double is converted to that double. -/
theorem IsWhole.converted {x : Double} {k : Int} (h : x.IsWhole k) : (ofInt k).IsWhole k := by
  obtain ⟨negative, m, rfl, hm⟩ := h.eq_finite
  have hround := Magnitude.round?_units m
  rw [hm] at hround
  rw [ofInt, round_of_some hround]
  constructor
  · rfl
  · rw [Double.units, hm, signed_mul, signed_natAbs]

theorem ofInt_mul_isFinite {n k : Int} {x : Double} (hn : n.natAbs ≤ 2 ^ 64) (hx : x.IsWhole k)
    (hk : k.natAbs ≤ 2 ^ 65) : ((ofInt n).mul x).isFinite = true := by
  obtain ⟨m, hm, hle⟩ := ofInt_eq_finite hn
  obtain ⟨negative, q, rfl, hq⟩ := hx.eq_finite
  have hbits : 2 ^ 65 * k.natAbs ≤ (2 ^ 53 - 1) * 2 ^ 78 :=
    Nat.le_trans (Nat.mul_le_mul_left _ hk) (by decide)
  have hbound := Magnitude.shift_le hbits 1074
  rw [← Magnitude.one] at hbound
  have hproduct : m.units * q.units ≤ 2 ^ 65 * k.natAbs * Magnitude.one * Magnitude.one := by
    calc m.units * q.units ≤ 2 ^ 65 * Magnitude.one * (k.natAbs * Magnitude.one) := by
          rw [hq]
          exact Nat.mul_le_mul_right _ hle
      _ = 2 ^ 65 * k.natAbs * Magnitude.one * Magnitude.one := by
          rw [Nat.mul_mul_mul_comm, ← Nat.mul_assoc]
  rw [hm, mul]
  exact round_isFinite Magnitude.one_pos (by decide)
    (Nat.le_trans hproduct (Nat.mul_le_mul_right _ hbound))

theorem ofInt_add_isFinite {n k : Int} {x : Double} (hn : n.natAbs ≤ 2 ^ 64) (hx : x.IsWhole k)
    (hk : k.natAbs ≤ 2 ^ 65) : ((ofInt n).add x).isFinite = true := by
  obtain ⟨m, hm, hle⟩ := ofInt_eq_finite hn
  obtain ⟨negative, q, rfl, hq⟩ := hx.eq_finite
  have hbits : 2 ^ 65 + k.natAbs ≤ (2 ^ 53 - 1) * 2 ^ 14 :=
    Nat.le_trans (Nat.add_le_add_left hk _) (by decide)
  have hbound := Magnitude.mul_two_pow_le hbits 1074
  rw [← Magnitude.one, Nat.add_mul] at hbound
  have hsum := Int.natAbs_add_le (signed (n < 0) m.units) (signed negative q.units)
  rw [natAbs_signed, natAbs_signed, hq] at hsum
  rw [hm, add, hq]
  split
  · rfl
  · exact round_isFinite Nat.one_pos (by decide)
      (Nat.le_trans hsum (Nat.le_trans (Nat.add_le_add_right hle _) hbound))

end Double

end FirstMatch
