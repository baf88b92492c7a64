import FirstMatch.Json.Numeral
import FirstMatch.Proofs.Double.Equality
import FirstMatch.Proofs.Double.Shortest

/-!
No numeral is read as an infinite number or as NaN: what is not larger than the largest finite
value rounds to a finite value, and division by a power of ten makes nothing larger.
-/

namespace FirstMatch

theorem roundDiv_le {num den q : Nat} (hd : 0 < den) (h : num ≤ q * den) :
    roundDiv num den ≤ q := by
  have hq : num / den ≤ q := Nat.div_le_of_le_mul (by rwa [Nat.mul_comm])
  unfold roundDiv
  rcases Nat.lt_or_eq_of_le hq with hlt | heq
  · simp only
    split
    · exact hq
    · split <;> omega
  · have hr : num % den = 0 := by
      have hm := Nat.div_add_mod num den
      rw [heq, Nat.mul_comm den q] at hm
      omega
    simp only [hr, Nat.mul_zero, hd, if_true]
    exact hq

namespace Magnitude

theorem excess_le {n k : Nat} (h : n < 2 ^ (53 + k)) : excess n ≤ k := by
  unfold excess
  by_cases hn : n = 0
  · rw [hn, Nat.log2_zero]
    omega
  · have hlog := (Nat.log2_lt hn).mpr h
    omega

/-- What is at most the greatest value with some exponent is rounded to a value with no greater
exponent. -/
theorem round?_of_le {num den k : Nat} (hd : 0 < den) (hk : k ≤ 2045)
    (h : num ≤ (2 ^ 53 - 1) * 2 ^ k * den) :
    ∃ m, round? num den = some m ∧ m.exponent ≤ k := by
  have hdiv : num / den < 2 ^ (53 + k) := by
    calc num / den ≤ (2 ^ 53 - 1) * 2 ^ k := Nat.div_le_of_le_mul (by rwa [Nat.mul_comm])
      _ < 2 ^ 53 * 2 ^ k := Nat.mul_lt_mul_of_pos_right (by decide) (Nat.two_pow_pos _)
      _ = 2 ^ (53 + k) := (Nat.pow_add 2 53 k).symm
  have he : excess (num / den) ≤ k := excess_le hdiv
  simp only [round?]
  by_cases hm : roundDiv num (den * 2 ^ excess (num / den)) < 2 ^ 53
  · rw [dif_pos hm, ofParts?, dif_pos (Nat.le_trans he hk)]
    exact ⟨_, rfl, he⟩
  · have hlt : excess (num / den) < k := by
      rcases Nat.lt_or_eq_of_le he with hlt | heq
      · exact hlt
      · -- With this exponent the significand cannot round up to 2^53.
        have hnum : num ≤ (2 ^ 53 - 1) * (den * 2 ^ excess (num / den)) := by
          rw [heq, Nat.mul_comm den, ← Nat.mul_assoc]
          exact h
        have hle := roundDiv_le (Nat.mul_pos hd (Nat.two_pow_pos _)) hnum
        omega
    rw [dif_neg hm, ofParts?, dif_pos (by omega)]
    exact ⟨_, rfl, hlt⟩

theorem le_log2 {n p : Nat} (h : 2 ^ p ≤ n) : p ≤ n.log2 := by
  have hn : n ≠ 0 := by
    have := Nat.two_pow_pos p
    omega
  exact (Nat.le_log2 hn).mpr h

theorem le_units_of_round? {num den p : Nat} {m : Magnitude} (h : round? num den = some m)
    (hp : 2 ^ p ≤ num / den) : 2 ^ p ≤ m.units := by
  have hlog : p ≤ 52 + excess (num / den) := by
    have := le_log2 hp
    unfold excess
    omega
  have hpow : 2 ^ p ≤ 2 ^ 52 * 2 ^ excess (num / den) := by
    rw [← Nat.pow_add]
    exact Nat.pow_le_pow_right (by decide) hlog
  simp only [round?] at h
  split at h
  · simp only [ofParts?] at h
    split at h
    · obtain rfl := Option.some.inj h
      simp only [units]
      have hfloor := div_le_roundDiv num (den * 2 ^ excess (num / den))
      by_cases he : excess (num / den) = 0
      · simp only [he, Nat.pow_zero, Nat.mul_one] at hfloor ⊢
        omega
      · rw [← Nat.div_div_eq_div_mul] at hfloor
        have hbits := Nat.le_trans (le_div_two_pow_excess he) hfloor
        exact Nat.le_trans hpow (Nat.mul_le_mul_right _ hbits)
    · cases h
  -- the significand is rounded up to a power of two
  · simp only [ofParts?] at h
    split at h
    · obtain rfl := Option.some.inj h
      simp only [units]
      rw [Nat.pow_succ]
      omega
    · cases h

theorem units_le (m : Magnitude) : m.units ≤ (2 ^ 53 - 1) * 2 ^ m.exponent :=
  Nat.mul_le_mul_right _ (Nat.le_pred_of_lt m.significand_lt)

theorem units_le_of_exponent {m : Magnitude} {a e : Nat} (h : m.exponent ≤ a + e) :
    m.units ≤ 2 ^ (53 + a) * 2 ^ e := by
  rw [← Nat.pow_add, Nat.add_assoc, Nat.pow_add]
  exact Nat.mul_le_mul (Nat.le_of_lt m.significand_lt) (Nat.pow_le_pow_right Nat.two_pos h)

/-- A bound in whole numbers carries over to units of any power of two. -/
theorem shift_le {n c a : Nat} (h : n ≤ c * 2 ^ a) (e : Nat) : n * 2 ^ e ≤ c * 2 ^ (a + e) := by
  rw [Nat.pow_add, ← Nat.mul_assoc]
  exact Nat.mul_le_mul_right _ h

theorem mul_two_pow_le {n c a : Nat} (h : n ≤ c * 2 ^ a) (e : Nat) :
    n * 2 ^ e ≤ c * 2 ^ (a + e) * 1 := by
  rw [Nat.mul_one]
  exact shift_le h e

theorem isZero_of_units_pos {m : Magnitude} (h : 0 < m.units) : m.isZero = false := by
  by_cases hz : m.isZero = true
  · rw [isZero_iff.mp hz, units_zero] at h
    omega
  · simpa using hz

theorem one_le_units_of_round? {num den : Nat} {m : Magnitude} (h : round? num den = some m)
    (hone : one ≤ num / den) : one ≤ m.units := by
  unfold one at hone ⊢
  exact @le_units_of_round? num den 1074 m h hone

end Magnitude

namespace Double

open Magnitude

theorem round_of_some {negative : Bool} {num den : Nat} {m : Magnitude}
    (h : round? num den = some m) : round negative num den = .finite negative m := by
  unfold round
  rw [h]

theorem round_isFinite {negative : Bool} {num den k : Nat} (hd : 0 < den) (hk : k ≤ 2045)
    (h : num ≤ (2 ^ 53 - 1) * 2 ^ k * den) : (round negative num den).isFinite = true := by
  obtain ⟨m, hm, -⟩ := round?_of_le hd hk h
  rw [round_of_some hm]
  rfl

theorem round_one_isFinite {negative : Bool} {n : Nat} (h : n ≤ 2 ^ 64) :
    (round negative (n * one) 1).isFinite = true := by
  have hbits : n ≤ (2 ^ 53 - 1) * 2 ^ 64 := Nat.le_trans h (by decide)
  have hle := mul_two_pow_le hbits 1074
  rw [← one] at hle
  exact round_isFinite Nat.one_pos (by decide) hle

theorem ofNat_isFinite {n : Nat} (h : n ≤ 2 ^ 64) : (ofNat n).isFinite = true := by
  rw [ofNat]
  exact round_one_isFinite h

theorem ofInt_isFinite {n : Int} (h : n.natAbs ≤ 2 ^ 64) : (ofInt n).isFinite = true := by
  rw [ofInt]
  exact round_one_isFinite h

theorem isFinite_iff {x : Double} : x.isFinite = true ↔ ∃ negative m, x = .finite negative m := by
  cases x <;> simp [isFinite]

theorem negate_isFinite {x : Double} (h : x.isFinite = true) : x.negate.isFinite = true := by
  obtain ⟨negative, m, rfl⟩ := isFinite_iff.mp h
  rfl

theorem mul_isFinite {x y : Double} (hx : x.isFinite = true) (hy : y.isFinite = true)
    (h : (x.mul y).isInfinite = false) : (x.mul y).isFinite = true := by
  obtain ⟨s, m, rfl⟩ := isFinite_iff.mp hx
  obtain ⟨t, n, rfl⟩ := isFinite_iff.mp hy
  rw [mul] at h ⊢
  cases hr : round? (m.units * n.units) one with
  | some k =>
    rw [round_of_some hr]
    rfl
  | none =>
    unfold round at h
    rw [hr] at h
    cases h

/-- Division by one or more makes nothing larger. -/
theorem div_isFinite {x : Double} {negative : Bool} {n : Magnitude} (hx : x.isFinite = true)
    (hn : one ≤ n.units) : (x.div (.finite negative n)).isFinite = true := by
  obtain ⟨s, m, rfl⟩ := isFinite_iff.mp hx
  have hone := one_pos
  have hz : n.isZero = false := isZero_of_units_pos (Nat.lt_of_lt_of_le hone hn)
  have hle : m.units * one ≤ (2 ^ 53 - 1) * 2 ^ m.exponent * n.units :=
    Nat.mul_le_mul m.units_le hn
  simp only [div, hz, Bool.false_eq_true, if_false]
  exact round_isFinite (Nat.lt_of_lt_of_le hone hn) m.exponent_le hle

theorem ten_pow_le : 10 ^ 308 ≤ (2 ^ 53 - 1) * 2 ^ 971 := by
  decide +kernel

/-- The powers of ten that a float reaches are finite, and none is less than one. -/
theorem tenTo_finite {k : Nat} (hk : k ≤ 308) :
    ∃ m, tenTo k = .finite false m ∧ one ≤ m.units := by
  have hten : 10 ^ k ≤ (2 ^ 53 - 1) * 2 ^ 971 :=
    Nat.le_trans (Nat.pow_le_pow_right (by decide) hk) ten_pow_le
  have hle := mul_two_pow_le hten 1074
  rw [← one] at hle
  obtain ⟨m, hm, -⟩ := round?_of_le Nat.one_pos (by decide) hle
  refine ⟨m, ?_, one_le_units_of_round? hm ?_⟩
  · rw [tenTo, ofNat]
    exact round_of_some hm
  · rw [Nat.div_one]
    exact Nat.le_mul_of_pos_left _ (Nat.pow_pos (by decide))

theorem div_tenTo_isFinite {x : Double} (hx : x.isFinite = true) {k : Nat} (hk : k ≤ 308) :
    (x.div (tenTo k)).isFinite = true := by
  obtain ⟨m, hm, hone⟩ := tenTo_finite hk
  rw [hm]
  exact div_isFinite hx hone

theorem shrink_isFinite {x : Double} (hx : x.isFinite = true) {fuel k : Nat}
    (hf : k ≤ 308 * (fuel + 1)) : (shrink fuel x k).isFinite = true := by
  induction fuel generalizing x k with
  | zero => exact div_tenTo_isFinite hx (by omega)
  | succ fuel ih =>
    rw [shrink]
    by_cases hk : k ≤ 308
    · rw [if_pos hk]
      exact div_tenTo_isFinite hx hk
    · rw [if_neg hk]
      by_cases hz : x.isZero = true
      · rw [if_pos hz]
        exact hx
      · rw [if_neg hz]
        exact ih (div_tenTo_isFinite hx (Nat.le_refl _)) (by omega)

theorem scale?_isFinite {x y : Double} {e : Int} (hx : x.isFinite = true)
    (h : scale? x e = some y) : y.isFinite = true := by
  cases e with
  | ofNat k =>
    simp only [scale?] at h
    by_cases hk : k ≤ 308
    · obtain ⟨m, hm, _⟩ := tenTo_finite hk
      rw [if_pos hk, hm] at h
      by_cases hi : (x.mul (.finite false m)).isInfinite = true
      · rw [if_pos hi] at h
        cases h
      · rw [if_neg hi] at h
        obtain rfl := Option.some.inj h
        exact mul_isFinite hx rfl (by simpa using hi)
    · rw [if_neg hk] at h
      by_cases hz : x.isZero = true
      · rw [if_pos hz] at h
        obtain rfl := Option.some.inj h
        exact hx
      · rw [if_neg hz] at h
        cases h
  | negSucc k =>
    simp only [scale?] at h
    obtain rfl := Option.some.inj h
    exact shrink_isFinite hx (by omega)

end Double

namespace Numeral

theorem gather_lt (digits : List Char) {s : Nat} (h : s < 2 ^ 64) :
    (gather s digits).1 < 2 ^ 64 := by
  induction digits generalizing s with
  | nil => exact h
  | cons c digits ih =>
    simp only [gather]
    split
    · rename_i ht
      exact ih ht
    · exact h

theorem scientific_lt (n : Numeral) : n.scientific.1 < 2 ^ 64 :=
  gather_lt _ (gather_lt _ (by decide))

theorem float?_isFinite {n : Numeral} {x : Double} (h : n.float? = some x) :
    x.isFinite = true := by
  simp only [float?] at h
  obtain ⟨y, hy, rfl⟩ := Option.map_eq_some_iff.mp h
  have hs : (Double.ofNat n.scientific.1).isFinite = true :=
    Double.ofNat_isFinite (Nat.le_of_lt n.scientific_lt)
  have hfinite : y.isFinite = true := Double.scale?_isFinite hs hy
  by_cases hn : n.negative = true
  · rw [if_pos hn]
    exact Double.negate_isFinite hfinite
  · rw [if_neg hn]
    exact hfinite

theorem integer?_wellFormed {n : Numeral} {k : Int} (h : n.integer? = some k) :
    -2 ^ 63 ≤ k ∧ k < 2 ^ 64 := by
  unfold integer? at h
  split at h
  · simp only at h
    split at h
    · split at h
      · obtain rfl := Option.some.inj h
        omega
      · cases h
    · split at h
      · obtain rfl := Option.some.inj h
        omega
      · cases h
  · cases h

theorem value?_wellFormed {n : Numeral} {k : Number} (h : n.value? = some k) : k.WellFormed := by
  unfold value? at h
  cases hi : n.integer? with
  | some i =>
    rw [hi] at h
    obtain rfl := Option.some.inj h
    exact integer?_wellFormed hi
  | none =>
    rw [hi] at h
    obtain ⟨x, hx, rfl⟩ := Option.map_eq_some_iff.mp h
    exact float?_isFinite hx

end Numeral

end FirstMatch
