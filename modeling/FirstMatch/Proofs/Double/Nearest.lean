import FirstMatch.Proofs.Double.Finite

/-!
Rounding and printing meet here: what lies in the interval around a value rounds to it, and so
does its shortest decimal. Whole numbers of 53 bits and the powers of ten up to 10^22 are values
themselves, so that a product or a quotient of them is rounded only once.
-/

namespace FirstMatch

/-- The whole number that is less than half away, or half away and even. -/
theorem roundDiv_eq {num den s : Nat} (hd : 0 < den) (hlo : 2 * (s * den) ≤ 2 * num + den)
    (hhi : 2 * num ≤ 2 * (s * den) + den)
    (hodd : s % 2 = 1 → 2 * (s * den) < 2 * num + den ∧ 2 * num < 2 * (s * den) + den) :
    roundDiv num den = s := by
  have hr := Nat.mod_lt num hd
  have hdiv := Nat.div_add_mod num den
  rw [Nat.mul_comm] at hdiv
  -- only the two whole numbers around the quotient are left
  have hfloor : s = num / den ∨ s = num / den + 1 := by
    have hle : num / den ≤ s := by
      apply Nat.le_of_lt_succ
      apply Nat.lt_of_mul_lt_mul_right (a := den)
      rw [Nat.succ_mul]
      omega
    have hge : s ≤ num / den + 1 := by
      apply Nat.le_of_lt_succ
      apply Nat.lt_of_mul_lt_mul_right (a := den)
      rw [Nat.succ_mul, Nat.succ_mul]
      omega
    omega
  unfold roundDiv
  simp only
  rcases hfloor with hs | hs
  · rw [← hs] at hdiv ⊢
    split
    · rfl
    · split <;> omega
  · have hs' : s * den = num / den * den + den := by rw [hs, Nat.succ_mul]
    split
    · omega
    · split <;> omega

theorem roundDiv_mul (s : Nat) {den : Nat} (hd : 0 < den) : roundDiv (s * den) den = s := by
  apply roundDiv_eq hd
  · omega
  · omega
  · intro _
    constructor <;> omega

theorem roundDiv_mul_mul (num den : Nat) {c : Nat} (hc : 0 < c) :
    roundDiv (num * c) (den * c) = roundDiv num den := by
  simp only [roundDiv, Nat.mul_div_mul_right _ _ hc, Nat.mul_mod_mul_right, ← Nat.mul_assoc,
    Nat.mul_lt_mul_right hc]

namespace Magnitude

theorem excess_eq {n k : Nat} (hlo : 2 ^ (52 + k) ≤ n) (hhi : n < 2 ^ (53 + k)) :
    excess n = k := by
  have hle := excess_le hhi
  have hlog := le_log2 hlo
  unfold excess at hle ⊢
  omega

theorem two_pow_add_mul (a k c : Nat) : 2 ^ (a + k) * c = 2 ^ a * (2 ^ k * c) := by
  rw [Nat.pow_add, Nat.mul_assoc]

theorem round?_of_excess {num den s e : Nat} (he : excess (num / den) = e)
    (hs : roundDiv num (den * 2 ^ e) = s) {m : Magnitude} (hm : s = m.significand)
    (hme : e = m.exponent) : round? num den = some m := by
  subst hme hm
  have hlt := m.significand_lt
  simp only [round?, he, hs, hlt, dite_true, ofParts?, m.exponent_le]

/-- A significand that is rounded up to 2^53 goes on with the next exponent. -/
theorem round?_of_carry {num den k : Nat} (he : excess (num / den) = k)
    (hs : roundDiv num (den * 2 ^ k) = 2 ^ 53) {m : Magnitude} (hm : m.significand = 2 ^ 52)
    (hme : m.exponent = k + 1) : round? num den = some m := by
  obtain ⟨s, e, hlt, hle, hn⟩ := m
  subst hm hme
  simp only [round?, he, hs, Nat.lt_irrefl, dite_false, ofParts?, hle, dite_true]

theorem reach_mul_le (m : Magnitude) (k : Nat) : m.reach * k ≤ 2 * k := by
  apply Nat.mul_le_mul_right
  rcases m.reach_cases with hr | ⟨hr, _, _⟩
  · exact Nat.le_of_eq hr
  · exact Nat.le_of_lt (Nat.lt_of_le_of_lt (Nat.le_of_eq hr) Nat.one_lt_two)

theorem roundDiv_of_between {m : Magnitude} {num den : Nat} (hd : 0 < den)
    (hlo : m.lower * den ≤ 4 * num) (hhi : 4 * num ≤ m.upper * den)
    (hodd : m.significand % 2 = 1 → m.lower * den < 4 * num ∧ 4 * num < m.upper * den) :
    roundDiv num (den * 2 ^ m.exponent) = m.significand := by
  rw [Nat.mul_comm den]
  rw [m.lower_mul] at hlo hodd
  rw [m.upper_mul] at hhi hodd
  have hreach := m.reach_mul_le (2 ^ m.exponent * den)
  apply roundDiv_eq (Nat.mul_pos (Nat.two_pow_pos _) hd)
  · omega
  · omega
  · intro hs
    obtain ⟨hlo', hhi'⟩ := hodd hs
    constructor <;> omega

theorem lt_of_between {m : Magnitude} {num den : Nat} (hd : 0 < den)
    (hhi : 4 * num ≤ m.upper * den) : num < 2 ^ (53 + m.exponent) * den := by
  rw [m.upper_mul] at hhi
  rw [two_pow_add_mul]
  have hsig : m.significand * (2 ^ m.exponent * den) ≤ (2 ^ 53 - 1) * (2 ^ m.exponent * den) :=
    Nat.mul_le_mul_right _ (Nat.le_pred_of_lt m.significand_lt)
  have hpos : 0 < 2 ^ m.exponent * den := Nat.mul_pos (Nat.two_pow_pos _) hd
  omega

/-- What lies in the interval around a value but has a smaller exponent lies below a power of
two. -/
theorem power_of_below {m : Magnitude} {num den : Nat} (hlo : m.lower * den ≤ 4 * num)
    (hne : m.exponent ≠ 0) (hb : num < 2 ^ (52 + m.exponent) * den) :
    m.significand = 2 ^ 52 ∧ m.reach = 1 := by
  have hnormal : 2 ^ 52 ≤ m.significand := by
    rcases m.normal with h | h
    · exact absurd h hne
    · exact h
  have hs : m.significand = 2 ^ 52 := by
    rw [m.lower_mul] at hlo
    rw [two_pow_add_mul] at hb
    have hreach := m.reach_mul_le (2 ^ m.exponent * den)
    by_cases hlt : m.significand < 2 ^ 52 + 1
    · omega
    · have hsig : (2 ^ 52 + 1) * (2 ^ m.exponent * den) ≤
          m.significand * (2 ^ m.exponent * den) :=
        Nat.mul_le_mul_right _ (Nat.le_of_not_lt hlt)
      omega
  refine ⟨hs, ?_⟩
  unfold reach
  exact if_pos ⟨hs, hne⟩

theorem round?_of_below {m : Magnitude} {num den : Nat} (hd : 0 < den)
    (hlo : m.lower * den ≤ 4 * num) (hne : m.exponent ≠ 0)
    (hb : num < 2 ^ (52 + m.exponent) * den) : round? num den = some m := by
  obtain ⟨hs, hr⟩ := power_of_below hlo hne hb
  obtain ⟨k, hk⟩ : ∃ k, m.exponent = k + 1 := ⟨m.exponent - 1, by omega⟩
  have hw : 2 ^ m.exponent * den = 2 * (2 ^ k * den) := by
    rw [hk, Nat.pow_succ, Nat.mul_comm (2 ^ k), Nat.mul_assoc]
  have hpos : 0 < 2 ^ k * den := Nat.mul_pos (Nat.two_pow_pos _) hd
  rw [m.lower_mul, hr, hs, hw] at hlo
  rw [two_pow_add_mul, hw] at hb
  have he : excess (num / den) = k := by
    apply excess_eq
    · rw [Nat.le_div_iff_mul_le hd, two_pow_add_mul]
      omega
    · apply Nat.div_lt_of_lt_mul
      rw [Nat.mul_comm, two_pow_add_mul]
      omega
  have hround : roundDiv num (den * 2 ^ k) = 2 ^ 53 := by
    rw [Nat.mul_comm den]
    apply roundDiv_eq hpos
    · omega
    · omega
    · intro h
      omega
  exact round?_of_carry he hround hs hk

/-- What lies in the interval around a value rounds to it. -/
theorem round?_of_between {m : Magnitude} {num den : Nat} (hd : 0 < den)
    (hlo : m.lower * den ≤ 4 * num) (hhi : 4 * num ≤ m.upper * den)
    (hodd : m.significand % 2 = 1 → m.lower * den < 4 * num ∧ 4 * num < m.upper * den) :
    round? num den = some m := by
  have hlt := lt_of_between hd hhi
  have hdiv : num / den < 2 ^ (53 + m.exponent) := Nat.div_lt_of_lt_mul (by rwa [Nat.mul_comm])
  have hnearest := roundDiv_of_between hd hlo hhi hodd
  by_cases hz : m.exponent = 0
  · have he : excess (num / den) = m.exponent := by
      have hle := excess_le hdiv
      omega
    exact round?_of_excess he hnearest rfl rfl
  · by_cases hb : num < 2 ^ (52 + m.exponent) * den
    · exact round?_of_below hd hlo hz hb
    · have he : excess (num / den) = m.exponent :=
        excess_eq ((Nat.le_div_iff_mul_le hd).mpr (Nat.le_of_not_lt hb)) hdiv
      exact round?_of_excess he hnearest rfl rfl

theorem round?_of_covers {m : Magnitude} {d : Decimal} (h : m.covers d = true) :
    round? (d.digits * 10 ^ d.exponent.toNat * one) (10 ^ (-d.exponent).toNat) = some m := by
  obtain ⟨hlo, hhi, hodd⟩ := covers_bounds h
  have hnum : (quarters d).1 = 4 * (d.digits * 10 ^ d.exponent.toNat * one) :=
    Nat.mul_left_comm ..
  rw [hnum] at hlo hhi hodd
  exact round?_of_between (Nat.pow_pos (by decide)) hlo hhi hodd

/-! Fractions and whole numbers -/

theorem round?_mul_mul (num den : Nat) {c : Nat} (hc : 0 < c) :
    round? (num * c) (den * c) = round? num den := by
  simp only [round?, Nat.mul_div_mul_right _ _ hc, Nat.mul_right_comm den c,
    roundDiv_mul_mul _ _ hc]

theorem round?_congr {a b c d : Nat} (hb : 0 < b) (hd : 0 < d) (h : a * d = c * b) :
    round? a b = round? c d := by
  rw [← round?_mul_mul a b hd, h, Nat.mul_comm b, round?_mul_mul c d hb]

theorem lt_two_pow_excess (n : Nat) : n < 2 ^ (53 + excess n) := by
  by_cases hn : n = 0
  · rw [hn]
    exact Nat.two_pow_pos _
  · apply (Nat.log2_lt hn).mp
    unfold excess
    omega

theorem round?_exact {n k : Nat} (hn : n < 2 ^ 53) (hk : k ≤ 2045) :
    ∃ m, round? (n * 2 ^ k) 1 = some m ∧ m.units = n * 2 ^ k := by
  have hlt : n * 2 ^ k < 2 ^ (53 + k) := by
    rw [Nat.pow_add]
    exact Nat.mul_lt_mul_of_pos_right hn (Nat.two_pow_pos k)
  obtain ⟨e, he⟩ : ∃ e, excess (n * 2 ^ k) = e := ⟨_, rfl⟩
  have hek : e ≤ k := by
    rw [← he]
    exact excess_le hlt
  have hsplit : n * 2 ^ k = n * 2 ^ (k - e) * 2 ^ e := by
    rw [Nat.mul_assoc, ← Nat.pow_add, Nat.sub_add_cancel hek]
  have hround : roundDiv (n * 2 ^ k) (1 * 2 ^ e) = n * 2 ^ (k - e) := by
    rw [Nat.one_mul, hsplit]
    exact roundDiv_mul _ (Nat.two_pow_pos e)
  have hsig : n * 2 ^ (k - e) < 2 ^ 53 := by
    have hbits := lt_two_pow_excess (n * 2 ^ k)
    rw [he, hsplit, Nat.pow_add] at hbits
    exact Nat.lt_of_mul_lt_mul_right hbits
  have hexp : e ≤ 2045 := Nat.le_trans hek hk
  simp only [round?, Nat.div_one, he, hround, hsig, dite_true, ofParts?, hexp]
  exact ⟨_, rfl, hsplit.symm⟩

theorem round?_units (m : Magnitude) : round? m.units 1 = some m := by
  obtain ⟨n, hn, hunits⟩ := round?_exact m.significand_lt m.exponent_le
  obtain rfl := units_injective hunits
  exact hn

end Magnitude

namespace Double

open Magnitude

theorem ofNat_exact {n : Nat} (hn : n < 2 ^ 53) :
    ∃ m, ofNat n = .finite false m ∧ m.units = n * one := by
  obtain ⟨m, hm, hu⟩ := @round?_exact n 1074 hn (by decide)
  rw [← one] at hm hu
  exact ⟨m, round_of_some hm, hu⟩

theorem ten_pow_mul_two_pow (k a : Nat) : 10 ^ k * 2 ^ a = 5 ^ k * 2 ^ (k + a) := by
  rw [Nat.pow_add, ← Nat.mul_assoc, ← Nat.mul_pow]

theorem tenTo_exact {k : Nat} (hk : k ≤ 22) :
    ∃ m, tenTo k = .finite false m ∧ m.units = 10 ^ k * one := by
  have hfive : 5 ^ k < 2 ^ 53 :=
    Nat.lt_of_le_of_lt (Nat.pow_le_pow_right (by decide) hk) (by decide)
  have hten := @ten_pow_mul_two_pow k 1074
  rw [← one] at hten
  obtain ⟨m, hm, hu⟩ := @round?_exact (5 ^ k) (k + 1074) hfive (by omega)
  rw [← hten] at hm hu
  exact ⟨m, round_of_some hm, hu⟩

theorem mul_of_round? {a b m : Magnitude} (h : round? (a.units * b.units) one = some m) :
    (finite false a).mul (finite false b) = .finite false m := by
  rw [mul, bne_self_eq_false]
  exact round_of_some h

theorem div_of_round? {a b m : Magnitude} (hb : b.isZero = false)
    (h : round? (a.units * one) b.units = some m) :
    (finite false a).div (finite false b) = .finite false m := by
  simp only [div, hb, Bool.false_eq_true, if_false, bne_self_eq_false]
  exact round_of_some h

theorem scale?_exact_mul {s k : Nat} (hs : s < 2 ^ 53) (hk : k ≤ 22) {m : Magnitude}
    (hm : round? (s * 10 ^ k * one) 1 = some m) :
    (ofNat s).scale? k = some (.finite false m) := by
  obtain ⟨a, ha, hau⟩ := ofNat_exact hs
  obtain ⟨t, ht, htu⟩ := tenTo_exact hk
  have hround : round? (a.units * t.units) one = some m := by
    have hunits : a.units * t.units * 1 = s * 10 ^ k * one * one := by
      rw [hau, htu, Nat.mul_one, ← Nat.mul_assoc, Nat.mul_right_comm s]
    rw [round?_congr Magnitude.one_pos Nat.one_pos hunits]
    exact hm
  have hle : k ≤ 308 := by omega
  simp only [scale?, if_pos hle]
  rw [ha, ht, mul_of_round? hround]
  rfl

theorem scale?_exact_div {s k : Nat} (hs : s < 2 ^ 53) (hk : k + 1 ≤ 22) {m : Magnitude}
    (hm : round? (s * one) (10 ^ (k + 1)) = some m) :
    (ofNat s).scale? (Int.negSucc k) = some (.finite false m) := by
  obtain ⟨a, ha, hau⟩ := ofNat_exact hs
  obtain ⟨t, ht, htu⟩ := tenTo_exact hk
  have hpos : 0 < t.units := by
    rw [htu]
    exact Nat.mul_pos (Nat.pow_pos (by decide)) Magnitude.one_pos
  have hz : t.isZero = false := isZero_of_units_pos hpos
  have hround : round? (a.units * one) t.units = some m := by
    have hunits : a.units * one * 10 ^ (k + 1) = s * one * t.units := by
      rw [hau, htu, Nat.mul_right_comm, Nat.mul_assoc (s * one)]
    rw [round?_congr hpos (Nat.pow_pos (by decide)) hunits]
    exact hm
  have hle : k + 1 ≤ 308 := by omega
  rw [scale?, shrink, if_pos hle, ha, ht, div_of_round? hz hround]

/-- A short significand times or divided by a small power of ten is rounded only once. -/
theorem scale?_exact {s : Nat} {e : Int} (hs : s < 2 ^ 53) (hlo : -22 ≤ e) (hhi : e ≤ 22)
    {m : Magnitude} (hm : round? (s * 10 ^ e.toNat * one) (10 ^ (-e).toNat) = some m) :
    (ofNat s).scale? e = some (.finite false m) := by
  cases e with
  | ofNat k =>
    have hz : (-Int.ofNat k).toNat = 0 := Int.toNat_of_nonpos (Int.neg_nonpos_of_nonneg (by simp))
    rw [hz, Nat.pow_zero] at hm
    exact scale?_exact_mul hs (Int.ofNat_le.mp hhi) hm
  | negSucc k =>
    have hz : (Int.negSucc k).toNat = 0 := rfl
    rw [hz, Nat.pow_zero, Nat.mul_one] at hm
    exact scale?_exact_div hs (by omega) hm

end Double

end FirstMatch
