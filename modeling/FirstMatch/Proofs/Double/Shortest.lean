import FirstMatch.Double.Shortest

/-!
The shortest decimal of a value lies in the interval of the decimals that round to it. With
seventeen digits the steps are narrower than the interval, so that the search never comes to its
last resort.
-/

namespace FirstMatch

theorem roundDiv_cases (num den : Nat) :
    roundDiv num den = num / den ∨ roundDiv num den = num / den + 1 := by
  unfold roundDiv
  have hparity : num / den % 2 = 0 ∨ num / den % 2 = 1 := Nat.mod_two_eq_zero_or_one _
  simp only
  split
  · exact .inl rfl
  · split
    · exact .inr rfl
    · omega

namespace Magnitude

theorem significand_pos {m : Magnitude} (h : m.isZero = false) : 0 < m.significand := by
  have hs : m.significand ≠ 0 := by simpa [isZero] using h
  omega

theorem one_pos : 0 < one := by
  unfold one
  exact Nat.two_pow_pos 1074

theorem units_pos {m : Magnitude} (h : m.isZero = false) : 0 < m.units :=
  Nat.mul_pos (significand_pos h) (Nat.two_pow_pos _)

/-! Intervals -/

/-- How far the interval reaches below the value, in quarters of a unit of the last place. -/
def reach (m : Magnitude) : Nat := if m.significand = 2 ^ 52 ∧ m.exponent ≠ 0 then 1 else 2

theorem reach_cases (m : Magnitude) :
    m.reach = 2 ∨ (m.reach = 1 ∧ m.significand = 2 ^ 52 ∧ m.exponent ≠ 0) := by
  unfold reach
  by_cases h : m.significand = 2 ^ 52 ∧ m.exponent ≠ 0
  · right
    rw [if_pos h]
    exact ⟨rfl, h⟩
  · left
    rw [if_neg h]

theorem lower_mul (m : Magnitude) (k : Nat) :
    m.lower * k = 4 * (m.significand * (2 ^ m.exponent * k)) - m.reach * (2 ^ m.exponent * k) := by
  rw [lower, ← reach, Nat.sub_mul, units]
  simp only [Nat.mul_assoc]

theorem upper_mul (m : Magnitude) (k : Nat) :
    m.upper * k = 4 * (m.significand * (2 ^ m.exponent * k)) + 2 * (2 ^ m.exponent * k) := by
  rw [upper, Nat.add_mul, units]
  simp only [Nat.mul_assoc]

theorem covers_bounds {m : Magnitude} {d : Decimal} (h : m.covers d = true) :
    m.lower * (quarters d).2 ≤ (quarters d).1 ∧ (quarters d).1 ≤ m.upper * (quarters d).2 ∧
      (m.significand % 2 = 1 →
        m.lower * (quarters d).2 < (quarters d).1 ∧ (quarters d).1 < m.upper * (quarters d).2) := by
  by_cases hs : m.significand % 2 = 0
  · simp only [covers, if_pos hs, Bool.and_eq_true, decide_eq_true_eq] at h
    refine ⟨h.1, h.2, ?_⟩
    intro hodd
    omega
  · simp only [covers, if_neg hs, Bool.and_eq_true, decide_eq_true_eq] at h
    exact ⟨Nat.le_of_lt h.1, Nat.le_of_lt h.2, fun _ => h⟩

theorem covers_of_lt {m : Magnitude} {d : Decimal}
    (hlo : m.lower * (quarters d).2 < (quarters d).1)
    (hhi : (quarters d).1 < m.upper * (quarters d).2) : m.covers d = true := by
  by_cases hs : m.significand % 2 = 0
  · simp only [covers, if_pos hs, Bool.and_eq_true, decide_eq_true_eq]
    exact ⟨Nat.le_of_lt hlo, Nat.le_of_lt hhi⟩
  · simp only [covers, if_neg hs, Bool.and_eq_true, decide_eq_true_eq]
    exact ⟨hlo, hhi⟩

theorem quarters_steps (m : Magnitude) (q : Nat) (p : Int) :
    quarters ⟨q, p⟩ = (4 * (q * (m.steps p).2), 10 ^ (-p).toNat) := by
  simp only [quarters, steps, Prod.mk.injEq, and_true]
  rw [Nat.mul_left_comm, Nat.mul_assoc, Nat.mul_comm one]

/-- Where a step is at most `10 ^ -16` of the value, one of its two neighbours is in the
interval: the interval is wider than the step. -/
theorem covers_neighbour {m : Magnitude} {p : Int}
    (hp : 10 ^ 16 * (m.steps p).2 ≤ (m.steps p).1) :
    m.covers ⟨(m.steps p).1 / (m.steps p).2, p⟩ = true ∨
      m.covers ⟨(m.steps p).1 / (m.steps p).2 + 1, p⟩ = true := by
  have hnum : (m.steps p).1 = m.significand * (2 ^ m.exponent * 10 ^ (-p).toNat) :=
    Nat.mul_assoc ..
  have hden : 0 < (m.steps p).2 := Nat.mul_pos one_pos (Nat.pow_pos (by decide))
  have hlast : 0 < 2 ^ m.exponent * 10 ^ (-p).toNat :=
    Nat.mul_pos (Nat.two_pow_pos _) (Nat.pow_pos (by decide))
  have hsig : m.significand * (2 ^ m.exponent * 10 ^ (-p).toNat) ≤
      (2 ^ 53 - 1) * (2 ^ m.exponent * 10 ^ (-p).toNat) :=
    Nat.mul_le_mul_right _ (Nat.le_pred_of_lt m.significand_lt)
  have hmod := Nat.mod_lt (m.steps p).1 hden
  have hdiv := Nat.div_add_mod (m.steps p).1 (m.steps p).2
  rw [Nat.mul_comm] at hdiv
  have hlow := m.lower_mul (10 ^ (-p).toNat)
  have hhigh := m.upper_mul (10 ^ (-p).toNat)
  have hbelow := quarters_steps m ((m.steps p).1 / (m.steps p).2) p
  have habove := quarters_steps m ((m.steps p).1 / (m.steps p).2 + 1) p
  rw [Nat.add_mul, Nat.one_mul] at habove
  -- half as far down only where the significand is the least of its exponent
  have hreach : m.reach * (2 ^ m.exponent * 10 ^ (-p).toNat) =
        2 * (2 ^ m.exponent * 10 ^ (-p).toNat) ∨
      (m.reach * (2 ^ m.exponent * 10 ^ (-p).toNat) = 2 ^ m.exponent * 10 ^ (-p).toNat ∧
        m.significand * (2 ^ m.exponent * 10 ^ (-p).toNat) =
          2 ^ 52 * (2 ^ m.exponent * 10 ^ (-p).toNat)) := by
    rcases m.reach_cases with hr | ⟨hr, hs, _⟩
    · left
      rw [hr]
    · right
      rw [hr, hs]
      exact ⟨Nat.one_mul _, rfl⟩
  by_cases hnear : 4 * ((m.steps p).1 % (m.steps p).2) <
      m.reach * (2 ^ m.exponent * 10 ^ (-p).toNat)
  · left
    apply covers_of_lt <;> simp only [hbelow] <;> omega
  · right
    apply covers_of_lt <;> simp only [habove] <;> omega

/-! The search -/

theorem covers_of_atPlace? {m : Magnitude} {p : Int} {d : Decimal} (hd : m.atPlace? p = some d) :
    m.covers d = true := by
  unfold atPlace? at hd
  simp only at hd
  split at hd
  · rename_i hbelow habove
    obtain rfl := Option.some.inj hd
    rcases roundDiv_cases (m.steps p).1 (m.steps p).2 with hr | hr
    · rw [hr]
      exact hbelow
    · rw [hr]
      exact habove
  · rename_i hbelow _
    obtain rfl := Option.some.inj hd
    exact hbelow
  · rename_i _ habove
    obtain rfl := Option.some.inj hd
    exact habove
  · cases hd

theorem atPlace?_of_covers {m : Magnitude} {p : Int}
    (h : m.covers ⟨(m.steps p).1 / (m.steps p).2, p⟩ = true ∨
      m.covers ⟨(m.steps p).1 / (m.steps p).2 + 1, p⟩ = true) :
    ∃ d, m.atPlace? p = some d := by
  simp only [atPlace?]
  split
  · exact ⟨_, rfl⟩
  · exact ⟨_, rfl⟩
  · exact ⟨_, rfl⟩
  · rename_i hbelow habove
    rw [hbelow, habove] at h
    rcases h with h | h <;> cases h

theorem two_pow_le_ten_pow {a b : Nat} (h : a ≤ 3 * b) : 2 ^ a ≤ 10 ^ b :=
  calc 2 ^ a ≤ 2 ^ (3 * b) := Nat.pow_le_pow_right (by decide) h
    _ = 8 ^ b := Nat.pow_mul 2 3 b
    _ ≤ 10 ^ b := Nat.pow_le_pow_left (by decide) b

theorem one_le_ten_pow : one ≤ 10 ^ 400 := by
  rw [one]
  exact @two_pow_le_ten_pow 1074 400 (by decide)

theorem ten_pow_le_of_lt_length {n k : Nat} (hn : 0 < n) (h : k < (Nat.toDigits 10 n).length) :
    10 ^ k ≤ n := by
  rcases Nat.eq_zero_or_pos k with rfl | hk
  · exact hn
  · apply Nat.le_of_not_lt
    intro hlt
    have := (Nat.length_toDigits_le_iff (b := 10) (by decide) hk).mpr hlt
    omega

theorem le_units_of_places {m : Magnitude} (h : m.isZero = false) :
    ∃ k : Nat, m.places = k - 399 ∧ 10 ^ k * one ≤ m.units * 10 ^ 400 := by
  have hu : one ≤ m.units * 10 ^ 400 :=
    Nat.le_trans one_le_ten_pow (Nat.le_mul_of_pos_left _ (units_pos h))
  have hq : 0 < m.units * 10 ^ 400 / one := Nat.div_pos hu one_pos
  have hl : 0 < (Nat.toDigits 10 (m.units * 10 ^ 400 / one)).length := Nat.length_toDigits_pos
  refine ⟨(Nat.toDigits 10 (m.units * 10 ^ 400 / one)).length - 1, ?_, ?_⟩
  · unfold places
    omega
  · have hk := ten_pow_le_of_lt_length hq (Nat.sub_one_lt_of_lt hl)
    exact (Nat.le_div_iff_mul_le one_pos).mp hk

theorem den_le_num {u o e k c : Nat} {p : Int} (h : 10 ^ k * o ≤ u * 10 ^ e)
    (hp : p + e + c ≤ k) : 10 ^ c * (o * 10 ^ p.toNat) ≤ u * 10 ^ (-p).toNat := by
  have he : c + p.toNat + e ≤ k + (-p).toNat := by omega
  have hten : 0 < 10 ^ e := Nat.pow_pos (by decide)
  apply Nat.le_of_mul_le_mul_right _ hten
  calc 10 ^ c * (o * 10 ^ p.toNat) * 10 ^ e = 10 ^ (c + p.toNat + e) * o := by
        rw [Nat.pow_add, Nat.pow_add, Nat.mul_comm o, ← Nat.mul_assoc, Nat.mul_right_comm]
    _ ≤ 10 ^ (k + (-p).toNat) * o :=
        Nat.mul_le_mul_right _ (Nat.pow_le_pow_right (by decide) he)
    _ = 10 ^ k * o * 10 ^ (-p).toNat := by
        rw [Nat.pow_add, Nat.mul_right_comm]
    _ ≤ u * 10 ^ e * 10 ^ (-p).toNat := Nat.mul_le_mul_right _ h
    _ = u * 10 ^ (-p).toNat * 10 ^ e := Nat.mul_right_comm ..

theorem atPlace?_seventeen {m : Magnitude} (h : m.isZero = false) :
    ∃ d, m.atPlace? (m.places - 17) = some d := by
  obtain ⟨k, hp, hk⟩ := le_units_of_places h
  apply atPlace?_of_covers
  apply covers_neighbour
  exact den_le_num hk (by omega)

/-- The shortest decimal of a value rounds to it. -/
theorem covers_shortest {m : Magnitude} (h : m.isZero = false) : m.covers m.shortest = true := by
  have hsome : ((List.range 17).findSome? fun i : Nat => m.atPlace? (m.places - 1 - i)) ≠ none := by
    intro hnone
    obtain ⟨d, hd⟩ := atPlace?_seventeen h
    have hlast := List.findSome?_eq_none_iff.mp hnone 16 (by decide)
    have hplace : m.places - 1 - (16 : Nat) = m.places - 17 := by omega
    rw [hplace, hd] at hlast
    cases hlast
  obtain ⟨d, hd⟩ := Option.ne_none_iff_exists'.mp hsome
  obtain ⟨i, _, hi⟩ := List.exists_of_findSome?_eq_some hd
  rw [shortest, hd]
  exact covers_of_atPlace? hi

theorem lower_pos {m : Magnitude} (h : m.isZero = false) : 0 < m.lower := by
  have hu : 2 ^ m.exponent ≤ m.units := Nat.le_mul_of_pos_left _ (significand_pos h)
  have he : 0 < 2 ^ m.exponent := Nat.two_pow_pos _
  unfold lower
  split <;> omega

theorem digits_pos_of_covers {m : Magnitude} (h : m.isZero = false) {d : Decimal}
    (hd : m.covers d = true) : 0 < d.digits := by
  rcases Nat.eq_zero_or_pos d.digits with hz | hp
  · have hpos : 0 < m.lower * (quarters d).2 :=
      Nat.mul_pos (lower_pos h) (Nat.pow_pos (by decide))
    have hzero : (quarters d).1 = 0 := by
      rw [quarters, hz, Nat.zero_mul, Nat.zero_mul]
    have hle := (covers_bounds hd).1
    omega
  · exact hp

theorem digits_shortest_pos {m : Magnitude} (h : m.isZero = false) : 0 < m.shortest.digits :=
  digits_pos_of_covers h (covers_shortest h)

end Magnitude

end FirstMatch
