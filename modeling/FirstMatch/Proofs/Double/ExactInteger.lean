import FirstMatch.Proofs.Double.Rational

/-!
Whole numbers of 64 signed bits among the doubles. The test before the cast lets a double through
exactly when it is such a number: there is no fraction left, and it lies between two bounds, the
upper one of which is rounded up to a number that is left out. The cast then keeps the number, so
nothing that it has clamped is ever given.
-/

namespace FirstMatch

namespace Magnitude

theorem units_lt_of_exponent {m : Magnitude} {e : Nat} (h : m.exponent ≤ e) :
    m.units < 2 ^ e * 2 ^ 53 := by
  rw [units, Nat.mul_comm]
  exact Nat.mul_lt_mul_of_le_of_lt (Nat.pow_le_pow_right Nat.two_pos h) m.significand_lt
    (Nat.two_pow_pos e)

/-- What is left of a value above some place is a value: all of it, or a number of 53 bits. -/
theorem exists_truncated (m : Magnitude) {e : Nat} (he : e ≤ 2045) :
    ∃ t, round? (m.units / 2 ^ e * 2 ^ e) 1 = some t ∧ t.units = m.units / 2 ^ e * 2 ^ e := by
  rcases Nat.le_total e m.exponent with hle | hle
  · have hdvd : 2 ^ e ∣ m.units := Nat.dvd_mul_left_of_dvd (Nat.pow_dvd_pow 2 hle) _
    rw [Nat.div_mul_cancel hdvd]
    exact ⟨m, round?_units m, rfl⟩
  · exact round?_exact (Nat.div_lt_of_lt_mul (units_lt_of_exponent hle)) he

end Magnitude

namespace Double

variable {x : Double} {k : Int}

/-! The fraction -/

theorem truncate_finite (negative : Bool) (m : Magnitude) :
    ∃ t, (finite negative m).truncate = .finite negative t ∧
      t.units = m.units / Magnitude.one * Magnitude.one := by
  obtain ⟨t, ht, hunits⟩ := @Magnitude.exists_truncated m 1074 (by decide)
  rw [← Magnitude.one] at ht hunits
  exact ⟨t, round_of_some ht, hunits⟩

theorem signed_not (negative : Bool) (n : Nat) : signed (!negative) n = -signed negative n := by
  cases negative with
  | false => rfl
  | true => exact (Int.neg_neg (n : Int)).symm

theorem signed_inj {negative : Bool} {a b : Nat} :
    signed negative a = signed negative b ↔ a = b := by
  constructor
  · intro h
    exact (signed_eq_signed h).1
  · rintro rfl
    rfl

theorem round_equal_zero_iff {negative : Bool} {n : Nat} :
    (round negative n 1).equal zero = true ↔ n = 0 := by
  constructor
  · intro h
    by_contra hn
    have hone : 2 ^ 0 ≤ n / 1 := by omega
    unfold round at h
    split at h
    · next m hm =>
      have hpos := Magnitude.le_units_of_round? hm hone
      have hzero := (signed_eq_signed (t := false) (beq_iff_eq.mp h)).1
      rw [Magnitude.units_zero] at hzero
      omega
    · cases h
  · rintro rfl
    rw [round_zero]
    exact equal_of_zero negative false

theorem add_equal_zero_iff {s t : Bool} {m n : Magnitude} :
    ((finite s m).add (.finite t n)).equal zero = true ↔
      signed s m.units + signed t n.units = 0 := by
  simp only [add]
  split
  · next hsum =>
    exact iff_of_true (equal_of_zero (s && t) false) hsum
  · next hsum =>
    rw [round_equal_zero_iff, Int.natAbs_eq_zero]

theorem fraction_equal_zero_iff : x.fraction.equal zero = true ↔ ∃ k, x.IsWhole k := by
  cases x with
  | nan => exact ⟨nofun, fun ⟨k, hk⟩ => nomatch hk.finite⟩
  | infinite negative =>
    refine ⟨fun h => ?_, fun ⟨k, hk⟩ => nomatch hk.finite⟩
    cases negative <;> cases h
  | finite negative m =>
    obtain ⟨t, ht, hunits⟩ := truncate_finite negative m
    have hmod : m.units = t.units ↔ m.units % Magnitude.one = 0 := by
      have hdiv := Nat.div_add_mod m.units Magnitude.one
      rw [Nat.mul_comm] at hdiv
      omega
    rw [fraction, ht, negate, add_equal_zero_iff, signed_not, ← Int.sub_eq_add_neg,
      Int.sub_eq_zero, signed_inj, hmod]
    constructor
    · intro h
      exact ⟨_, isWhole_finite_iff.mpr ⟨h, rfl⟩⟩
    · rintro ⟨k, hk⟩
      exact (isWhole_finite_iff.mp hk).1

/-! The range -/

theorem isWhole_least : (ofInt (-2 ^ 63)).IsWhole (-2 ^ 63) :=
  ⟨by decide +kernel, by decide +kernel⟩

/-- The greatest number of 64 signed bits is no double: it is rounded up. -/
theorem isWhole_greatest : (ofInt (2 ^ 63 - 1)).IsWhole (2 ^ 63) :=
  ⟨by decide +kernel, by decide +kernel⟩

theorem inSignedRange_isFinite (h : x.inSignedRange = true) : x.isFinite = true := by
  cases x with
  | nan => exact absurd h (by decide +kernel)
  | infinite negative => cases negative <;> exact absurd h (by decide +kernel)
  | finite negative m => rfl

theorem inSignedRange_iff :
    x.inSignedRange = true ↔ x.isFinite = true ∧ -2 ^ 63 ≤ x.toRat ∧ x.toRat < 2 ^ 63 := by
  have hleast : (ofInt (-2 ^ 63)).toRat = -2 ^ 63 := by
    rw [(isWhole_iff.mp isWhole_least).2]
    norm_num
  have hgreatest : (ofInt (2 ^ 63 - 1)).toRat = 2 ^ 63 := by
    rw [(isWhole_iff.mp isWhole_greatest).2]
    norm_num
  have hbounds (hx : x.isFinite = true) :
      x.inSignedRange = true ↔ -2 ^ 63 ≤ x.toRat ∧ x.toRat < 2 ^ 63 := by
    rw [inSignedRange, Bool.and_eq_true, atMost_iff isWhole_least.finite hx,
      less_iff hx isWhole_greatest.finite, ← toRat_le_iff, ← toRat_lt_iff, hleast, hgreatest]
  constructor
  · intro h
    have hx := inSignedRange_isFinite h
    exact ⟨hx, (hbounds hx).mp h⟩
  · rintro ⟨hx, h⟩
    exact (hbounds hx).mpr h

theorem IsWhole.inSignedRange_iff (h : x.IsWhole k) : x.inSignedRange = true ↔ FitsSigned k := by
  obtain ⟨hx, hvalue⟩ := isWhole_iff.mp h
  have hleast : (-2 ^ 63 : ℚ) = ((-2 ^ 63 : Int) : ℚ) := by norm_num
  have hend : (2 ^ 63 : ℚ) = ((2 ^ 63 : Int) : ℚ) := by norm_num
  rw [Double.inSignedRange_iff, and_iff_right hx, hvalue, hleast, hend, Int.cast_le, Int.cast_lt,
    FitsSigned]

/-! The cast -/

theorem fitsSigned_clamped (x : Double) : FitsSigned x.clamped := by
  unfold FitsSigned clamped
  split
  · decide
  · split <;> decide
  · omega

theorem IsWhole.clamped_eq (h : x.IsWhole k) (hfits : FitsSigned k) : x.clamped = k := by
  obtain ⟨negative, m, rfl⟩ := isFinite_iff.mp h.finite
  obtain ⟨hlo, hhi⟩ := hfits
  rw [clamped, (isWhole_finite_iff.mp h).2]
  omega

/-! The test and the cast together -/

theorem exactInt?_eq_some_iff : x.exactInt? = some k ↔ x.IsWhole k ∧ FitsSigned k := by
  rw [exactInt?, Option.ite_none_right_eq_some, Bool.and_eq_true, fraction_equal_zero_iff,
    Option.some.injEq]
  constructor
  · rintro ⟨⟨⟨j, hj⟩, hrange⟩, rfl⟩
    have hfits := hj.inSignedRange_iff.mp hrange
    rw [hj.clamped_eq hfits]
    exact ⟨hj, hfits⟩
  · rintro ⟨hk, hfits⟩
    exact ⟨⟨⟨k, hk⟩, hk.inSignedRange_iff.mpr hfits⟩, hk.clamped_eq hfits⟩

theorem exactInt?_eq_none_iff : x.exactInt? = none ↔ ¬ ∃ k, x.IsWhole k ∧ FitsSigned k := by
  rw [Option.eq_none_iff_forall_ne_some, not_exists]
  exact forall_congr' fun k => not_congr exactInt?_eq_some_iff

theorem isWhole_and_fitsSigned_iff :
    x.IsWhole k ∧ FitsSigned k ↔
      x.isFinite = true ∧ x.toRat = k ∧ -2 ^ 63 ≤ x.toRat ∧ x.toRat < 2 ^ 63 := by
  constructor
  · rintro ⟨hk, hfits⟩
    obtain ⟨hx, hrange⟩ := inSignedRange_iff.mp (hk.inSignedRange_iff.mpr hfits)
    exact ⟨hx, (isWhole_iff.mp hk).2, hrange⟩
  · rintro ⟨hx, hvalue, hrange⟩
    have hk := isWhole_iff.mpr ⟨hx, hvalue⟩
    exact ⟨hk, hk.inSignedRange_iff.mp (inSignedRange_iff.mpr ⟨hx, hrange⟩)⟩

theorem isWhole_clamped_iff : x.IsWhole x.clamped ↔ ∃ k, x.IsWhole k ∧ FitsSigned k := by
  constructor
  · intro h
    exact ⟨_, h, fitsSigned_clamped x⟩
  · rintro ⟨k, hk, hfits⟩
    rw [hk.clamped_eq hfits]
    exact hk

/-- A double is read as a whole number exactly when it is finite, has this number as its value, and
the value is at least -2^63 and below 2^63. All other doubles have no answer: NaN, the infinite
ones, those with a fraction and those beyond the range. The answer is the cast of just those doubles
that the cast keeps, so a number that was clamped or cut off is never given. -/
theorem exactInt?_exact (x : Double) :
    (∀ k : Int, x.exactInt? = some k ↔
      x.isFinite = true ∧ x.toRat = k ∧ -2 ^ 63 ≤ x.toRat ∧ x.toRat < 2 ^ 63) ∧
    (x.exactInt? = none ↔
      ¬ (x.isFinite = true ∧ (∃ n : Int, x.toRat = n) ∧
        -2 ^ 63 ≤ x.toRat ∧ x.toRat < 2 ^ 63)) ∧
    (x.exactInt? = none ↔ ¬ (x.isFinite = true ∧ x.toRat = x.clamped)) := by
  refine ⟨fun k => exactInt?_eq_some_iff.trans isWhole_and_fitsSigned_iff, ?_, ?_⟩
  · rw [exactInt?_eq_none_iff]
    apply not_congr
    constructor
    · rintro ⟨k, hk⟩
      obtain ⟨hx, hvalue, hrange⟩ := isWhole_and_fitsSigned_iff.mp hk
      exact ⟨hx, ⟨k, hvalue⟩, hrange⟩
    · rintro ⟨hx, ⟨k, hvalue⟩, hrange⟩
      exact ⟨k, isWhole_and_fitsSigned_iff.mpr ⟨hx, hvalue, hrange⟩⟩
  · rw [exactInt?_eq_none_iff, ← isWhole_clamped_iff, isWhole_iff]

-- The two ends of the range, and 2^63, which would be clamped to the greatest number.
example : (ofInt (-2 ^ 63)).exactInt? = some (-2 ^ 63) ∧
    (ofInt (2 ^ 63 - 2 ^ 10)).exactInt? = some (2 ^ 63 - 2 ^ 10) ∧
    (ofInt (2 ^ 63)).exactInt? = none ∧ (ofInt (2 ^ 63)).clamped = 2 ^ 63 - 1 := by
  decide +kernel

end Double

end FirstMatch
