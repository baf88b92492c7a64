import FirstMatch.Proofs.Double.Nearest
import FirstMatch.Proofs.Json.RoundTrip

/-!
Floats that are read back as they are. The numeral of a float stands for a decimal that rounds to
it; what may go wrong is that reading rounds more than once. It rounds once if the significand of
the numeral has 53 bits and its power of ten is at most 22.
-/

namespace FirstMatch

namespace Numeral

/-- A numeral whose significand and whose power of ten are floats themselves. -/
def Exact (n : Numeral) : Prop :=
  n.scientific.1 < 2 ^ 53 ∧ -22 ≤ n.scientific.2 ∧ n.scientific.2 ≤ 22

instance (n : Numeral) : Decidable n.Exact := inferInstanceAs (Decidable (_ ∧ _ ∧ _))

/-! What the digits of a numeral come to -/

theorem le_gather (ds : List Char) (s : Nat) : s ≤ (gather s ds).1 := by
  induction ds generalizing s with
  | nil => exact Nat.le_refl s
  | cons c ds ih =>
    simp only [gather]
    split
    · have hle := ih (s * 10 + (c.toNat - '0'.toNat))
      omega
    · exact Nat.le_refl s

theorem digit_le_nine {c : Char} (h : c.isDigit = true) : c.toNat - '0'.toNat ≤ 9 :=
  Nat.sub_le_sub_right (Char.isDigit_iff_toNat.mp h).2 _

theorem gather_of_lt {ds : List Char} (hd : ∀ c ∈ ds, c.isDigit = true) {s : Nat}
    (h : (gather s ds).1 < 2 ^ 53) : gather s ds = (Nat.ofDigitChars 10 ds s, []) := by
  induction ds generalizing s with
  | nil => rfl
  | cons c ds ih =>
    have hc := digit_le_nine (hd c List.mem_cons_self)
    have hs := Nat.lt_of_le_of_lt (le_gather (c :: ds) s) h
    have ht : s * 10 + (c.toNat - '0'.toNat) < 2 ^ 64 := by omega
    simp only [gather, ht, if_true] at h ⊢
    rw [ih (fun d hd' => hd d (List.mem_cons_of_mem c hd')) h, Nat.ofDigitChars_cons,
      Nat.mul_comm s]

theorem scientific_eq {n : Numeral} (hn : n.Proper) (h : n.scientific.1 < 2 ^ 53) :
    n.scientific = (Nat.ofDigitChars 10 (n.whole ++ n.fraction.getD []) 0,
      n.power - (n.fraction.getD []).length) := by
  have hfraction : ∀ c ∈ n.fraction.getD [], c.isDigit = true := by
    cases hf : n.fraction with
    | none => exact nofun
    | some ds => exact (hn.fraction ds hf).2
  have hs : (gather 0 n.whole).1 < 2 ^ 53 := Nat.lt_of_le_of_lt (le_gather _ _) h
  have hwhole := gather_of_lt hn.whole.2 hs
  simp only [scientific, hwhole] at h ⊢
  rw [gather_of_lt hfraction h, Nat.ofDigitChars_append]
  simp only [List.length_nil, Prod.mk.injEq, true_and]
  omega

end Numeral

theorem Decimal.digits_eq (d : Decimal) :
    ∃ z : Nat, d.digits = Nat.ofDigitChars 10 d.significant 0 * 10 ^ z ∧
      d.magnitude = d.exponent + z + d.significant.length - 1 := by
  have heq := d.digits_eq_significant
  obtain ⟨zeros, hzeros⟩ : ∃ zeros,
      ((Nat.toDigits 10 d.digits).reverse.takeWhile (· == '0')).reverse = zeros := ⟨_, rfl⟩
  rw [hzeros] at heq
  have hall : ∀ c ∈ zeros, c = '0' := by
    intro c hc
    rw [← hzeros, List.mem_reverse] at hc
    simpa using List.all_eq_true.mp List.all_takeWhile c hc
  have hreplicate : zeros = List.replicate zeros.length '0' :=
    List.eq_replicate_iff.mpr ⟨rfl, hall⟩
  refine ⟨zeros.length, ?_, ?_⟩
  · have hvalue := Nat.ofDigitChars_ten_toDigits (n := d.digits)
    rw [heq, Nat.ofDigitChars_append, hreplicate, Nat.ofDigitChars_replicate_zero,
      Nat.mul_comm] at hvalue
    exact hvalue.symm
  · rw [magnitude, heq, List.length_append]
    omega

namespace Numeral

theorem pointed_append {ds : List Char} :
    ds.take 1 ++ (ofDecimal.pointed ds).getD [] = ds := by
  unfold ofDecimal.pointed
  by_cases hl : ds.length ≤ 1
  · rw [if_pos hl, Option.getD_none, List.append_nil]
    exact List.take_of_length_le hl
  · rw [if_neg hl, Option.getD_some]
    exact List.take_append_drop 1 ds

theorem length_pointed {ds : List Char} (h : ds ≠ []) :
    ((ofDecimal.pointed ds).getD []).length + 1 = ds.length := by
  have hpos := List.length_pos_iff.mpr h
  unfold ofDecimal.pointed
  by_cases hl : ds.length ≤ 1
  · rw [if_pos hl, Option.getD_none, List.length_nil]
    omega
  · rw [if_neg hl, Option.getD_some, List.length_drop]
    omega

/-- Digits in place, with a point after `k + 1` of them, and zeros where there are not so many. -/
theorem padded_digits (ds : List Char) (k : Nat) :
    ∃ z : Nat, Nat.ofDigitChars 10 (ds.take (k + 1) ++
        List.replicate (k + 1 - (ds.take (k + 1)).length) '0' ++
        fractionDigits (ds.drop (k + 1))) 0 = Nat.ofDigitChars 10 ds 0 * 10 ^ z ∧
      ((fractionDigits (ds.drop (k + 1))).length : Int) = ds.length - (k + 1) + z := by
  by_cases hl : ds.length ≤ k + 1
  · -- No digit is left for the fraction, which is a single zero.
    have hempty : fractionDigits [] = ['0'] := rfl
    rw [List.take_of_length_le hl, List.drop_eq_nil_of_le hl, hempty]
    refine ⟨k + 1 - ds.length + 1, ?_, ?_⟩
    · rw [Nat.ofDigitChars_append, Nat.ofDigitChars_append, Nat.ofDigitChars_replicate_zero,
        Nat.ofDigitChars_cons, Nat.ofDigitChars_nil, Nat.sub_self, Nat.add_zero, Nat.pow_succ',
        Nat.mul_comm (Nat.ofDigitChars 10 ds 0), Nat.mul_assoc]
    · rw [List.length_singleton]
      omega
  · have hdrop : ¬ (ds.drop (k + 1)).isEmpty = true := by
      rw [List.isEmpty_iff, List.drop_eq_nil_iff]
      exact hl
    have htake : k + 1 - (ds.take (k + 1)).length = 0 := by
      rw [List.length_take]
      omega
    rw [fractionDigits, if_neg hdrop, htake, List.replicate_zero, List.append_nil]
    refine ⟨0, ?_, ?_⟩
    · rw [List.take_append_drop, Nat.pow_zero, Nat.mul_one]
    · rw [List.length_drop]
      omega

theorem ofDecimal_digits (negative : Bool) {d : Decimal} (h : d.significant ≠ []) :
    ∃ z : Nat, Nat.ofDigitChars 10 ((ofDecimal negative d).whole ++
        (ofDecimal negative d).fraction.getD []) 0 =
        Nat.ofDigitChars 10 d.significant 0 * 10 ^ z ∧
      (ofDecimal negative d).power - ((ofDecimal negative d).fraction.getD []).length + z =
        d.magnitude - d.significant.length + 1 := by
  have hpoint := length_pointed h
  unfold ofDecimal
  -- by where the point stands: inside or behind the digits, or before them
  rcases d.magnitude with k | k
  · by_cases hk : k ≤ 15
    · obtain ⟨z, hdigits, hlength⟩ := padded_digits d.significant k
      simp only [hk, if_true, Option.getD_some, power]
      refine ⟨z, hdigits, ?_⟩
      rw [hlength, Int.ofNat_eq_natCast]
      omega
    · simp only [hk, if_false]
      refine ⟨0, ?_, ?_⟩
      · rw [pointed_append, Nat.pow_zero, Nat.mul_one]
      · simp only [power, Double.signed, Bool.false_eq_true, if_false,
          Nat.ofDigitChars_ten_toDigits, Int.ofNat_eq_natCast]
        omega
  · by_cases hk : k < 5
    · simp only [hk, if_true, Option.getD_some]
      refine ⟨0, ?_, ?_⟩
      · have hzero : Nat.ofDigitChars 10 ['0'] 0 = 0 := rfl
        rw [Nat.ofDigitChars_append, Nat.ofDigitChars_append, hzero,
          Nat.ofDigitChars_replicate_zero, Nat.mul_zero, Nat.pow_zero, Nat.mul_one]
      · simp only [power, List.length_append, List.length_replicate]
        omega
    · simp only [hk, if_false]
      refine ⟨0, ?_, ?_⟩
      · rw [pointed_append, Nat.pow_zero, Nat.mul_one]
      · simp only [power, Double.signed, if_true, Nat.ofDigitChars_ten_toDigits]
        omega

theorem mul_ten_pow (v o a b c : Nat) :
    v * 10 ^ a * 10 ^ b * o * 10 ^ c = v * o * 10 ^ (a + b + c) := by
  rw [Nat.mul_right_comm _ _ o, Nat.mul_right_comm _ _ o, Nat.pow_add, Nat.pow_add]
  simp only [Nat.mul_assoc]

/-- The numeral of a decimal comes to the same fraction as the decimal. -/
theorem scientific_ofDecimal (negative : Bool) {d : Decimal} (hd : 0 < d.digits)
    (h : (ofDecimal negative d).scientific.1 < 2 ^ 53) (o : Nat) :
    (ofDecimal negative d).scientific.1 * 10 ^ (ofDecimal negative d).scientific.2.toNat * o *
        10 ^ (-d.exponent).toNat =
      d.digits * 10 ^ d.exponent.toNat * o * 10 ^ (-(ofDecimal negative d).scientific.2).toNat := by
  obtain ⟨z, hz, hm⟩ := d.digits_eq
  obtain ⟨j, hj, hp⟩ := ofDecimal_digits negative (Decimal.significant_ne_nil hd)
  rw [scientific_eq (ofDecimal_proper negative hd) h, hj, hz, mul_ten_pow, mul_ten_pow]
  congr 2
  omega

theorem negative_ofDecimal (negative : Bool) (d : Decimal) :
    (ofDecimal negative d).negative = negative := by
  unfold ofDecimal
  rcases d.magnitude with k | k
  · by_cases hk : k ≤ 15 <;> simp only [hk, if_true, if_false]
  · by_cases hk : k < 5 <;> simp only [hk, if_true, if_false]

theorem float?_ofDecimal (negative : Bool) {m : Magnitude} (hm : m.isZero = false)
    (h : (ofDecimal negative m.shortest).Exact) :
    (ofDecimal negative m.shortest).float? = some (.finite negative m) := by
  have hd := Magnitude.digits_shortest_pos hm
  have hround := Magnitude.round?_of_covers (Magnitude.covers_shortest hm)
  obtain ⟨hs, hlo, hhi⟩ := h
  have hfraction := scientific_ofDecimal negative hd hs Magnitude.one
  rw [← Magnitude.round?_congr (Nat.pow_pos (by decide)) (Nat.pow_pos (by decide)) hfraction]
    at hround
  simp only [float?, Double.scale?_exact hs hlo hhi hround, negative_ofDecimal, Option.map_some]
  cases negative <;> rfl

end Numeral

namespace Double

theorem reread?_zero (negative : Bool) :
    (finite negative .zero).reread? = some (.finite negative .zero) := by
  cases negative <;> decide +kernel

theorem reread?_nan : nan.reread? = none := by
  decide +kernel

theorem reread?_infinite (negative : Bool) : (infinite negative).reread? = none := by
  cases negative <;> decide +kernel

theorem isFinite_of_reread? {x y : Double} (h : x.reread? = some y) : x.isFinite = true := by
  cases x with
  | finite negative m => rfl
  | nan =>
    rw [reread?_nan] at h
    cases h
  | infinite negative =>
    rw [reread?_infinite] at h
    cases h

/-- A float that is reread as an equal one is reread as itself; a zero keeps its sign. -/
theorem reread?_of_equal {x y : Double} (h : x.reread? = some y) (he : y.equal x = true) :
    x.reread? = some x := by
  rcases alike_of_equal he with rfl | ⟨_, hx⟩
  · exact h
  · obtain ⟨negative, rfl⟩ := isZero_iff.mp hx
    exact reread?_zero negative

def Exact : Double → Prop
  | .finite negative m => (Numeral.ofMagnitude negative m).Exact
  | _ => False

instance : DecidablePred Exact
  | .finite negative m => inferInstanceAs (Decidable (Numeral.ofMagnitude negative m).Exact)
  | .nan => .isFalse id
  | .infinite _ => .isFalse id

theorem reread?_of_exact {x : Double} (h : x.Exact) : x.reread? = some x := by
  cases x with
  | nan => exact absurd h id
  | infinite negative => exact absurd h id
  | finite negative m =>
    by_cases hm : m.isZero = true
    · rw [Magnitude.isZero_iff.mp hm]
      exact reread?_zero negative
    · have hn : Numeral.ofMagnitude negative m = Numeral.ofDecimal negative m.shortest := by
        rw [Numeral.ofMagnitude, if_neg hm]
      rw [Exact, hn] at h
      rw [reread?_finite, hn]
      exact Numeral.float?_ofDecimal negative (by simpa using hm) h

example : (ofInt 900719925474099).Exact ∧ ¬ (ofInt 9007199254740991).Exact := by
  decide +kernel

end Double

end FirstMatch
