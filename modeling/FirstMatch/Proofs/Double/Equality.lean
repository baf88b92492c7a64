import FirstMatch.Double.Arithmetic

/-!
Equal doubles. A value has one normal form, so that equal doubles are identical unless both are
zero; and no arithmetic brings out the sign of a zero except as the sign of a zero.
-/

namespace FirstMatch

namespace Magnitude

theorem units_lt_of_exponent_lt {m n : Magnitude} (h : m.exponent < n.exponent) :
    m.units < n.units := by
  have hn : 2 ^ 52 ≤ n.significand := n.normal.resolve_left (by omega)
  calc m.units < 2 ^ 53 * 2 ^ m.exponent :=
        Nat.mul_lt_mul_of_pos_right m.significand_lt (Nat.two_pow_pos _)
    _ = 2 ^ 52 * 2 ^ (m.exponent + 1) := by rw [Nat.pow_succ]; omega
    _ ≤ n.significand * 2 ^ n.exponent :=
        Nat.mul_le_mul hn (Nat.pow_le_pow_right (by decide) h)

theorem units_injective {m n : Magnitude} (h : m.units = n.units) : m = n := by
  rcases Nat.lt_trichotomy m.exponent n.exponent with hlt | he | hgt
  · have := units_lt_of_exponent_lt hlt
    omega
  · have hs : m.significand = n.significand := by
      unfold units at h
      rw [he] at h
      exact Nat.eq_of_mul_eq_mul_right (Nat.two_pow_pos _) h
    cases m
    cases n
    simp only at he hs
    subst he hs
    rfl
  · have := units_lt_of_exponent_lt hgt
    omega

theorem units_zero : zero.units = 0 := by decide

theorem isZero_iff {m : Magnitude} : m.isZero = true ↔ m = zero := by
  constructor
  · intro h
    apply units_injective
    rw [units_zero, units, beq_iff_eq.mp h, Nat.zero_mul]
  · rintro rfl
    rfl

theorem roundDiv_zero (den : Nat) : roundDiv 0 den = 0 := by
  simp only [roundDiv, Nat.zero_div, Nat.zero_mod, Nat.mul_zero]
  split <;> simp

theorem round?_zero (den : Nat) : round? 0 den = some zero := by
  simp only [round?, roundDiv_zero, Nat.zero_div, ofParts?]
  rw [dif_pos (by decide), dif_pos (by decide)]
  rfl

end Magnitude

namespace Double

theorem round_zero (negative : Bool) (den : Nat) :
    round negative 0 den = .finite negative .zero := by
  unfold round
  rw [Magnitude.round?_zero]

/-- Identical, or two zeros. -/
def Alike (x y : Double) : Prop := x = y ∨ (x.isZero = true ∧ y.isZero = true)

theorem alike_refl (x : Double) : Alike x x := .inl rfl

theorem isZero_iff {x : Double} : x.isZero = true ↔ ∃ negative, x = .finite negative .zero := by
  cases x <;> simp [isZero, Magnitude.isZero_iff]

theorem signed_eq_signed {s t : Bool} {a b : Nat} (h : signed s a = signed t b) :
    a = b ∧ (s = t ∨ a = 0) := by
  unfold signed at h
  cases s <;> cases t <;> simp at h ⊢ <;> omega

theorem alike_of_equal {x y : Double} (h : x.equal y = true) : Alike x y := by
  cases x with
  | nan => cases h
  | infinite s =>
    cases y with
    | infinite t => exact .inl (by rw [beq_iff_eq.mp h])
    | _ => cases h
  | finite s m =>
    cases y with
    | finite t n =>
      obtain ⟨hmn, hs⟩ := signed_eq_signed (beq_iff_eq.mp h)
      have hm := Magnitude.units_injective hmn
      subst hm
      rcases hs with rfl | hz
      · exact .inl rfl
      · have hm : m = .zero := Magnitude.units_injective (hz.trans Magnitude.units_zero.symm)
        subst hm
        exact .inr ⟨rfl, rfl⟩
    | _ => cases h

theorem equal_of_zero (s t : Bool) : equal (.finite s .zero) (.finite t .zero) = true := by
  cases s <;> cases t <;> decide

theorem equal_of_alike {x y : Double} (h : Alike x y) (hx : x ≠ .nan) : x.equal y = true := by
  rcases h with rfl | ⟨hzx, hzy⟩
  · cases x with
    | nan => exact absurd rfl hx
    | infinite s => exact beq_self_eq_true s
    | finite s m => exact beq_self_eq_true _
  · obtain ⟨s, rfl⟩ := isZero_iff.mp hzx
    obtain ⟨t, rfl⟩ := isZero_iff.mp hzy
    exact equal_of_zero s t

theorem equal_symm {x y : Double} (h : x.equal y = true) : y.equal x = true := by
  cases x <;> cases y <;> simp_all [equal]

theorem equal_trans {x y z : Double} (h : x.equal y = true) (k : y.equal z = true) :
    x.equal z = true := by
  cases x <;> cases y <;> cases z <;> simp_all [equal]

theorem alike_trans {x y z : Double} (h : Alike x y) (k : Alike y z) : Alike x z := by
  rcases h with rfl | ⟨hx, hy⟩
  · exact k
  rcases k with rfl | ⟨_, hz⟩
  · exact .inr ⟨hx, hy⟩
  · exact .inr ⟨hx, hz⟩

/-- What gives like answers to the two zeros gives like answers to like doubles. -/
theorem alike_map {f : Double → Double}
    (hf : ∀ s t, Alike (f (.finite s .zero)) (f (.finite t .zero))) {x y : Double}
    (h : Alike x y) : Alike (f x) (f y) := by
  rcases h with rfl | ⟨hx, hy⟩
  · exact alike_refl (f x)
  · obtain ⟨s, rfl⟩ := isZero_iff.mp hx
    obtain ⟨t, rfl⟩ := isZero_iff.mp hy
    exact hf s t

/-- What cannot tell the two zeros apart cannot tell like doubles apart. -/
theorem eq_of_alike {α : Type} {f : Double → α}
    (hf : ∀ s t, f (.finite s .zero) = f (.finite t .zero)) {x y : Double} (h : Alike x y) :
    f x = f y := by
  rcases h with rfl | ⟨hx, hy⟩
  · rfl
  · obtain ⟨s, rfl⟩ := isZero_iff.mp hx
    obtain ⟨t, rfl⟩ := isZero_iff.mp hy
    exact hf s t

theorem alike_zero (s t : Bool) : Alike (.finite s .zero) (.finite t .zero) := .inr ⟨rfl, rfl⟩

theorem signed_zero (s : Bool) : signed s 0 = 0 := by cases s <;> rfl

theorem negate_alike {x y : Double} (h : Alike x y) : Alike x.negate y.negate :=
  alike_map (fun _ _ => alike_zero _ _) h

theorem mul_comm (x y : Double) : x.mul y = y.mul x := by
  have hb : ∀ s t : Bool, (s != t) = (t != s) := by decide
  cases x <;> cases y <;> simp only [mul, Nat.mul_comm, hb]

theorem add_comm (x y : Double) : x.add y = y.add x := by
  cases x <;> cases y <;> simp only [add, Int.add_comm, Bool.and_comm]
  rename_i s t
  cases s <;> cases t <;> rfl

theorem mul_alike_left {x y : Double} (z : Double) (h : Alike x y) :
    Alike (x.mul z) (y.mul z) := by
  refine alike_map (f := (·.mul z)) (fun s t => ?_) h
  cases z with
  | nan => exact alike_refl _
  | infinite u => exact alike_refl _
  | finite u n =>
    simp only [mul, Magnitude.units_zero, Nat.zero_mul, round_zero]
    exact alike_zero _ _

theorem add_alike_left {x y : Double} (z : Double) (h : Alike x y) :
    Alike (x.add z) (y.add z) := by
  refine alike_map (f := (·.add z)) (fun s t => ?_) h
  cases z with
  | nan => exact alike_refl _
  | infinite u => exact alike_refl _
  | finite u n =>
    simp only [add, Magnitude.units_zero, signed_zero, Int.zero_add]
    split
    · exact alike_zero _ _
    · exact alike_refl _

theorem mul_alike {x y z w : Double} (h : Alike x y) (k : Alike z w) :
    Alike (x.mul z) (y.mul w) := by
  apply alike_trans (mul_alike_left z h)
  rw [mul_comm y z, mul_comm y w]
  exact mul_alike_left y k

theorem add_alike {x y z w : Double} (h : Alike x y) (k : Alike z w) :
    Alike (x.add z) (y.add w) := by
  apply alike_trans (add_alike_left z h)
  rw [add_comm y z, add_comm y w]
  exact add_alike_left y k

theorem exactInt?_zero (s : Bool) : (finite s .zero).exactInt? = some 0 := by
  cases s <;> decide +kernel

theorem exactInt?_alike {x y : Double} (h : Alike x y) : x.exactInt? = y.exactInt? :=
  eq_of_alike (fun s t => (exactInt?_zero s).trans (exactInt?_zero t).symm) h

theorem less_alike {x y z w : Double} (h : Alike x y) (k : Alike z w) :
    x.less z = y.less w := by
  have hx : x.less z = y.less z :=
    eq_of_alike (f := (·.less z)) (fun s t => by cases s <;> cases t <;> cases z <;> rfl) h
  have hz : y.less z = y.less w :=
    eq_of_alike (f := y.less) (fun s t => by cases s <;> cases t <;> cases y <;> rfl) k
  exact hx.trans hz

theorem equal_alike {x y z w : Double} (h : Alike x y) (k : Alike z w) :
    x.equal z = y.equal w := by
  have hx : x.equal z = y.equal z :=
    eq_of_alike (f := (·.equal z)) (fun s t => by cases s <;> cases t <;> cases z <;> rfl) h
  have hz : y.equal z = y.equal w :=
    eq_of_alike (f := y.equal) (fun s t => by cases s <;> cases t <;> cases y <;> rfl) k
  exact hx.trans hz

end Double

end FirstMatch
