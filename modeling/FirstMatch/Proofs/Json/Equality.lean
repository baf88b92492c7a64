import FirstMatch.Proofs.Double.Equality
import FirstMatch.Table.Evaluation

/-!
Equal values. Equality is symmetric and transitive, and reflexive on well-formed values; numeric
operations and comparisons give equal answers to equal values.
-/

namespace FirstMatch

namespace Number

theorem equal_comm (a b : Number) : a.equal b = b.equal a := by
  cases a <;> cases b <;> simp only [equal, BEq.comm]
  exact Bool.eq_iff_iff.mpr ⟨Double.equal_symm, Double.equal_symm⟩

theorem equal_trans {a b c : Number} (h : a.equal b = true) (k : b.equal c = true) :
    a.equal c = true := by
  cases a <;> cases b <;> cases c <;> simp_all [equal]
  exact Double.equal_trans h k

theorem equal_self {a : Number} (h : a.WellFormed) : a.equal a = true := by
  cases a with
  | integer n => exact beq_self_eq_true n
  | float x =>
    apply Double.equal_of_alike (Double.alike_refl x)
    rintro rfl
    cases h

theorem toDouble_alike {a b : Number} (h : a.equal b = true) :
    Double.Alike a.toDouble b.toDouble := by
  cases a <;> cases b <;> simp only [equal, Bool.false_eq_true] at h
  · rw [beq_iff_eq.mp h]
    exact Double.alike_refl _
  · exact Double.alike_of_equal h

theorem isFloat_eq {a b : Number} (h : a.equal b = true) : a.isFloat = b.isFloat := by
  cases a <;> cases b <;> simp_all [equal, isFloat]

theorem signed?_eq {a b : Number} (h : a.equal b = true) : a.signed? = b.signed? := by
  cases a <;> cases b <;> simp_all [equal, signed?]

theorem unsigned?_eq {a b : Number} (h : a.equal b = true) : a.unsigned? = b.unsigned? := by
  cases a <;> cases b <;> simp_all [equal, unsigned?]

theorem same_congr {a b c d : Number} (h : a.equal b = true) (k : c.equal d = true) :
    a.same c = b.same d := by
  simp only [same, isFloat_eq h, isFloat_eq k, signed?_eq h, signed?_eq k, unsigned?_eq h,
    unsigned?_eq k, Double.equal_alike (toDouble_alike h) (toDouble_alike k)]

end Number

namespace Json

mutual

theorem equal_comm : ∀ x y : Json, x.equal y = y.equal x
  | .null, y => by cases y <;> rfl
  | .bool a, y => by cases y <;> simp only [equal, BEq.comm]
  | .number a, y => by cases y <;> simp only [equal, Number.equal_comm]
  | .string a, y => by cases y <;> simp only [equal, BEq.comm]
  | .list as, y => by
    cases y with
    | list bs => exact equalItems_comm as bs
    | _ => rfl
  | .object as, y => by
    cases y with
    | object bs => exact equalMembers_comm as bs
    | _ => rfl

theorem equalItems_comm : ∀ xs ys : List Json, equalItems xs ys = equalItems ys xs
  | [], ys => by cases ys <;> rfl
  | x :: xs, [] => rfl
  | x :: xs, y :: ys => by simp only [equalItems, equal_comm x y, equalItems_comm xs ys]

theorem equalMembers_comm : ∀ xs ys : List (String × Json), equalMembers xs ys = equalMembers ys xs
  | [], ys => by cases ys <;> rfl
  | x :: xs, [] => rfl
  | (k, x) :: xs, (l, y) :: ys => by
    simp only [equalMembers, equal_comm x y, equalMembers_comm xs ys, BEq.comm (a := k)]

end

mutual

theorem equal_trans : ∀ {x y z : Json}, x.equal y = true → y.equal z = true → x.equal z = true
  | .null, y, z, h, k => by cases y <;> cases z <;> simp_all [equal]
  | .bool a, y, z, h, k => by cases y <;> cases z <;> simp_all [equal]
  | .number a, y, z, h, k => by
    cases y <;> cases z <;> simp only [equal, Bool.false_eq_true] at h k ⊢
    exact Number.equal_trans h k
  | .string a, y, z, h, k => by cases y <;> cases z <;> simp_all [equal]
  | .list as, y, z, h, k => by
    cases y <;> cases z <;> simp only [equal, Bool.false_eq_true] at h k ⊢
    exact equalItems_trans h k
  | .object as, y, z, h, k => by
    cases y <;> cases z <;> simp only [equal, Bool.false_eq_true] at h k ⊢
    exact equalMembers_trans h k

theorem equalItems_trans : ∀ {xs ys zs : List Json}, equalItems xs ys = true →
    equalItems ys zs = true → equalItems xs zs = true
  | [], ys, zs, h, k => by cases ys <;> cases zs <;> simp_all [equalItems]
  | x :: xs, ys, zs, h, k => by
    cases ys <;> cases zs <;>
      simp only [equalItems, Bool.and_eq_true, Bool.false_eq_true] at h k ⊢
    exact ⟨equal_trans h.1 k.1, equalItems_trans h.2 k.2⟩

theorem equalMembers_trans : ∀ {xs ys zs : List (String × Json)}, equalMembers xs ys = true →
    equalMembers ys zs = true → equalMembers xs zs = true
  | [], ys, zs, h, k => by cases ys <;> cases zs <;> simp_all [equalMembers]
  | (l, x) :: xs, ys, zs, h, k => by
    cases ys <;> cases zs <;>
      simp only [equalMembers, Bool.and_eq_true, Bool.false_eq_true, beq_iff_eq] at h k ⊢
    exact ⟨⟨h.1.1.trans k.1.1, equal_trans h.1.2 k.1.2⟩, equalMembers_trans h.2 k.2⟩

end

mutual

theorem equal_self : ∀ {x : Json}, x.WellFormed → x.equal x = true
  | .null, _ => rfl
  | .bool a, _ => beq_self_eq_true a
  | .number _, h => Number.equal_self h
  | .string a, _ => beq_self_eq_true a
  | .list _, h => equalItems_self h
  | .object _, h => equalMembers_self h.2

theorem equalItems_self : ∀ {xs : List Json}, WellFormedItems xs → equalItems xs xs = true
  | [], _ => rfl
  | x :: xs, h => by
    simp only [equalItems, equal_self h.1, equalItems_self h.2, Bool.and_self]

theorem equalMembers_self : ∀ {xs : List (String × Json)}, WellFormedMembers xs →
    equalMembers xs xs = true
  | [], _ => rfl
  | (k, x) :: xs, h => by
    simp only [equalMembers, equal_self h.1, equalMembers_self h.2, beq_self_eq_true,
      Bool.and_self]

end

theorem equal_congr {x y v w : Json} (h : x.equal y = true) (k : v.equal w = true) :
    x.equal v = y.equal w := by
  apply Bool.eq_iff_iff.mpr
  constructor
  · intro hxv
    exact equal_trans (equal_trans (equal_comm x y ▸ h) hxv) k
  · intro hyw
    exact equal_trans (equal_trans h hyw) (equal_comm v w ▸ k)

theorem meets_congr {x y v w : Json} (h : x.equal y = true) (k : v.equal w = true) :
    x.meets v = y.meets w := by
  have he := equal_congr h k
  cases x <;> cases y <;> simp only [equal, Bool.false_eq_true] at h <;>
    cases v <;> cases w <;> simp only [equal, Bool.false_eq_true] at k <;>
    first | exact Number.same_congr h k | exact he

theorem ofDouble_equal {x y : Double} (h : Double.Alike x y) :
    (ofDouble x).equal (ofDouble y) = true := by
  have hf : x.isFinite = y.isFinite := Double.eq_of_alike (fun _ _ => rfl) h
  unfold ofDouble
  rw [← hf]
  cases hx : x.isFinite with
  | true =>
    apply Double.equal_of_alike h
    rintro rfl
    cases hx
  | false => rfl

theorem signed?_eq {x y : Json} (h : x.equal y = true) : x.signed? = y.signed? := by
  cases x <;> cases y <;> simp only [equal, Bool.false_eq_true] at h <;> try rfl
  rename_i a b
  cases a <;> cases b <;> simp_all [Number.equal, signed?]

/-- The doubles of equal values are alike, if they are numbers at all. -/
theorem double?_alike {x y : Json} (h : x.equal y = true) :
    (x.double? = none ∧ y.double? = none) ∨
      ∃ a b, x.double? = some a ∧ y.double? = some b ∧ Double.Alike a b := by
  cases x <;> cases y <;> simp only [equal, Bool.false_eq_true] at h <;>
    first
    | exact .inl ⟨rfl, rfl⟩
    | exact .inr ⟨_, _, rfl, rfl, Number.toDouble_alike h⟩

theorem any_double?_eq {x y : Json} {p q : Double → Bool} (h : x.equal y = true)
    (hpq : ∀ a b, Double.Alike a b → p a = q b) : x.double?.any p = y.double?.any q := by
  rcases double?_alike h with ⟨hx, hy⟩ | ⟨a, b, hx, hy, hab⟩
  · rw [hx, hy]
    rfl
  · rw [hx, hy]
    exact hpq a b hab

theorem arithmetic_equal {x y : Json} {f g : Int → Option Int} {p q : Double → Double}
    (h : x.equal y = true) (hfg : f = g)
    (hpq : ∀ a b, Double.Alike a b → Double.Alike (p a) (q b)) :
    (x.arithmetic f p).equal (y.arithmetic g q) = true := by
  subst hfg
  unfold arithmetic
  rw [← signed?_eq h]
  cases x.signed?.bind f with
  | some n => exact beq_self_eq_true n
  | none =>
    rcases double?_alike h with ⟨hx, hy⟩ | ⟨a, b, hx, hy, hab⟩
    · rw [hx, hy]
      rfl
    · rw [hx, hy]
      exact ofDouble_equal (hpq a b hab)

theorem negated_equal {x y : Json} (h : x.equal y = true) :
    x.negated.equal y.negated = true :=
  arithmetic_equal h rfl fun _ _ => Double.negate_alike

theorem scaled_equal {x y : Json} {a b : Double} (h : x.equal y = true) (k : a.equal b = true) :
    (x.scaled a).equal (y.scaled b) = true := by
  have hab := Double.alike_of_equal k
  exact arithmetic_equal h (by rw [Double.exactInt?_alike hab])
    fun _ _ hc => Double.mul_alike hc hab

theorem shifted_equal {x y : Json} {a b : Double} (h : x.equal y = true) (k : a.equal b = true) :
    (x.shifted a).equal (y.shifted b) = true := by
  have hab := Double.alike_of_equal k
  exact arithmetic_equal h (by rw [Double.exactInt?_alike hab])
    fun _ _ hc => Double.add_alike hc hab

end Json

end FirstMatch
