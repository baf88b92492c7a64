import FirstMatch.Proofs.Double.ExactInteger
import FirstMatch.Proofs.Json.RoundTrip
import FirstMatch.Table.Evaluation

/-!
Arithmetic on numbers. A result is whole exactly where the number, the parameter and the exact
result are whole numbers of 64 signed bits, and then it is the exact result. Any other result is
that of the operation on doubles, and null where this is not finite or where there is no number.
-/

namespace FirstMatch

inductive Arithmetic where
  | negate
  | scale (factor : Double)
  | offset (amount : Double)
  deriving DecidableEq, Repr

namespace Arithmetic

def action : Arithmetic → Action
  | .negate => .negate
  | .scale factor => .scale factor
  | .offset amount => .offset amount

def onDouble : Arithmetic → Double → Double
  | .negate => Double.negate
  | .scale factor => (·.mul factor)
  | .offset amount => (·.add amount)

def whole? : Arithmetic → Int → Option Int
  | .negate => fun n => fitSigned? (-n)
  | .scale factor => fun n => factor.exactInt?.bind fun k => fitSigned? (n * k)
  | .offset amount => fun n => amount.exactInt?.bind fun k => fitSigned? (n + k)

/-- The parameter is whole, and the exact result for the whole number `n` is `k`. -/
def Exact : Arithmetic → Int → Int → Prop
  | .negate, n, k => k = -n
  | .scale factor, n, k => ∃ f, factor.IsWhole f ∧ k = n * f
  | .offset amount, n, k => ∃ m, amount.IsWhole m ∧ k = n + m

def ParameterFits : Arithmetic → Prop
  | .negate => True
  | .scale parameter | .offset parameter => ∃ p, parameter.IsWhole p ∧ FitsSigned p

/-- The whole number `k` is the answer for `n`: nothing in the exact operation leaves the range of
64 signed bits. -/
structure WholeAnswer (a : Arithmetic) (n k : Int) : Prop where
  exact : a.Exact n k
  input : FitsSigned n
  parameter : a.ParameterFits
  result : FitsSigned k

def Answers (a : Arithmetic) (x : Json) (k : Int) : Prop :=
  ∃ n, x = Number.ofInt n ∧ a.WholeAnswer n k

variable {a : Arithmetic} {x : Json} {n k : Int}

theorem apply_action (a : Arithmetic) (x : Json) :
    a.action.apply x = x.arithmetic a.whole? a.onDouble := by
  cases a <;> simp only [action, Action.apply, Json.negated, Json.scaled, Json.shifted, whole?,
    onDouble]

theorem bind_exactInt?_eq_some_iff {parameter : Double} {f : Int → Int} :
    (parameter.exactInt?.bind fun p => fitSigned? (f p)) = some k ↔
      (∃ p, parameter.IsWhole p ∧ k = f p) ∧ (∃ p, parameter.IsWhole p ∧ FitsSigned p) ∧
        FitsSigned k := by
  rw [Option.bind_eq_some_iff]
  constructor
  · rintro ⟨p, hp, hk⟩
    obtain ⟨hwhole, hfits⟩ := Double.exactInt?_eq_some_iff.mp hp
    obtain ⟨rfl, hresult⟩ := fitSigned?_eq_some_iff.mp hk
    exact ⟨⟨p, hwhole, rfl⟩, ⟨p, hwhole, hfits⟩, hresult⟩
  · rintro ⟨⟨p, hwhole, rfl⟩, ⟨q, hq, hfits⟩, hresult⟩
    obtain rfl := hq.unique hwhole
    exact ⟨q, Double.exactInt?_eq_some_iff.mpr ⟨hwhole, hfits⟩,
      fitSigned?_eq_some_iff.mpr ⟨rfl, hresult⟩⟩

theorem whole?_eq_some_iff :
    a.whole? n = some k ↔ a.Exact n k ∧ a.ParameterFits ∧ FitsSigned k := by
  cases a with
  | negate =>
    rw [whole?, fitSigned?_eq_some_iff]
    exact ⟨fun h => ⟨h.1.symm, trivial, h.2⟩, fun h => ⟨h.1.symm, h.2.2⟩⟩
  | scale factor => exact bind_exactInt?_eq_some_iff
  | offset amount => exact bind_exactInt?_eq_some_iff

theorem signed?_eq_some_iff : x.signed? = some n ↔ x = Number.ofInt n ∧ FitsSigned n := by
  constructor
  · intro h
    unfold Json.signed? at h
    split at h
    · obtain ⟨rfl, hfits⟩ := fitSigned?_eq_some_iff.mp h
      exact ⟨rfl, hfits⟩
    · cases h
  · rintro ⟨rfl, hfits⟩
    exact fitSigned?_eq_some_iff.mpr ⟨rfl, hfits⟩

theorem bind_whole?_eq_some_iff : x.signed?.bind a.whole? = some k ↔ a.Answers x k := by
  rw [Option.bind_eq_some_iff]
  constructor
  · rintro ⟨n, hn, hk⟩
    obtain ⟨rfl, hinput⟩ := signed?_eq_some_iff.mp hn
    obtain ⟨hexact, hparameter, hresult⟩ := whole?_eq_some_iff.mp hk
    exact ⟨n, rfl, hexact, hinput, hparameter, hresult⟩
  · rintro ⟨n, rfl, h⟩
    exact ⟨n, signed?_eq_some_iff.mpr ⟨rfl, h.input⟩,
      whole?_eq_some_iff.mpr ⟨h.exact, h.parameter, h.result⟩⟩

theorem apply_of_answers (h : a.Answers x k) : a.action.apply x = Number.ofInt k := by
  rw [apply_action, Json.arithmetic, bind_whole?_eq_some_iff.mpr h]

theorem apply_of_no_answer {m : Number} (h : ∀ k, ¬ a.Answers (.number m) k) :
    a.action.apply (.number m) = .ofDouble (a.onDouble m.toDouble) := by
  have hnone : (Json.number m).signed?.bind a.whole? = none :=
    Option.eq_none_iff_forall_ne_some.mpr fun k hk => h k (bind_whole?_eq_some_iff.mp hk)
  simp only [apply_action, Json.arithmetic, hnone, Json.double?]

theorem apply_of_no_number (h : ∀ m, x ≠ .number m) : a.action.apply x = .null := by
  rw [apply_action]
  cases x with
  | number m => exact absurd rfl (h m)
  | _ => rfl

/-- What arithmetic makes of a value. -/
inductive Outcome (a : Arithmetic) (x : Json) : Json → Prop where
  | whole (k : Int) (answers : a.Answers x k) : Outcome a x (Number.ofInt k)
  | float (m : Number) (number : x = .number m) (unanswered : ∀ k, ¬ a.Answers x k)
      (finite : (a.onDouble m.toDouble).isFinite = true) :
      Outcome a x (.number (.float (a.onDouble m.toDouble)))
  | notFinite (m : Number) (number : x = .number m) (unanswered : ∀ k, ¬ a.Answers x k)
      (notFinite : ¬ (a.onDouble m.toDouble).isFinite = true) : Outcome a x .null
  | noNumber (noNumber : ∀ m, x ≠ .number m) : Outcome a x .null

theorem outcome_apply (a : Arithmetic) (x : Json) : Outcome a x (a.action.apply x) := by
  by_cases hanswer : ∃ k, a.Answers x k
  · obtain ⟨k, hk⟩ := hanswer
    rw [apply_of_answers hk]
    exact .whole k hk
  · have hnone : ∀ k, ¬ a.Answers x k := not_exists.mp hanswer
    by_cases hnumber : ∃ m, x = .number m
    · obtain ⟨m, rfl⟩ := hnumber
      rw [apply_of_no_answer hnone]
      by_cases hfinite : (a.onDouble m.toDouble).isFinite = true
      · rw [Json.ofDouble_eq hfinite]
        exact .float m rfl hnone hfinite
      · rw [Json.ofDouble_eq_null hfinite]
        exact .notFinite m rfl hnone hfinite
    · have hno : ∀ m, x ≠ .number m := not_exists.mp hnumber
      rw [apply_of_no_number hno]
      exact .noNumber hno

theorem outcome_of_apply {y : Json} (h : a.action.apply x = y) : Outcome a x y := by
  rw [← h]
  exact outcome_apply a x

theorem apply_eq_ofInt_iff : a.action.apply x = Number.ofInt k ↔ a.Answers x k := by
  refine ⟨fun h => ?_, apply_of_answers⟩
  have houtcome := outcome_of_apply h
  cases houtcome with
  | whole _ answers => exact answers

theorem apply_eq_float_iff {y : Double} :
    a.action.apply x = .number (.float y) ↔
      (∀ k, ¬ a.Answers x k) ∧ y.isFinite = true ∧
        ∃ m, x = .number m ∧ a.onDouble m.toDouble = y := by
  constructor
  · intro h
    have houtcome := outcome_of_apply h
    cases houtcome with
    | float m number unanswered finite => exact ⟨unanswered, finite, m, number, rfl⟩
  · rintro ⟨hnone, hfinite, m, rfl, rfl⟩
    rw [apply_of_no_answer hnone, Json.ofDouble_eq hfinite]

theorem apply_eq_null_iff :
    a.action.apply x = .null ↔
      (∀ m, x ≠ .number m) ∨
        (∀ k, ¬ a.Answers x k) ∧
          ∃ m, x = .number m ∧ ¬ (a.onDouble m.toDouble).isFinite = true := by
  constructor
  · intro h
    have houtcome := outcome_of_apply h
    cases houtcome with
    | noNumber hno => exact .inl hno
    | notFinite m number unanswered notFinite => exact .inr ⟨unanswered, m, number, notFinite⟩
  · rintro (hno | ⟨hnone, m, rfl, hinfinite⟩)
    · exact apply_of_no_number hno
    · rw [apply_of_no_answer hnone, Json.ofDouble_eq_null hinfinite]

theorem apply_wellFormed (a : Arithmetic) (x : Json) : (a.action.apply x).WellFormed := by
  have houtcome := outcome_apply a x
  generalize a.action.apply x = y at houtcome
  cases houtcome with
  | whole k answers =>
    obtain ⟨n, -, h⟩ := answers
    exact ⟨h.result.1, Int.lt_trans h.result.2 (by decide)⟩
  | float m number unanswered finite => exact finite
  | _ => trivial

/-- Where the exact result fits 64 signed bits, the operation on doubles does not overflow. -/
theorem onDouble_isFinite (hn : -2 ^ 63 ≤ n ∧ n < 2 ^ 64) (h : a.Exact n k) (hk : FitsSigned k) :
    (a.onDouble (.ofInt n)).isFinite = true := by
  unfold FitsSigned at hk
  have hbits : n.natAbs ≤ 2 ^ 64 := by omega
  cases a with
  | negate => exact Double.negate_isFinite (Double.ofInt_isFinite hbits)
  | scale factor =>
    obtain ⟨f, hf, rfl⟩ := h
    by_cases hzero : n = 0
    · obtain ⟨negative, q, rfl, -⟩ := hf.eq_finite
      subst hzero
      simp only [onDouble, Double.ofInt, Int.natAbs_zero, Nat.zero_mul, Double.round_zero,
        Double.mul, Magnitude.units_zero]
      rfl
    · have hle : f.natAbs ≤ (n * f).natAbs := by
        rw [Int.natAbs_mul]
        exact Nat.le_mul_of_pos_left _ (Int.natAbs_pos.mpr hzero)
      exact Double.ofInt_mul_isFinite hbits hf (by omega)
  | offset amount =>
    obtain ⟨m, hm, rfl⟩ := h
    exact Double.ofInt_add_isFinite hbits hm (by omega)

theorem answers_ofInt_iff : a.Answers (Number.ofInt n) k ↔ a.WholeAnswer n k := by
  constructor
  · rintro ⟨m, hm, h⟩
    obtain rfl : n = m := Number.integer.inj (Json.number.inj hm)
    exact h
  · intro h
    exact ⟨n, rfl, h⟩

theorem apply_of_operand_beyond (hn : -2 ^ 63 ≤ n ∧ n < 2 ^ 64) (h : a.Exact n k)
    (hk : FitsSigned k) (hbeyond : ¬ (FitsSigned n ∧ a.ParameterFits)) :
    a.action.apply (Number.ofInt n) = .number (.float (a.onDouble (.ofInt n))) := by
  have hnone : ∀ j, ¬ a.Answers (Number.ofInt n) j := by
    intro j hj
    have hanswer := answers_ofInt_iff.mp hj
    exact hbeyond ⟨hanswer.input, hanswer.parameter⟩
  exact apply_eq_float_iff.mpr ⟨hnone, onDouble_isFinite hn h hk, .integer n, rfl, rfl⟩

/-- A number and a parameter that fit 64 signed bits, with an exact result that fits them too, give
that result as a whole number. A number or a parameter out of this range gives a float, even if the
exact result fits. -/
theorem exact_result_whole_iff (hn : -2 ^ 63 ≤ n ∧ n < 2 ^ 64) (h : a.Exact n k)
    (hk : FitsSigned k) :
    (a.action.apply (Number.ofInt n) = Number.ofInt k ↔ FitsSigned n ∧ a.ParameterFits) ∧
    (¬ (FitsSigned n ∧ a.ParameterFits) →
      a.action.apply (Number.ofInt n) = .number (.float (a.onDouble (.ofInt n)))) := by
  refine ⟨?_, apply_of_operand_beyond hn h hk⟩
  rw [apply_eq_ofInt_iff, answers_ofInt_iff]
  constructor
  · intro hanswer
    exact ⟨hanswer.input, hanswer.parameter⟩
  · rintro ⟨hinput, hparameter⟩
    exact ⟨h, hinput, hparameter, hk⟩

/-- The least number of 64 signed bits, as a product. -/
theorem least_product_whole :
    (Arithmetic.scale (.ofInt (-2 ^ 31))).Exact (2 ^ 32) (-2 ^ 63) ∧ FitsSigned (-2 ^ 63) ∧
    (Arithmetic.scale (.ofInt (-2 ^ 31))).action.apply (Number.ofInt (2 ^ 32)) =
      Number.ofInt (-2 ^ 63) := by
  have hfactor : (Double.ofInt (-2 ^ 31)).IsWhole (-2 ^ 31) := Double.isWhole_ofInt (by decide)
  have hexact : (Arithmetic.scale (.ofInt (-2 ^ 31))).Exact (2 ^ 32) (-2 ^ 63) :=
    ⟨-2 ^ 31, hfactor, by decide⟩
  have hparameter : (Arithmetic.scale (.ofInt (-2 ^ 31))).ParameterFits :=
    ⟨-2 ^ 31, hfactor, by decide⟩
  refine ⟨hexact, by decide, ?_⟩
  exact (exact_result_whole_iff (by decide) hexact (by decide)).1.mpr ⟨by decide, hparameter⟩

/-- One less than 2^63 fits 64 signed bits, but 2^63 does not: the result is the float 2^63. -/
theorem predecessor_not_whole :
    (Number.integer (2 ^ 63)).WellFormed ∧
    (Arithmetic.offset (.ofInt (-1))).Exact (2 ^ 63) (2 ^ 63 - 1) ∧ FitsSigned (2 ^ 63 - 1) ∧
    (Arithmetic.offset (.ofInt (-1))).action.apply (Number.ofInt (2 ^ 63)) =
      .number (.float (.ofInt (2 ^ 63))) := by
  have hexact : (Arithmetic.offset (.ofInt (-1))).Exact (2 ^ 63) (2 ^ 63 - 1) :=
    ⟨-1, Double.isWhole_ofInt (by decide), by decide⟩
  have hsum : (Double.ofInt (2 ^ 63)).add (.ofInt (-1)) = .ofInt (2 ^ 63) := by decide +kernel
  have hfloat := apply_of_operand_beyond (by decide) hexact (by decide)
    fun h => absurd h.1 (by decide)
  refine ⟨by decide, hexact, by decide, ?_⟩
  rw [hfloat]
  exact congrArg (fun y => Json.number (.float y)) hsum

end Arithmetic

namespace Action

mutual

def ConstantsWellFormed : Action → Prop
  | .constant v => v.WellFormed
  | .chain steps => ConstantsWellFormedList steps
  | .identity | .null | .negate | .scale _ | .offset _ | .stringify => True

def ConstantsWellFormedList : List Action → Prop
  | [] => True
  | step :: steps => step.ConstantsWellFormed ∧ ConstantsWellFormedList steps

end

mutual

theorem apply_wellFormed : ∀ (t : Action) {x : Json}, t.ConstantsWellFormed → x.WellFormed →
    (t.apply x).WellFormed
  | .identity, _, _, hx => hx
  | .null, _, _, _ => trivial
  | .constant _, _, h, _ => h
  | .negate, x, _, _ => Arithmetic.negate.apply_wellFormed x
  | .scale factor, x, _, _ => (Arithmetic.scale factor).apply_wellFormed x
  | .offset amount, x, _, _ => (Arithmetic.offset amount).apply_wellFormed x
  | .stringify, x, _, _ => by
    simp only [apply, Json.stringified]
    split <;> trivial
  | .chain steps, _, h, hx => applyAll_wellFormed steps h hx

theorem applyAll_wellFormed : ∀ (steps : List Action) {x : Json}, ConstantsWellFormedList steps →
    x.WellFormed → (applyAll steps x).WellFormed
  | [], _, _, hx => hx
  | step :: steps, _, h, hx => applyAll_wellFormed steps h.2 (apply_wellFormed step h.1 hx)

end

end Action

/-- Arithmetic on any value gives a whole number, a float or null. It gives a whole number exactly
when this is the answer of the exact operation, with nothing out of the range of 64 signed bits, and
reading the digits of this number gives the same value. It gives a float exactly when there is no
such answer and the operation on doubles has this finite result, and null exactly when there is no
number or neither has a result. What an action makes of a well-formed value therefore has finite
floats only, whatever its factors and amounts are. -/
theorem arithmetic_sound (a : Arithmetic) (x : Json) :
    ((∃ k, a.action.apply x = Number.ofInt k) ∨ (∃ y, a.action.apply x = .number (.float y)) ∨
      a.action.apply x = .null) ∧
    (∀ k, a.action.apply x = Number.ofInt k ↔ ∃ n, x = Number.ofInt n ∧ a.WholeAnswer n k) ∧
    (∀ k, a.action.apply x = Number.ofInt k →
      Json.ofText? (toString k) = .ok (a.action.apply x)) ∧
    (∀ y, a.action.apply x = .number (.float y) ↔
      (∀ k, ¬ a.Answers x k) ∧ y.isFinite = true ∧
        ∃ m, x = .number m ∧ a.onDouble m.toDouble = y) ∧
    (a.action.apply x = .null ↔
      (∀ m, x ≠ .number m) ∨
        (∀ k, ¬ a.Answers x k) ∧
          ∃ m, x = .number m ∧ ¬ (a.onDouble m.toDouble).isFinite = true) ∧
    (∀ t : Action, t.ConstantsWellFormed → x.WellFormed →
      (t.apply x).WellFormed ∧ ∀ y ∈ (t.apply x).floats, y.isFinite = true) := by
  refine ⟨?_, fun k => Arithmetic.apply_eq_ofInt_iff, ?_, fun y => Arithmetic.apply_eq_float_iff,
    Arithmetic.apply_eq_null_iff, ?_⟩
  · have houtcome := a.outcome_apply x
    generalize a.action.apply x = r at houtcome
    cases houtcome with
    | whole k answers => exact .inl ⟨k, rfl⟩
    | float m number unanswered finite => exact .inr (.inl ⟨_, rfl⟩)
    | _ => exact .inr (.inr rfl)
  · intro k h
    have hwell := a.apply_wellFormed x
    rw [h] at hwell ⊢
    exact Json.ofText?_toString hwell
  · intro t ht hx
    have hwell := t.apply_wellFormed ht hx
    exact ⟨hwell, hwell.isFinite⟩

/-- Steps with factors and amounts that are no numbers, and a constant with a float in it. -/
def overflowing : Action :=
  .chain [.scale (.infinite true), .offset .nan,
    .chain [.constant (.list [Number.ofInt 5, .number (.float (.ofInt 2))]), .negate], .identity]

theorem doubled_sound :
    (Arithmetic.scale (.ofInt (-2))).action.apply (Number.ofInt 5) = Number.ofInt (-10) ∧
    Json.ofText? (toString (-10 : Int)) = .ok (Number.ofInt (-10)) ∧
    overflowing.ConstantsWellFormed ∧ (Number.ofInt 5).WellFormed ∧
    ∀ y ∈ (overflowing.apply (Number.ofInt 5)).floats, y.isFinite = true := by
  obtain ⟨-, hwhole, htext, -, -, hfinite⟩ :=
    arithmetic_sound (.scale (.ofInt (-2))) (Number.ofInt 5)
  have hfactor : (Double.ofInt (-2)).IsWhole (-2) := Double.isWhole_ofInt (by decide)
  have hout := (hwhole (-10)).mpr
    ⟨5, rfl, ⟨-2, hfactor, by decide⟩, by decide, ⟨-2, hfactor, by decide⟩, by decide⟩
  have hfive : (Number.ofInt 5).WellFormed := by
    change Number.WellFormed (.integer 5)
    decide
  have htwo : (Json.number (.float (.ofInt 2))).WellFormed := Double.ofInt_isFinite (by decide)
  have hconstants : overflowing.ConstantsWellFormed :=
    ⟨trivial, trivial, ⟨⟨hfive, htwo, trivial⟩, trivial, trivial⟩, trivial, trivial⟩
  refine ⟨hout, ?_, hconstants, hfive, (hfinite overflowing hconstants hfive).2⟩
  rw [htext (-10) hout, hout]

end FirstMatch
