import FirstMatch.Proofs.Json.Equality
import FirstMatch.Proofs.Output

/-!
Equal tables. They select the same rule for equal values, and what they give differs at most in
the sign of a zero. That sign is lost on every operation but one: a text shows it.
-/

namespace FirstMatch

/-- Equal, or the texts of equal values. -/
def Json.Similar (x y : Json) : Prop :=
  x.equal y = true ∨ ∃ v w : Json, v.equal w = true ∧ x = .string v.text ∧ y = .string w.text

namespace Condition

mutual

theorem test_congr : ∀ {c d : Condition} {x y : Json}, c.equal d = true → x.equal y = true →
    c.test x = d.test y
  | .always, d, x, y, h, _ => by cases d <;> simp_all [equal, test]
  | .never, d, x, y, h, _ => by cases d <;> simp_all [equal, test]
  | .isNull, d, x, y, h, hx => by
    cases d <;> simp only [equal, Bool.false_eq_true] at h
    cases x <;> cases y <;> simp_all [Json.equal, test, Json.isNull]
  | .isNumber, d, x, y, h, hx => by
    cases d <;> simp only [equal, Bool.false_eq_true] at h
    cases x <;> cases y <;> simp_all [Json.equal, test, Json.isNumber]
  | .isString, d, x, y, h, hx => by
    cases d <;> simp only [equal, Bool.false_eq_true] at h
    cases x <;> cases y <;> simp_all [Json.equal, test, Json.isString]
  | .equals v, d, x, y, h, hx => by
    cases d <;> simp only [equal, Bool.false_eq_true] at h
    exact Json.meets_congr hx h
  | .lessThan a, d, x, y, h, hx => by
    cases d <;> simp only [equal, Bool.false_eq_true] at h
    exact Json.any_double?_eq hx fun _ _ k => Double.less_alike k (Double.alike_of_equal h)
  | .greaterThan a, d, x, y, h, hx => by
    cases d <;> simp only [equal, Bool.false_eq_true] at h
    exact Json.any_double?_eq hx fun _ _ k => Double.less_alike (Double.alike_of_equal h) k
  | .not c, d, x, y, h, hx => by
    cases d <;> simp only [equal, Bool.false_eq_true] at h
    simp only [test, test_congr h hx]
  | .all cs, d, x, y, h, hx => by
    cases d <;> simp only [equal, Bool.false_eq_true] at h
    exact testAll_congr h hx
  | .any cs, d, x, y, h, hx => by
    cases d <;> simp only [equal, Bool.false_eq_true] at h
    exact testAny_congr h hx

theorem testAll_congr : ∀ {cs ds : List Condition} {x y : Json}, equalList cs ds = true →
    x.equal y = true → testAll cs x = testAll ds y
  | [], ds, x, y, h, _ => by cases ds <;> simp_all [equalList, testAll]
  | c :: cs, ds, x, y, h, hx => by
    cases ds <;> simp only [equalList, Bool.and_eq_true, Bool.false_eq_true] at h
    simp only [testAll, test_congr h.1 hx, testAll_congr h.2 hx]

theorem testAny_congr : ∀ {cs ds : List Condition} {x y : Json}, equalList cs ds = true →
    x.equal y = true → testAny cs x = testAny ds y
  | [], ds, x, y, h, _ => by cases ds <;> simp_all [equalList, testAny]
  | c :: cs, ds, x, y, h, hx => by
    cases ds <;> simp only [equalList, Bool.and_eq_true, Bool.false_eq_true] at h
    simp only [testAny, test_congr h.1 hx, testAny_congr h.2 hx]

end

mutual

theorem depth_eq : ∀ {c d : Condition}, c.equal d = true → c.depth = d.depth
  | .not c, d, h => by
    cases d <;> simp only [equal, Bool.false_eq_true] at h
    simp only [depth, depth_eq h]
  | .all cs, d, h => by
    cases d <;> simp only [equal, Bool.false_eq_true] at h
    simp only [depth, depthList_eq h]
  | .any cs, d, h => by
    cases d <;> simp only [equal, Bool.false_eq_true] at h
    simp only [depth, depthList_eq h]
  | .always, d, h | .never, d, h | .isNull, d, h | .isNumber, d, h | .isString, d, h
  | .equals _, d, h | .lessThan _, d, h | .greaterThan _, d, h => by
    cases d <;> simp only [equal, Bool.false_eq_true] at h
    rfl

theorem depthList_eq : ∀ {cs ds : List Condition}, equalList cs ds = true →
    depthList cs = depthList ds
  | [], ds, h => by cases ds <;> simp_all [equalList, depthList]
  | c :: cs, ds, h => by
    cases ds <;> simp only [equalList, Bool.and_eq_true, Bool.false_eq_true] at h
    simp only [depthList, depth_eq h.1, depthList_eq h.2]

end

end Condition

namespace Json

/-- A relation that equal values stand in and that arithmetic keeps. -/
structure Kept (R : Json → Json → Prop) : Prop where
  of_equal : ∀ {x y}, x.equal y = true → R x y
  negated : ∀ {x y}, R x y → R x.negated y.negated
  scaled : ∀ {x y a b}, R x y → a.equal b = true → R (x.scaled a) (y.scaled b)
  shifted : ∀ {x y a b}, R x y → a.equal b = true → R (x.shifted a) (y.shifted b)

theorem equal_kept : Kept fun x y => x.equal y = true :=
  ⟨id, negated_equal, scaled_equal, shifted_equal⟩

theorem similar_kept : Kept Similar where
  of_equal := .inl
  negated := by
    rintro x y (h | ⟨v, w, _, rfl, rfl⟩)
    · exact .inl (negated_equal h)
    · exact .inl rfl
  scaled := by
    rintro x y a b (h | ⟨v, w, _, rfl, rfl⟩) k
    · exact .inl (scaled_equal h k)
    · exact .inl rfl
  shifted := by
    rintro x y a b (h | ⟨v, w, _, rfl, rfl⟩) k
    · exact .inl (shifted_equal h k)
    · exact .inl rfl

theorem stringified_similar {x y : Json} (h : x.Similar y) :
    x.stringified.Similar y.stringified := by
  rcases h with h | ⟨v, w, hvw, rfl, rfl⟩
  · have hs := h
    cases x <;> cases y <;> simp only [equal, Bool.false_eq_true] at hs <;>
      first
      | exact .inr ⟨_, _, h, rfl, rfl⟩
      | exact .inl h
  · exact .inr ⟨v, w, hvw, rfl, rfl⟩

end Json

namespace Action

mutual

def writesText : Action → Bool
  | .stringify => true
  | .chain steps => writesTextList steps
  | _ => false

def writesTextList : List Action → Bool
  | [] => false
  | a :: as => a.writesText || writesTextList as

end

mutual

theorem apply_kept {R : Json → Json → Prop} (K : Json.Kept R) : ∀ {a b : Action} {x y : Json},
    a.equal b = true → (a.writesText = true → ∀ x y, R x y → R x.stringified y.stringified) →
    R x y → R (a.apply x) (b.apply y)
  | .identity, b, x, y, h, _, hx => by cases b <;> simp_all [equal, apply]
  | .null, b, x, y, h, _, _ => by
    cases b <;> simp only [equal, Bool.false_eq_true] at h
    exact K.of_equal rfl
  | .constant v, b, x, y, h, _, _ => by
    cases b <;> simp only [equal, Bool.false_eq_true] at h
    exact K.of_equal h
  | .negate, b, x, y, h, _, hx => by
    cases b <;> simp only [equal, Bool.false_eq_true] at h
    exact K.negated hx
  | .scale k, b, x, y, h, _, hx => by
    cases b <;> simp only [equal, Bool.false_eq_true] at h
    exact K.scaled hx h
  | .offset k, b, x, y, h, _, hx => by
    cases b <;> simp only [equal, Bool.false_eq_true] at h
    exact K.shifted hx h
  | .stringify, b, x, y, h, ht, hx => by
    cases b <;> simp only [equal, Bool.false_eq_true] at h
    exact ht rfl x y hx
  | .chain as, b, x, y, h, ht, hx => by
    cases b <;> simp only [equal, Bool.false_eq_true] at h
    exact applyAll_kept K h ht hx

theorem applyAll_kept {R : Json → Json → Prop} (K : Json.Kept R) :
    ∀ {as bs : List Action} {x y : Json}, equalList as bs = true →
    (writesTextList as = true → ∀ x y, R x y → R x.stringified y.stringified) →
    R x y → R (applyAll as x) (applyAll bs y)
  | [], bs, x, y, h, _, hx => by cases bs <;> simp_all [equalList, applyAll]
  | a :: as, bs, x, y, h, ht, hx => by
    cases bs <;> simp only [equalList, Bool.and_eq_true, Bool.false_eq_true] at h
    simp only [writesTextList, Bool.or_eq_true] at ht
    simp only [applyAll]
    exact applyAll_kept K h.2 (fun hw => ht (.inr hw))
      (apply_kept K h.1 (fun hw => ht (.inl hw)) hx)

end

mutual

theorem depth_eq : ∀ {a b : Action}, a.equal b = true → a.depth = b.depth
  | .chain as, b, h => by
    cases b <;> simp only [equal, Bool.false_eq_true] at h
    simp only [depth, depthList_eq h]
  | .identity, b, h | .null, b, h | .constant _, b, h | .negate, b, h | .scale _, b, h
  | .offset _, b, h | .stringify, b, h => by
    cases b <;> simp only [equal, Bool.false_eq_true] at h
    rfl

theorem depthList_eq : ∀ {as bs : List Action}, equalList as bs = true →
    depthList as = depthList bs
  | [], bs, h => by cases bs <;> simp_all [equalList, depthList]
  | a :: as, bs, h => by
    cases bs <;> simp only [equalList, Bool.and_eq_true, Bool.false_eq_true] at h
    simp only [depthList, depth_eq h.1, depthList_eq h.2]

end

end Action

namespace Table

def writesText (t : Table) : Bool :=
  (t.rules.any fun r => r.action.writesText) || t.fallback.any Action.writesText

theorem find?_congr {x y : Json} (hx : x.equal y = true) : ∀ {rs ss : List Rule},
    equalRules rs ss = true →
    (rs.find? (fun r => r.condition.test x) = none ∧
      ss.find? (fun s => s.condition.test y) = none) ∨
    ∃ r s, rs.find? (fun r => r.condition.test x) = some r ∧
      ss.find? (fun s => s.condition.test y) = some s ∧ r.equal s = true
  | [], ss, h => by cases ss <;> simp_all [equalRules]
  | r :: rs, ss, h => by
    cases ss with
    | nil => simp [equalRules] at h
    | cons s ss =>
      simp only [equalRules, Bool.and_eq_true] at h
      have hc := h.1
      simp only [Rule.equal, Bool.and_eq_true] at hc
      have ht := Condition.test_congr hc.1 hx
      simp only [List.find?_cons, ← ht]
      cases r.condition.test x with
      | true => exact .inr ⟨r, s, rfl, rfl, h.1⟩
      | false => exact find?_congr hx h.2

theorem output_kept {R : Json → Json → Prop} (K : Json.Kept R) {a b : Table} {x y : Json}
    (h : a.equal b = true)
    (ht : a.writesText = true → ∀ x y, R x y → R x.stringified y.stringified)
    (hx : x.equal y = true) : R (a.output x) (b.output y) := by
  simp only [equal, Bool.and_eq_true] at h
  simp only [writesText, Bool.or_eq_true] at ht
  unfold output
  rcases find?_congr hx h.1 with ⟨ha, hb⟩ | ⟨r, s, ha, hb, hrs⟩
  · rw [ha, hb]
    have hf := h.2
    cases hfa : a.fallback <;> cases hfb : b.fallback <;> rw [hfa, hfb] at hf <;>
      simp only [equalFallback, Bool.false_eq_true] at hf
    · exact K.of_equal rfl
    · exact Action.apply_kept K hf (fun hw => ht (.inr (by simpa [hfa] using hw)))
        (K.of_equal hx)
  · rw [ha, hb]
    simp only [Rule.equal, Bool.and_eq_true] at hrs
    have hr := List.mem_of_find?_eq_some ha
    exact Action.apply_kept K hrs.2
      (fun hw => ht (.inl (List.any_eq_true.mpr ⟨r, hr, hw⟩))) (K.of_equal hx)

theorem rulesDefect?_eq : ∀ {rs ss : List Rule} (start : Nat), equalRules rs ss = true →
    rulesDefect? start rs = rulesDefect? start ss
  | [], ss, start, h => by cases ss <;> simp_all [equalRules]
  | r :: rs, ss, start, h => by
    cases ss <;> simp only [equalRules, Rule.equal, Bool.and_eq_true, Bool.false_eq_true] at h
    simp only [rulesDefect?, Rule.defect?, Condition.depth_eq h.1.1, Action.depth_eq h.1.2,
      rulesDefect?_eq (start + 1) h.2]

theorem validate_eq {a b : Table} (h : a.equal b = true) : a.validate = b.validate := by
  simp only [equal, Bool.and_eq_true] at h
  have hf : fallbackDefect? a.fallback = fallbackDefect? b.fallback := by
    have hf := h.2
    cases hfa : a.fallback <;> cases hfb : b.fallback <;> rw [hfa, hfb] at hf <;>
      simp only [equalFallback, Bool.false_eq_true] at hf
    simp only [fallbackDefect?, Action.depth_eq hf]
  simp only [validate, defect?, rulesDefect?_eq 0 h.1, hf]

/-- Equal tables compile together, and what they make of one value is equal, unless they write
texts: then it may be the texts of two equal values. -/
theorem equal_tables_similar {a b : Table} (h : a.equal b = true) (hv : a.validate = .ok ())
    {x : Json} (hx : x.WellFormed) :
    ∃ d e y z, a.compile.result = .ok d ∧ b.compile.result = .ok e ∧
      (d.transform x).result = .ok y ∧ (e.transform x).result = .ok z ∧
      y.Similar z ∧ (a.writesText = false → y.equal z = true) := by
  refine ⟨a.dispatcher, b.dispatcher, a.output x, b.output x, result_compile hv,
    result_compile ((validate_eq h).symm.trans hv), result_transform_dispatcher a x,
    result_transform_dispatcher b x, ?_, ?_⟩
  · exact output_kept Json.similar_kept h (fun _ _ _ => Json.stringified_similar)
      (Json.equal_self hx)
  · intro hw
    exact output_kept Json.equal_kept h (fun ht => absurd (hw.symm.trans ht) Bool.false_ne_true)
      (Json.equal_self hx)

/-- A table that writes down a zero of this sign. -/
def zeroText (negative : Bool) : Table where
  rules := []
  fallback := some (.chain [.constant (.number (.float (.finite negative .zero))), .stringify])

theorem zeroText_similar :
    (zeroText false).equal (zeroText true) = true ∧ (zeroText false).validate = .ok () ∧
    Json.WellFormed .null ∧
    ∃ d e y z, (zeroText false).compile.result = .ok d ∧ (zeroText true).compile.result = .ok e ∧
      (d.transform .null).result = .ok y ∧ (e.transform .null).result = .ok z ∧
      y.Similar z ∧ ((zeroText false).writesText = false → y.equal z = true) :=
  ⟨by decide, rfl, trivial, equal_tables_similar (by decide) rfl trivial⟩

/-- The two zeros are equal, and so are tables that hold them; their texts are not. -/
theorem zero_sign_shown :
    (zeroText false).equal (zeroText true) = true ∧
    (zeroText false).validate = .ok () ∧ (zeroText true).validate = .ok () ∧
    ∃ d e y z, (zeroText false).compile.result = .ok d ∧ (zeroText true).compile.result = .ok e ∧
      (d.transform .null).result = .ok y ∧ (e.transform .null).result = .ok z ∧
      y.equal z = false := by
  refine ⟨by decide, rfl, rfl, _, _, _, _, result_compile rfl, result_compile rfl,
    result_transform_dispatcher _ _, result_transform_dispatcher _ _, ?_⟩
  decide

end Table

end FirstMatch
