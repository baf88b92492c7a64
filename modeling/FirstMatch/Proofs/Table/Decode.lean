import FirstMatch.Proofs.Json.Canonical
import FirstMatch.Proofs.Table.Floats
import FirstMatch.Table.Operation

/-!
Conditions and actions are decoded from their written form, whatever has become of the floats in
it. In the written form the operation comes first, and its field has another name.
-/

namespace FirstMatch

namespace Vocabulary

variable {α : Type}

theorem split_some (v : Vocabulary α) (op : Operation α) {fields : List (String × Json)}
    (h : ∀ m ∈ fields, m.1 ≠ "op") : v.split (some op) fields = .ok (op, fields) := by
  induction fields with
  | nil => rfl
  | cons m fields ih =>
    obtain ⟨name, value⟩ := m
    have hname : name ≠ "op" := h (name, value) List.mem_cons_self
    have hrest := ih fun n hn => h n (List.mem_cons_of_mem _ hn)
    simp only [split, hname, if_false, hrest, bind, Except.bind, pure, Except.pure]

theorem decode_tagged (v : Vocabulary α) {name : String} {op : Operation α}
    (hn : v.named name = .ok op) {fields : List (String × Json)} (h : ∀ m ∈ fields, m.1 ≠ "op") :
    v.decode (.object (("op", .string name) :: fields)) = op.ofMembers fields := by
  simp only [decode, split, if_true, operation, hn, split_some v op h, bind, Except.bind]

theorem decode_none (v : Vocabulary α) {name variant : String} {a : α}
    (hn : v.named name = .ok ⟨name, variant, .none a⟩) :
    v.decode (.object [("op", .string name)]) = .ok a := by
  have hnone : ∀ m ∈ ([] : List (String × Json)), m.1 ≠ "op" := by
    intro m hm
    cases hm
  rw [decode_tagged v hn hnone]
  rfl

/-- An operation with its field, in which floats have been replaced. -/
theorem decode_field (v : Vocabulary α) {name variant field : String}
    {decode : Json → Except Refusal α} (hn : v.named name = .ok ⟨name, variant, .one field decode⟩)
    (hf : field ≠ "op") (g : Double → Double) (w : Json) :
    v.decode ((Json.object [("op", .string name), (field, w)]).mapFloats g) =
      decode (w.mapFloats g) := by
  have hfields : ∀ m ∈ [(field, w.mapFloats g)], m.1 ≠ "op" := by
    intro m hm
    rw [List.mem_singleton.mp hm]
    exact hf
  simp only [Json.mapFloats, Json.mapFloatsMembers]
  rw [decode_tagged v hn hfields]
  simp only [Operation.ofMembers, Operation.decodeField, if_true, bind, Except.bind]
  cases decode (w.mapFloats g) <;> rfl

end Vocabulary

namespace Condition

variable {g : Double → Double}

theorem height_toJson_pos (c : Condition) : 0 < c.toJson.height := by
  cases c <;> simp only [toJson, Json.height] <;> omega

mutual

theorem ofJson_toJson : ∀ (c : Condition) {h : Nat}, c.WellFormed → c.toJson.height ≤ h →
    ofJson h (c.toJson.mapFloats g) = .ok (c.mapFloats g)
  | c, 0, _, hh => absurd hh (Nat.not_le_of_gt c.height_toJson_pos)
  | .always, h + 1, _, _ => Vocabulary.decode_none _ rfl
  | .never, h + 1, _, _ => Vocabulary.decode_none _ rfl
  | .isNull, h + 1, _, _ => Vocabulary.decode_none _ rfl
  | .isNumber, h + 1, _, _ => Vocabulary.decode_none _ rfl
  | .isString, h + 1, _, _ => Vocabulary.decode_none _ rfl
  | .equals v, h + 1, hw, _ => by
    rw [toJson, ofJson, Vocabulary.decode_field _ rfl (by decide), Json.canonical_mapFloats,
      Json.canonical_self v hw, mapFloats]
  | .lessThan x, h + 1, hw, _ => by
    rw [toJson, ofJson, Vocabulary.decode_field _ rfl (by decide), Json.ofDouble_eq hw]
    rfl
  | .greaterThan x, h + 1, hw, _ => by
    rw [toJson, ofJson, Vocabulary.decode_field _ rfl (by decide), Json.ofDouble_eq hw]
    rfl
  | .not c, h + 1, hw, hh => by
    have hc : ofJson h (c.toJson.mapFloats g) = .ok (c.mapFloats g) := by
      simp only [toJson, Json.height, Json.heightMembers] at hh
      exact ofJson_toJson c hw (by omega)
    rw [toJson, ofJson, Vocabulary.decode_field _ rfl (by decide), hc]
    rfl
  | .all cs, h + 1, hw, hh => by
    have hcs : (Json.mapFloatsItems g (toJsonList cs)).mapM (ofJson h) =
        .ok (mapFloatsList g cs) := by
      simp only [toJson, Json.height, Json.heightMembers] at hh
      exact ofJson_toJsonList cs hw (by omega)
    rw [toJson, ofJson, Vocabulary.decode_field _ rfl (by decide), Json.mapFloats,
      Json.decodeList, hcs]
    rfl
  | .any cs, h + 1, hw, hh => by
    have hcs : (Json.mapFloatsItems g (toJsonList cs)).mapM (ofJson h) =
        .ok (mapFloatsList g cs) := by
      simp only [toJson, Json.height, Json.heightMembers] at hh
      exact ofJson_toJsonList cs hw (by omega)
    rw [toJson, ofJson, Vocabulary.decode_field _ rfl (by decide), Json.mapFloats,
      Json.decodeList, hcs]
    rfl

theorem ofJson_toJsonList : ∀ (cs : List Condition) {h : Nat}, WellFormedList cs →
    Json.heightItems (toJsonList cs) ≤ h →
      (Json.mapFloatsItems g (toJsonList cs)).mapM (ofJson h) = .ok (mapFloatsList g cs)
  | [], _, _, _ => rfl
  | c :: cs, h, hw, hh => by
    simp only [toJsonList, Json.heightItems] at hh
    have hc : ofJson h (c.toJson.mapFloats g) = .ok (c.mapFloats g) :=
      ofJson_toJson c hw.1 (by omega)
    have hcs := ofJson_toJsonList cs (h := h) hw.2 (by omega)
    simp only [toJsonList, Json.mapFloatsItems, List.mapM_cons, hc, hcs]
    rfl

end

end Condition

namespace Action

variable {g : Double → Double}

theorem height_toJson_pos (a : Action) : 0 < a.toJson.height := by
  cases a <;> simp only [toJson, Json.height] <;> omega

mutual

theorem ofJson_toJson : ∀ (a : Action) {h : Nat}, a.WellFormed → a.toJson.height ≤ h →
    ofJson h (a.toJson.mapFloats g) = .ok (a.mapFloats g)
  | a, 0, _, hh => absurd hh (Nat.not_le_of_gt a.height_toJson_pos)
  | .identity, h + 1, _, _ => Vocabulary.decode_none _ rfl
  | .null, h + 1, _, _ => Vocabulary.decode_none _ rfl
  | .negate, h + 1, _, _ => Vocabulary.decode_none _ rfl
  | .stringify, h + 1, _, _ => Vocabulary.decode_none _ rfl
  | .constant v, h + 1, hw, _ => by
    rw [toJson, ofJson, Vocabulary.decode_field _ rfl (by decide), Json.canonical_mapFloats,
      Json.canonical_self v hw, mapFloats]
  | .scale x, h + 1, hw, _ => by
    rw [toJson, ofJson, Vocabulary.decode_field _ rfl (by decide), Json.ofDouble_eq hw]
    rfl
  | .offset x, h + 1, hw, _ => by
    rw [toJson, ofJson, Vocabulary.decode_field _ rfl (by decide), Json.ofDouble_eq hw]
    rfl
  | .chain steps, h + 1, hw, hh => by
    have hs : (Json.mapFloatsItems g (toJsonList steps)).mapM (ofJson h) =
        .ok (mapFloatsList g steps) := by
      simp only [toJson, Json.height, Json.heightMembers] at hh
      exact ofJson_toJsonList steps hw (by omega)
    rw [toJson, ofJson, Vocabulary.decode_field _ rfl (by decide), Json.mapFloats,
      Json.decodeList, hs]
    rfl

theorem ofJson_toJsonList : ∀ (as : List Action) {h : Nat}, WellFormedList as →
    Json.heightItems (toJsonList as) ≤ h →
      (Json.mapFloatsItems g (toJsonList as)).mapM (ofJson h) = .ok (mapFloatsList g as)
  | [], _, _, _ => rfl
  | a :: as, h, hw, hh => by
    simp only [toJsonList, Json.heightItems] at hh
    have ha : ofJson h (a.toJson.mapFloats g) = .ok (a.mapFloats g) :=
      ofJson_toJson a hw.1 (by omega)
    have has := ofJson_toJsonList as (h := h) hw.2 (by omega)
    simp only [toJsonList, Json.mapFloatsItems, List.mapM_cons, ha, has]
    rfl

end

end Action

end FirstMatch
