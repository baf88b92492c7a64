import FirstMatch.Proofs.Json.Canonical
import FirstMatch.Proofs.Selection
import FirstMatch.Proofs.Table.Fields

/-!
The bound of the decoder. Conditions and actions are decoded within a bound on their height, and
whatever bound is enough gives the same.
-/

namespace FirstMatch

theorem rel_find? {α β : Type} {R : α → β → Prop} {as : List α} {bs : List β}
    {p : α → Bool} {q : β → Bool} (h : List.Forall₂ R as bs) (hp : ∀ a b, R a b → p a = q b) :
    Option.Rel R (as.find? p) (bs.find? q) := by
  induction h with
  | nil => exact .none
  | @cons a b as bs hab _ ih =>
    rw [List.find?_cons, List.find?_cons, ← hp a b hab]
    cases p a with
    | true => exact .some hab
    | false => exact ih

def Agree {α : Type} (bound : Nat) (f g : Json → Except Refusal α) : Prop :=
  ∀ j, j.height ≤ bound → (f j).toOption = (g j).toOption

namespace Agree

variable {α β : Type} {bound : Nat} {f g : Json → Except Refusal α}

theorem map (h : Agree bound f g) (make : α → β) :
    Agree bound (fun j => make <$> f j) fun j => make <$> g j := by
  intro j hj
  rw [toOption_map, toOption_map, h j hj]

theorem decodeList (h : Agree bound f g) :
    Agree bound (fun j => j.decodeList f) fun j => j.decodeList g := by
  intro j hj
  cases j with
  | list items =>
    simp only [Json.decodeList, toOption_mapM]
    refine mapM_congr fun v hv => h v ?_
    have hle := Json.height_le_of_mem_items hv
    rw [Json.height] at hj
    omega
  | _ => rfl

end Agree

/-- The two operations have the same name, and make the same of fields no higher than this. -/
structure Operation.Alike {α : Type} (bound : Nat) (o p : Operation α) : Prop where
  name : o.name = p.name
  members : ∀ ms, Json.heightMembers ms ≤ bound →
    (o.ofMembers ms).toOption = (p.ofMembers ms).toOption
  items : ∀ js, Json.heightItems js ≤ bound → (o.ofItems js).toOption = (p.ofItems js).toOption

namespace Operation

variable {α : Type} {bound : Nat}

theorem Alike.refl (o : Operation α) : o.Alike bound o := ⟨rfl, fun _ _ => rfl, fun _ _ => rfl⟩

theorem Alike.one {f g : Json → Except Refusal α} (h : Agree bound f g)
    (name variant field : String) :
    Alike bound ⟨name, variant, .one field f⟩ ⟨name, variant, .one field g⟩ := by
  refine ⟨rfl, ?_, ?_⟩
  · intro ms hms
    rw [ofMembers, ofMembers, decodeField_none, decodeField_none]
    refine congrArg Option.join (field?_congr fun m hm _ => h m.2 ?_)
    exact Nat.le_trans (Json.height_le_of_mem_members hm) hms
  · intro js hjs
    cases js with
    | nil => rfl
    | cons j rest =>
      rw [Json.heightItems] at hjs
      simp only [ofItems, toOption_bind, h j (by omega)]

end Operation

namespace Vocabulary

variable {α : Type} {bound : Nat} {v w : Vocabulary α}

theorem rel_named (h : List.Forall₂ (Operation.Alike bound) v.operations w.operations)
    (name : String) :
    Option.Rel (Operation.Alike bound) (v.named name).toOption (w.named name).toOption := by
  rw [toOption_named, toOption_named]
  exact rel_find? h fun o p hop => by rw [hop.name]

theorem rel_spoken? (h : List.Forall₂ (Operation.Alike bound) v.operations w.operations)
    (j : Json) : Option.Rel (Operation.Alike bound) (v.spoken? j) (w.spoken? j) := by
  cases j with
  | string name => exact rel_named h name
  | _ => exact .none

theorem rel_chosen? (h : List.Forall₂ (Operation.Alike bound) v.operations w.operations)
    (j : Json) : Option.Rel (Operation.Alike bound) (v.chosen? j) (w.chosen? j) := by
  cases j with
  | string name => exact rel_named h name
  | number n =>
    cases n with
    | float x => exact .none
    | integer n =>
      rw [chosen?_integer, chosen?_integer]
      split
      · exact rel_getElem? h n.toNat
      · exact .none
  | _ => exact .none

theorem rel_field? {β : Type} {R : β → β → Prop} {choose choose' : Json → Option β}
    (h : ∀ j, Option.Rel R (choose j) (choose' j)) (name : String) (ms : List (String × Json)) :
    Option.Rel R (field? name choose ms).join (field? name choose' ms).join := by
  cases hms : ms.filter fun m => m.1 == name with
  | nil =>
    rw [field?_of_nil hms, field?_of_nil hms]
    exact .none
  | cons m rest =>
    cases rest with
    | nil =>
      rw [field?_of_single hms, field?_of_single hms]
      have hm := h m.2
      revert hm
      cases choose m.2 <;> cases choose' m.2 <;> exact id
    | cons n rest =>
      rw [field?_of_two hms, field?_of_two hms]
      exact .none

theorem heightMembers_others_le (ms : List (String × Json)) :
    Json.heightMembers (others ms) ≤ Json.heightMembers ms := by
  induction ms with
  | nil => exact Nat.le_refl _
  | cons m ms ih =>
    rw [others_cons]
    split <;> simp only [Json.heightMembers] <;> omega

theorem bind_congr_of_rel {β γ : Type} {R : β → β → Prop} {a b : Option β}
    (h : Option.Rel R a b) {f g : β → Option γ} (hf : ∀ x y, R x y → f x = g y) :
    a.bind f = b.bind g := by
  cases h with
  | none => rfl
  | some h => exact hf _ _ h

theorem decodeBy_congr {choose choose' : Json → Option (Operation α)}
    (h : ∀ j, Option.Rel (Operation.Alike bound) (choose j) (choose' j)) {j : Json}
    (hj : j.height ≤ bound + 1) : decodeBy choose j = decodeBy choose' j := by
  cases j with
  | object ms =>
    rw [Json.height] at hj
    have hle := heightMembers_others_le ms
    exact bind_congr_of_rel (rel_field? h "op" ms) fun _ _ hop => hop.members _ (by omega)
  | list items =>
    rw [Json.height] at hj
    cases items with
    | nil => rfl
    | cons first rest =>
      rw [Json.heightItems] at hj
      exact bind_congr_of_rel (h first) fun _ _ hop => hop.items rest (by omega)
  | _ => rfl

theorem decode_scalar (v : Vocabulary α) {j : Json} (hj : j.height = 0) :
    (v.decode j).toOption = none := by
  cases j with
  | list items => cases hj
  | object ms => cases hj
  | _ => rfl

end Vocabulary

/-- How conditions or actions are decoded: within a bound on the height, and by their operations
from what is decoded inside them. -/
structure Grammar (α : Type) where
  vocabulary : (Json → Except Refusal α) → Vocabulary α
  ofJson : Nat → Json → Except Refusal α
  ofJson_zero : ∀ j, (ofJson 0 j).toOption = none
  ofJson_succ : ∀ h j, ofJson (h + 1) j = (vocabulary (ofJson h)).decode j
  alike : ∀ bound f g, Agree bound f g →
    List.Forall₂ (Operation.Alike bound) (vocabulary f).operations (vocabulary g).operations

namespace Grammar

variable {α : Type} (g : Grammar α) {h : Nat} {j : Json}

theorem ofJson_agree (h k : Nat) : Agree (min h k) (g.ofJson h) (g.ofJson k) := by
  have hscalar : ∀ h j, j.height = 0 → (g.ofJson h j).toOption = none := by
    intro h j hj
    cases h with
    | zero => exact g.ofJson_zero j
    | succ h => rw [g.ofJson_succ, Vocabulary.decode_scalar _ hj]
  -- The second bound stays free, since both become smaller at each bracket.
  induction h generalizing k with
  | zero =>
    intro j hj
    rw [g.ofJson_zero, hscalar k j (by omega)]
  | succ h ih =>
    intro j hj
    cases k with
    | zero => rw [g.ofJson_zero, hscalar (h + 1) j (by omega)]
    | succ k =>
      rw [g.ofJson_succ, g.ofJson_succ, Vocabulary.decode_eq, Vocabulary.decode_eq]
      exact Vocabulary.decodeBy_congr (Vocabulary.rel_chosen? (g.alike _ _ _ (ih k))) (by omega)

/-- What a value stands for inside another condition or action. -/
def inner? (j : Json) : Option α := (g.ofJson j.height j).toOption

theorem ofJson_eq (hj : j.height ≤ h) : (g.ofJson h j).toOption = g.inner? j :=
  g.ofJson_agree h j.height j (by omega)

theorem decode_eq_inner? (j : Json) :
    ((g.vocabulary (g.ofJson j.height)).decode j).toOption = g.inner? j := by
  rw [← g.ofJson_succ, g.ofJson_eq (Nat.le_succ _)]

theorem decodeList_ofJson {items : List Json} (hh : Json.heightItems items ≤ h) :
    ((Json.list items).decodeList (g.ofJson h)).toOption = items.mapM g.inner? := by
  rw [Json.decodeList, toOption_mapM]
  exact mapM_congr fun j hj => g.ofJson_eq (Nat.le_trans (Json.height_le_of_mem_items hj) hh)

/-- What a value stands for directly in a rule or a table, where the name of the operation is
needed. -/
def direct? (j : Json) : Option α :=
  Vocabulary.decodeBy (g.vocabulary (g.ofJson j.height)).spoken? j

theorem decodeBy_spoken?_eq (hj : j.height ≤ h) :
    Vocabulary.decodeBy (g.vocabulary (g.ofJson h)).spoken? j = g.direct? j :=
  Vocabulary.decodeBy_congr
    (Vocabulary.rel_spoken? (g.alike _ _ _ (g.ofJson_agree h j.height))) (by omega)

theorem direct?_eq_some_iff {x : α} :
    g.direct? j = some x ↔ g.inner? j = some x ∧ j.NamesOperation := by
  rw [direct?, Vocabulary.decodeBy_spoken?_eq_some_iff, g.decode_eq_inner?]

end Grammar

def Condition.grammar : Grammar Condition where
  vocabulary := vocabulary
  ofJson := ofJson
  ofJson_zero _ := rfl
  ofJson_succ _ _ := rfl
  alike _ _ _ h :=
    .cons (.refl _) <| .cons (.refl _) <| .cons (.refl _) <| .cons (.refl _) <| .cons (.refl _) <|
      .cons (.refl _) <| .cons (.refl _) <| .cons (.refl _) <|
      .cons (.one (h.map Condition.not) ..) <| .cons (.one (h.decodeList.map Condition.all) ..) <|
      .cons (.one (h.decodeList.map Condition.any) ..) .nil

def Action.grammar : Grammar Action where
  vocabulary := vocabulary
  ofJson := ofJson
  ofJson_zero _ := rfl
  ofJson_succ _ _ := rfl
  alike _ _ _ h :=
    .cons (.refl _) <| .cons (.refl _) <| .cons (.refl _) <| .cons (.refl _) <| .cons (.refl _) <|
      .cons (.refl _) <| .cons (.refl _) <| .cons (.one (h.decodeList.map Action.chain) ..) .nil

end FirstMatch
