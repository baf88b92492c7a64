import FirstMatch.Proofs.Table.Bound

/-!
The forms of an operation. It is written with its field as an object, whose members may have any
order and to which members of other names may be added, or as a sequence, and comes to the same in
all of them.
-/

namespace FirstMatch

namespace Json

/-- These fields stand among the members, in any order. The other members have none of the known
names. -/
def Holds (known : List String) (fields members : List (String × Json)) : Prop :=
  ∃ others, (∀ m ∈ others, m.1 ∉ known) ∧ members.Perm (fields ++ others)

namespace Holds

variable {known : List String} {fields members : List (String × Json)} {name : String}

theorem mem (h : Holds known fields members) {m : String × Json} (hm : m ∈ fields) :
    m ∈ members := by
  obtain ⟨others, -, hperm⟩ := h
  exact hperm.mem_iff.mpr (List.mem_append_left _ hm)

theorem mem_fields (h : Holds known fields members) {m : String × Json} (hm : m ∈ members)
    (hname : m.1 ∈ known) : m ∈ fields := by
  obtain ⟨others, hothers, hperm⟩ := h
  rcases List.mem_append.mp (hperm.mem_iff.mp hm) with hm | hm
  · exact hm
  · exact absurd hname (hothers m hm)

theorem filter_perm (h : Holds known fields members) (hname : name ∈ known) :
    (members.filter fun m => m.1 == name).Perm (fields.filter fun m => m.1 == name) := by
  obtain ⟨others, hothers, hperm⟩ := h
  have hnone : others.filter (fun m => m.1 == name) = [] := by
    refine List.filter_eq_nil_iff.mpr fun m hm hm' => hothers m hm ?_
    rwa [beq_iff_eq.mp hm']
  have hfilter := hperm.filter fun m => m.1 == name
  rwa [List.filter_append, hnone, List.append_nil] at hfilter

theorem filter_single (h : Holds known fields members) (hname : name ∈ known)
    {m : String × Json} (hm : (fields.filter fun m => m.1 == name) = [m]) :
    (members.filter fun m => m.1 == name) = [m] :=
  List.perm_singleton.mp (hm ▸ h.filter_perm hname)

end Holds

/-- The operation of this name with these fields. -/
inductive Tagged (name : String) (fields : List (String × Json)) : Json → Prop where
  | object {members : List (String × Json)}
      (holds : Holds ("op" :: fields.map (·.1)) (("op", .string name) :: fields) members) :
      Tagged name fields (.object members)
  | list : Tagged name fields (.list (.string name :: fields.map (·.2)))

namespace Tagged

variable {α : Type} {name variant field : String} {fields : List (String × Json)} {j w : Json}

theorem namesOperation (h : Tagged name fields j) (hf : ∀ m ∈ fields, m.1 ≠ "op") :
    j.NamesOperation := by
  cases h with
  | object holds =>
    intro m hm hname
    have hmem := holds.mem_fields hm (by rw [hname]; exact List.mem_cons_self)
    rcases List.mem_cons.mp hmem with rfl | hmem
    · exact ⟨name, rfl⟩
    · exact absurd hname (hf m hmem)
  | list => exact ⟨name, rfl⟩

theorem height_lt (h : Tagged name fields j) {m : String × Json} (hm : m ∈ fields) :
    m.2.height < j.height := by
  cases h with
  | object holds =>
    have hle := height_le_of_mem_members (holds.mem (List.mem_cons_of_mem _ hm))
    rw [height]
    omega
  | list =>
    have hmem : m.2 ∈ fields.map (·.2) := List.mem_map_of_mem hm
    have hle := height_le_of_mem_items (List.mem_cons_of_mem (.string name) hmem)
    rw [height]
    omega

theorem heightItems_le {items : List Json} (h : Tagged name [(field, .list items)] j) :
    heightItems items ≤ j.height := by
  have hlt := h.height_lt List.mem_cons_self
  rw [height] at hlt
  omega

theorem decode_none (h : Tagged name [] j) (v : Vocabulary α) {a : α}
    (hop : v.named name = .ok ⟨name, variant, .none a⟩) : (v.decode j).toOption = some a := by
  have hchosen : v.chosen? (.string name) = some ⟨name, variant, .none a⟩ := by
    rw [Vocabulary.chosen?, Vocabulary.operation, hop]
    rfl
  rw [Vocabulary.decode_eq]
  cases h with
  | @object members holds =>
    have hsingle : (members.filter fun m => m.1 == "op") = [("op", .string name)] :=
      holds.filter_single List.mem_cons_self rfl
    rw [Vocabulary.decodeBy, field?_of_single hsingle, hchosen]
    rfl
  | list =>
    rw [Vocabulary.decodeBy, hchosen]
    rfl

theorem decode_one (h : Tagged name [(field, w)] j) (v : Vocabulary α)
    {decode : Json → Except Refusal α} (hop : v.named name = .ok ⟨name, variant, .one field decode⟩)
    (hf : field ≠ "op") : (v.decode j).toOption = (decode w).toOption := by
  have hchosen : v.chosen? (.string name) = some ⟨name, variant, .one field decode⟩ := by
    rw [Vocabulary.chosen?, Vocabulary.operation, hop]
    rfl
  have hop' : ("op" == field) = false := beq_eq_false_iff_ne.mpr hf.symm
  have hf' : (field == "op") = false := beq_eq_false_iff_ne.mpr hf
  rw [Vocabulary.decode_eq]
  cases h with
  | @object members holds =>
    have hsingle : (members.filter fun m => m.1 == "op") = [("op", .string name)] :=
      holds.filter_single List.mem_cons_self (by simp [hf'])
    have hfield : (members.filter fun m => m.1 == field) = [(field, w)] :=
      holds.filter_single (List.mem_cons_of_mem _ (by simp)) (by simp [hop'])
    have hothers : ((Vocabulary.others members).filter fun m => m.1 == field) = [(field, w)] := by
      rw [Vocabulary.filter_others hf, hfield]
    rw [Vocabulary.decodeBy, field?_of_single hsingle, hchosen]
    simp only [Option.map_some, Option.join_some, Option.bind_some, Operation.ofMembers,
      Operation.decodeField_none, field?_of_single hothers]
    cases (decode w).toOption <;> rfl
  | list =>
    rw [Vocabulary.decodeBy, hchosen]
    simp only [List.map_cons, List.map_nil, Option.bind_some, Operation.ofItems]
    cases decode w <;> rfl

theorem inner?_none (h : Tagged name [] j) (g : Grammar α) {a : α}
    (hop : ∀ inner, (g.vocabulary inner).named name = .ok ⟨name, variant, .none a⟩) :
    g.inner? j = some a := by
  rw [← g.decode_eq_inner?, h.decode_none _ (hop _)]

theorem inner?_one (h : Tagged name [(field, w)] j) (g : Grammar α)
    {decode : (Json → Except Refusal α) → Json → Except Refusal α}
    (hop : ∀ inner, (g.vocabulary inner).named name =
      .ok ⟨name, variant, .one field (decode inner)⟩) (hf : field ≠ "op") :
    g.inner? j = (decode (g.ofJson j.height) w).toOption := by
  rw [← g.decode_eq_inner?, h.decode_one _ (hop _) hf]

end Tagged

end Json

end FirstMatch
