import FirstMatch.Json.Basic

/-!
The canonical form of a value: a value whose objects are sorted already is its own.
-/

namespace FirstMatch.Json

mutual

/-- Numbers are well-formed, and objects have their members in any order. -/
def NumbersFit : Json → Prop
  | .number n => n.WellFormed
  | .list items => NumbersFitItems items
  | .object members => NumbersFitMembers members
  | .null | .bool _ | .string _ => True

def NumbersFitItems : List Json → Prop
  | [] => True
  | item :: rest => item.NumbersFit ∧ NumbersFitItems rest

def NumbersFitMembers : List (String × Json) → Prop
  | [] => True
  | (_, value) :: rest => value.NumbersFit ∧ NumbersFitMembers rest

end

mutual

theorem WellFormed.numbersFit : ∀ {v : Json}, v.WellFormed → v.NumbersFit
  | .null, _ | .bool _, _ | .string _, _ => trivial
  | .number _, h => h
  | .list _, h => WellFormedItems.numbersFit h
  | .object _, h => WellFormedMembers.numbersFit h.2

theorem WellFormedItems.numbersFit :
    ∀ {items : List Json}, WellFormedItems items → NumbersFitItems items
  | [], _ => trivial
  | _ :: _, h => ⟨h.1.numbersFit, WellFormedItems.numbersFit h.2⟩

theorem WellFormedMembers.numbersFit :
    ∀ {members : List (String × Json)}, WellFormedMembers members → NumbersFitMembers members
  | [], _ => trivial
  | _ :: _, h => ⟨h.1.numbersFit, WellFormedMembers.numbersFit h.2⟩

end

theorem numbersFit_of_mem_items {v : Json} {items : List Json} (h : NumbersFitItems items)
    (hv : v ∈ items) : v.NumbersFit := by
  induction items with
  | nil => cases hv
  | cons item rest ih =>
    rcases List.mem_cons.mp hv with rfl | hv
    · exact h.1
    · exact ih h.2 hv

theorem numbersFit_of_mem_members {m : String × Json} {members : List (String × Json)}
    (h : NumbersFitMembers members) (hm : m ∈ members) : m.2.NumbersFit := by
  induction members with
  | nil => cases hm
  | cons n rest ih =>
    rcases List.mem_cons.mp hm with rfl | hm
    · exact h.1
    · exact ih h.2 hm

theorem height_le_of_mem_items {v : Json} {items : List Json} (hv : v ∈ items) :
    v.height ≤ heightItems items := by
  induction items with
  | nil => cases hv
  | cons item rest ih =>
    simp only [heightItems]
    rcases List.mem_cons.mp hv with rfl | hv
    · omega
    · have := ih hv
      omega

theorem height_le_of_mem_members {m : String × Json} {members : List (String × Json)}
    (hm : m ∈ members) : m.2.height ≤ heightMembers members := by
  induction members with
  | nil => cases hm
  | cons n rest ih =>
    simp only [heightMembers]
    rcases List.mem_cons.mp hm with rfl | hm
    · omega
    · have := ih hm
      omega

theorem insertMember_last {key : String} (value : Json) {sorted : List (String × Json)}
    (h : ∀ m ∈ sorted, m.1 < key) :
    insertMember key value sorted = sorted ++ [(key, value)] := by
  induction sorted with
  | nil => rfl
  | cons m sorted ih =>
    obtain ⟨k, v⟩ := m
    have hk : k < key := h (k, v) List.mem_cons_self
    have hne : ¬ key = k := by
      rintro rfl
      exact absurd hk (String.lt_irrefl _)
    have hlt : ¬ key < k := fun hkk => absurd (String.lt_trans hkk hk) (String.lt_irrefl _)
    simp only [insertMember, hne, hlt, if_false, List.cons_append,
      ih fun m hm => h m (List.mem_cons_of_mem _ hm)]

mutual

/-- A value whose objects are sorted is canonical. -/
theorem canonical_self : ∀ v : Json, v.WellFormed → v.canonical = v
  | .null, _ => rfl
  | .bool _, _ => rfl
  | .number _, _ => rfl
  | .string _, _ => rfl
  | .list items, h => by
    simp only [canonical, canonicalItems_self items h]
  | .object members, h => by
    have hm := canonicalMembers_self members [] h.2 (by simpa using h.1)
    simp only [canonical, hm, List.nil_append]

theorem canonicalItems_self :
    ∀ items : List Json, WellFormedItems items → canonicalItems items = items
  | [], _ => rfl
  | item :: rest, h => by
    simp only [canonicalItems, canonical_self item h.1, canonicalItems_self rest h.2]

theorem canonicalMembers_self :
    ∀ members sorted : List (String × Json), WellFormedMembers members →
      ((sorted ++ members).map (·.1)).Pairwise (· < ·) →
      canonicalMembers members sorted = sorted ++ members
  | [], sorted, _, _ => by simp [canonicalMembers]
  | (key, value) :: rest, sorted, h, hs => by
    have hlt : ∀ m ∈ sorted, m.1 < key := by
      intro m hm
      rw [List.map_append, List.pairwise_append] at hs
      exact hs.2.2 m.1 (List.mem_map_of_mem hm) key (by simp)
    have hr := canonicalMembers_self rest (sorted ++ [(key, value)]) h.2
      (by simpa using hs)
    simp only [canonicalMembers, canonical_self value h.1, insertMember_last value hlt, hr,
      List.append_assoc, List.cons_append, List.nil_append]

end

/-- Members sorted by name, with well-formed values no higher than this. -/
structure SortedMembers (height : Nat) (members : List (String × Json)) : Prop where
  sorted : (members.map (·.1)).Pairwise (· < ·)
  wellFormed : WellFormedMembers members
  height_le : heightMembers members ≤ height

theorem mem_of_mem_insertMember {key : String} {value : Json} {m : String × Json}
    {members : List (String × Json)} (hm : m ∈ insertMember key value members) :
    m = (key, value) ∨ m ∈ members := by
  induction members with
  | nil => exact .inl (List.mem_singleton.mp hm)
  | cons n members ih =>
    obtain ⟨k, v⟩ := n
    simp only [insertMember] at hm
    split at hm
    · rcases List.mem_cons.mp hm with rfl | hm
      · exact .inl rfl
      · exact .inr (List.mem_cons_of_mem _ hm)
    · split at hm
      · rcases List.mem_cons.mp hm with rfl | hm
        · exact .inl rfl
        · exact .inr hm
      · rcases List.mem_cons.mp hm with rfl | hm
        · exact .inr List.mem_cons_self
        · rcases ih hm with rfl | hm
          · exact .inl rfl
          · exact .inr (List.mem_cons_of_mem _ hm)

theorem lt_of_ne_of_not_lt {a b : String} (hne : ¬ a = b) (hlt : ¬ a < b) : b < a := by
  have hle : b ≤ a := by
    by_cases h : b ≤ a
    · exact h
    · exact absurd (String.not_le.mp h) hlt
  apply String.not_le.mp
  intro h
  exact hne (String.le_antisymm h hle)

theorem insertMember_pairwise {key : String} (value : Json) {members : List (String × Json)}
    (h : (members.map (·.1)).Pairwise (· < ·)) :
    ((insertMember key value members).map (·.1)).Pairwise (· < ·) := by
  induction members with
  | nil => simp [insertMember]
  | cons n members ih =>
    obtain ⟨k, v⟩ := n
    have hhead : ∀ m ∈ members, k < m.1 := fun m hm =>
      List.rel_of_pairwise_cons h (List.mem_map_of_mem hm)
    simp only [insertMember]
    split
    · rename_i heq
      subst heq
      exact h
    · split
      · rename_i hlt
        refine List.Pairwise.cons ?_ h
        intro name hname
        obtain ⟨m, hm, rfl⟩ := List.mem_map.mp hname
        rcases List.mem_cons.mp hm with rfl | hm
        · exact hlt
        · exact String.lt_trans hlt (hhead m hm)
      -- the new name comes in further on, behind the head
      · rename_i hne hlt
        refine List.Pairwise.cons ?_ (ih (List.Pairwise.of_cons h))
        intro name hname
        obtain ⟨m, hm, rfl⟩ := List.mem_map.mp hname
        rcases mem_of_mem_insertMember hm with rfl | hm
        · exact lt_of_ne_of_not_lt hne hlt
        · exact hhead m hm

theorem insertMember_perm {key : String} (value : Json) {members : List (String × Json)}
    (h : ∀ m ∈ members, m.1 ≠ key) :
    (insertMember key value members).Perm ((key, value) :: members) := by
  induction members with
  | nil => exact .refl _
  | cons n members ih =>
    obtain ⟨k, v⟩ := n
    have hk : ¬ key = k := fun hk => h (k, v) List.mem_cons_self hk.symm
    simp only [insertMember, hk, if_false]
    split
    · exact .refl _
    · exact ((ih fun m hm => h m (List.mem_cons_of_mem _ hm)).cons _).trans (.swap ..)

theorem insertMember_sorted {height : Nat} {key : String} {value : Json}
    {members : List (String × Json)} (h : SortedMembers height members) (hw : value.WellFormed)
    (hh : value.height ≤ height) : SortedMembers height (insertMember key value members) := by
  refine ⟨insertMember_pairwise value h.sorted, ?_, ?_⟩
  · have hwf := h.wellFormed
    clear h
    induction members with
    | nil => exact ⟨hw, trivial⟩
    | cons n members ih =>
      simp only [insertMember]
      split
      · exact ⟨hw, hwf.2⟩
      · split
        · exact ⟨hw, hwf⟩
        · exact ⟨hwf.1, ih hwf.2⟩
  · have hle := h.height_le
    clear h
    induction members with
    | nil => simp [insertMember, heightMembers, hh]
    | cons n members ih =>
      simp only [heightMembers] at hle
      have hrest := ih (by omega)
      simp only [insertMember]
      split
      · simp only [heightMembers]
        omega
      · split <;> simp only [heightMembers] <;> omega

mutual

/-- The canonical form of a value with well-formed numbers is well-formed, and no higher. -/
theorem canonical_wellFormed :
    ∀ {v : Json}, v.NumbersFit → v.canonical.WellFormed ∧ v.canonical.height ≤ v.height
  | .null, _ | .bool _, _ | .string _, _ => ⟨trivial, Nat.le_refl _⟩
  | .number _, h => ⟨h, Nat.le_refl _⟩
  | .list items, h => by
    obtain ⟨hw, hle⟩ := canonicalItems_wellFormed h
    exact ⟨hw, Nat.succ_le_succ hle⟩
  | .object members, h => by
    have hs : SortedMembers (heightMembers members) (canonicalMembers members []) :=
      canonicalMembers_sorted h (Nat.le_refl _)
        ⟨List.Pairwise.nil, trivial, Nat.zero_le _⟩
    exact ⟨⟨hs.sorted, hs.wellFormed⟩, Nat.succ_le_succ hs.height_le⟩

theorem canonicalItems_wellFormed :
    ∀ {items : List Json}, NumbersFitItems items →
      WellFormedItems (canonicalItems items) ∧
        heightItems (canonicalItems items) ≤ heightItems items
  | [], _ => ⟨trivial, Nat.le_refl _⟩
  | _ :: _, h => by
    obtain ⟨hw, hle⟩ := canonical_wellFormed h.1
    obtain ⟨hws, hles⟩ := canonicalItems_wellFormed h.2
    refine ⟨⟨hw, hws⟩, ?_⟩
    simp only [canonicalItems, heightItems]
    omega

theorem canonicalMembers_sorted :
    ∀ {members sorted : List (String × Json)} {height : Nat}, NumbersFitMembers members →
      heightMembers members ≤ height → SortedMembers height sorted →
      SortedMembers height (canonicalMembers members sorted)
  | [], _, _, _, _, hs => hs
  | (_, value) :: _, _, _, h, hle, hs => by
    obtain ⟨hw, hh⟩ := canonical_wellFormed h.1
    simp only [heightMembers] at hle
    rw [canonicalMembers]
    exact canonicalMembers_sorted h.2 (by omega) (insertMember_sorted hs hw (by omega))

end

end FirstMatch.Json
