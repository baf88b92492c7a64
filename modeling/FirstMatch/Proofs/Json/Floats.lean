import FirstMatch.Json.Basic

/-!
The floats in a value, and what replacing them leaves alone: the names in its objects, so that
the canonical form stays canonical.
-/

namespace FirstMatch.Json

mutual

def floats : Json → List Double
  | .number (.float x) => [x]
  | .list items => floatsItems items
  | .object members => floatsMembers members
  | .null | .bool _ | .number (.integer _) | .string _ => []

def floatsItems : List Json → List Double
  | [] => []
  | item :: rest => item.floats ++ floatsItems rest

def floatsMembers : List (String × Json) → List Double
  | [] => []
  | (_, value) :: rest => value.floats ++ floatsMembers rest

end

mutual

/-- The value with every float replaced. -/
def mapFloats (g : Double → Double) : Json → Json
  | .number (.float x) => .number (.float (g x))
  | .list items => .list (mapFloatsItems g items)
  | .object members => .object (mapFloatsMembers g members)
  | .null => .null
  | .bool b => .bool b
  | .number (.integer n) => .number (.integer n)
  | .string s => .string s

def mapFloatsItems (g : Double → Double) : List Json → List Json
  | [] => []
  | item :: rest => item.mapFloats g :: mapFloatsItems g rest

def mapFloatsMembers (g : Double → Double) : List (String × Json) → List (String × Json)
  | [] => []
  | (name, value) :: rest => (name, value.mapFloats g) :: mapFloatsMembers g rest

end

mutual

theorem mapFloats_self {g : Double → Double} :
    ∀ v : Json, (∀ x ∈ v.floats, g x = x) → v.mapFloats g = v
  | .null, _ => rfl
  | .bool _, _ => rfl
  | .number (.integer _), _ => rfl
  | .number (.float x), h => by
    simp only [mapFloats, h x (by simp [floats])]
  | .string _, _ => rfl
  | .list items, h => by
    simp only [mapFloats, mapFloatsItems_self items h]
  | .object members, h => by
    simp only [mapFloats, mapFloatsMembers_self members h]

theorem mapFloatsItems_self {g : Double → Double} :
    ∀ items : List Json, (∀ x ∈ floatsItems items, g x = x) → mapFloatsItems g items = items
  | [], _ => rfl
  | item :: rest, h => by
    have hi : item.mapFloats g = item :=
      mapFloats_self item fun x hx => h x (List.mem_append_left _ hx)
    have hr : mapFloatsItems g rest = rest :=
      mapFloatsItems_self rest fun x hx => h x (List.mem_append_right _ hx)
    simp only [mapFloatsItems, hi, hr]

theorem mapFloatsMembers_self {g : Double → Double} :
    ∀ members : List (String × Json), (∀ x ∈ floatsMembers members, g x = x) →
      mapFloatsMembers g members = members
  | [], _ => rfl
  | (name, value) :: rest, h => by
    have hv : value.mapFloats g = value :=
      mapFloats_self value fun x hx => h x (List.mem_append_left _ hx)
    have hr : mapFloatsMembers g rest = rest :=
      mapFloatsMembers_self rest fun x hx => h x (List.mem_append_right _ hx)
    simp only [mapFloatsMembers, hv, hr]

end

mutual

theorem floats_mapFloats (g : Double → Double) :
    ∀ v : Json, (v.mapFloats g).floats = v.floats.map g
  | .null | .bool _ | .number (.integer _) | .number (.float _) | .string _ => rfl
  | .list items => floatsItems_mapFloats g items
  | .object members => floatsMembers_mapFloats g members

theorem floatsItems_mapFloats (g : Double → Double) :
    ∀ items : List Json, floatsItems (mapFloatsItems g items) = (floatsItems items).map g
  | [] => rfl
  | item :: rest => by
    rw [mapFloatsItems, floatsItems, floatsItems, List.map_append, floats_mapFloats g item,
      floatsItems_mapFloats g rest]

theorem floatsMembers_mapFloats (g : Double → Double) :
    ∀ members : List (String × Json),
      floatsMembers (mapFloatsMembers g members) = (floatsMembers members).map g
  | [] => rfl
  | (_, value) :: rest => by
    rw [mapFloatsMembers, floatsMembers, floatsMembers, List.map_append, floats_mapFloats g value,
      floatsMembers_mapFloats g rest]

end

/-- Replacing the floats changes the value unless it leaves each of them alone. -/
theorem mapFloats_eq_self_iff {g : Double → Double} {v : Json} :
    v.mapFloats g = v ↔ ∀ x ∈ v.floats, g x = x := by
  constructor
  · intro h
    have hfloats := floats_mapFloats g v
    rw [h] at hfloats
    exact List.map_inj_left.mp (hfloats.symm.trans (List.map_id _).symm)
  · exact mapFloats_self v

mutual

theorem WellFormed.isFinite : ∀ {v : Json}, v.WellFormed → ∀ x ∈ v.floats, x.isFinite = true
  | .null, _, _, hx | .bool _, _, _, hx | .string _, _, _, hx
  | .number (.integer _), _, _, hx => absurd hx (by simp [floats])
  | .number (.float _), h, _, hx => List.mem_singleton.mp hx ▸ h
  | .list _, h, x, hx => WellFormedItems.isFinite h x hx
  | .object _, h, x, hx => WellFormedMembers.isFinite h.2 x hx

theorem WellFormedItems.isFinite :
    ∀ {items : List Json}, WellFormedItems items → ∀ x ∈ floatsItems items, x.isFinite = true
  | [], _, _, hx => absurd hx List.not_mem_nil
  | _ :: _, h, x, hx => (List.mem_append.mp hx).elim (h.1.isFinite x)
      (WellFormedItems.isFinite h.2 x)

theorem WellFormedMembers.isFinite :
    ∀ {members : List (String × Json)}, WellFormedMembers members →
      ∀ x ∈ floatsMembers members, x.isFinite = true
  | [], _, _, hx => absurd hx List.not_mem_nil
  | _ :: _, h, x, hx => (List.mem_append.mp hx).elim (h.1.isFinite x)
      (WellFormedMembers.isFinite h.2 x)

end

theorem ofDouble_eq {x : Double} (hx : x.isFinite = true) : ofDouble x = .number (.float x) :=
  if_pos hx

theorem ofDouble_eq_null {x : Double} (hx : ¬ x.isFinite = true) : ofDouble x = .null :=
  if_neg hx

theorem floats_field (name field : String) (v : Json) :
    (Json.object [("op", .string name), (field, v)]).floats = v.floats := by
  simp only [floats, floatsMembers, List.nil_append, List.append_nil]

theorem floatsItems_eq (items : List Json) : floatsItems items = items.flatMap floats := by
  induction items with
  | nil => rfl
  | cons item rest ih => rw [floatsItems, ih, List.flatMap_cons]

theorem mapFloatsItems_eq (g : Double → Double) (items : List Json) :
    mapFloatsItems g items = items.map (mapFloats g) := by
  induction items with
  | nil => rfl
  | cons item rest ih => rw [mapFloatsItems, ih, List.map_cons]

/-- The names in an object stay. -/
theorem mem_of_mem_mapFloats {g : Double → Double} {m : String × Json}
    {members : List (String × Json)} (hm : m ∈ mapFloatsMembers g members) :
    ∃ n ∈ members, n.1 = m.1 := by
  induction members with
  | nil => cases hm
  | cons n rest ih =>
    rcases List.mem_cons.mp hm with rfl | hm
    · exact ⟨n, List.mem_cons_self, rfl⟩
    · obtain ⟨k, hk, hname⟩ := ih hm
      exact ⟨k, List.mem_cons_of_mem n hk, hname⟩

/-! Canonical form -/

theorem insertMember_mapFloats (g : Double → Double) (key : String) (value : Json)
    (sorted : List (String × Json)) :
    insertMember key (value.mapFloats g) (mapFloatsMembers g sorted) =
      mapFloatsMembers g (insertMember key value sorted) := by
  induction sorted with
  | nil => rfl
  | cons m sorted ih =>
    obtain ⟨k, v⟩ := m
    simp only [mapFloatsMembers, insertMember]
    by_cases heq : key = k
    · simp only [heq, if_true, mapFloatsMembers]
    · by_cases hlt : key < k
      · simp only [heq, hlt, if_true, if_false, mapFloatsMembers]
      · simp only [heq, hlt, if_false, mapFloatsMembers, ih]

mutual

theorem canonical_mapFloats (g : Double → Double) :
    ∀ v : Json, (v.mapFloats g).canonical = v.canonical.mapFloats g
  | .null => rfl
  | .bool _ => rfl
  | .number (.integer _) => rfl
  | .number (.float _) => rfl
  | .string _ => rfl
  | .list items => by
    simp only [mapFloats, canonical, canonicalItems_mapFloats g items]
  | .object members => by
    have hm := canonicalMembers_mapFloats g members []
    simp only [mapFloatsMembers] at hm
    simp only [mapFloats, canonical, hm]

theorem canonicalItems_mapFloats (g : Double → Double) :
    ∀ items : List Json,
      canonicalItems (mapFloatsItems g items) = mapFloatsItems g (canonicalItems items)
  | [] => rfl
  | item :: rest => by
    simp only [mapFloatsItems, canonicalItems, canonical_mapFloats g item,
      canonicalItems_mapFloats g rest]

theorem canonicalMembers_mapFloats (g : Double → Double) :
    ∀ members sorted : List (String × Json),
      canonicalMembers (mapFloatsMembers g members) (mapFloatsMembers g sorted) =
        mapFloatsMembers g (canonicalMembers members sorted)
  | [], _ => rfl
  | (key, value) :: rest, sorted => by
    simp only [mapFloatsMembers, canonicalMembers, canonical_mapFloats g value,
      insertMember_mapFloats, canonicalMembers_mapFloats g rest]

end

end FirstMatch.Json
