import FirstMatch.Proofs.Json.Accepted
import FirstMatch.Proofs.Table.Floats
import FirstMatch.Table.Operation

/-!
Whatever condition or action is decoded from a value with well-formed numbers is well-formed, and
its own text opens no more brackets than the value does.
-/

namespace FirstMatch

theorem mapM_eq_ok {ε α β : Type} {f : α → Except ε β} {xs : List α} {ys : List β}
    (h : xs.mapM f = .ok ys) : ∀ y ∈ ys, ∃ x ∈ xs, f x = .ok y := by
  induction xs generalizing ys with
  | nil =>
    cases h
    intro y hy
    cases hy
  | cons x xs ih =>
    rw [List.mapM_cons] at h
    obtain ⟨z, hz, h⟩ := bind_eq_ok.mp h
    obtain ⟨zs, hzs, h⟩ := bind_eq_ok.mp h
    cases h
    intro y hy
    rcases List.mem_cons.mp hy with rfl | hy
    · exact ⟨x, List.mem_cons_self, hz⟩
    · obtain ⟨w, hw, hfw⟩ := ih hzs y hy
      exact ⟨w, List.mem_cons_of_mem x hw, hfw⟩

/-! What operations make of their fields -/

section Sound

variable {α : Type} {good : Nat → α → Prop}

/-- A property of things and heights, which holds for greater heights too. -/
def Grows (good : Nat → α → Prop) : Prop := ∀ h k x, h ≤ k → good h x → good k x

def Operation.Sound (good : Nat → α → Prop) (op : Operation α) : Prop :=
  match op.fields with
  | .none x => good 1 x
  | .one _ decode => ∀ height v x, v.Fits height → decode v = .ok x → good (height + 1) x

def Vocabulary.Sound (good : Nat → α → Prop) (v : Vocabulary α) : Prop :=
  ∀ op ∈ v.operations, op.Sound good

namespace Operation

theorem decodeField_sound {name : String} {decode : Json → Except Refusal α} {P : α → Prop}
    {members : List (String × Json)} (h : ∀ m ∈ members, ∀ x, decode m.2 = .ok x → P x)
    {found : Option α} (hf : ∀ x, found = some x → P x) {y : α}
    (hy : decodeField name decode found members = .ok y) : P y := by
  induction members generalizing found with
  | nil =>
    cases found with
    | none => cases hy
    | some x =>
      cases hy
      exact hf _ rfl
  | cons m members ih =>
    obtain ⟨key, v⟩ := m
    have hrest : ∀ m ∈ members, ∀ x, decode m.2 = .ok x → P x := fun m hm =>
      h m (List.mem_cons_of_mem _ hm)
    by_cases hk : key = name
    · cases found with
      | some x =>
        simp only [decodeField, hk, if_true] at hy
        cases hy
      | none =>
        simp only [decodeField, hk, if_true] at hy
        obtain ⟨z, hz, hy⟩ := bind_eq_ok.mp hy
        refine ih hrest ?_ hy
        intro x hx
        obtain rfl := Option.some.inj hx
        exact h (key, v) List.mem_cons_self _ hz
    · refine ih hrest hf ?_
      cases found <;> simpa only [decodeField, hk, if_false] using hy

theorem ofMembers_sound (hg : Grows good) {op : Operation α} (h : op.Sound good) {height : Nat}
    {members : List (String × Json)} (hm : ∀ m ∈ members, m.2.Fits height) {x : α}
    (hx : op.ofMembers members = .ok x) : good (height + 1) x := by
  unfold ofMembers at hx
  unfold Sound at h
  split at hx
  · rename_i hfields
    rw [hfields] at h
    cases hx
    exact hg 1 _ _ (Nat.le_add_left _ _) h
  · rename_i hfields
    rw [hfields] at h
    apply decodeField_sound _ nofun hx
    intro m hmem y hy
    exact h height m.2 y (hm m hmem) hy

theorem ofItems_sound (hg : Grows good) {op : Operation α} (h : op.Sound good) {height : Nat}
    {items : List Json} (hm : ∀ v ∈ items, v.Fits height) {x : α}
    (hx : op.ofItems items = .ok x) : good (height + 1) x := by
  unfold ofItems at hx
  unfold Sound at h
  split at hx
  · rename_i hfields
    rw [hfields] at h
    cases hx
    exact hg 1 _ _ (Nat.le_add_left _ _) h
  · cases hx
  · cases hx
  · rename_i hfields
    rw [hfields] at h
    obtain ⟨y, hy, hx⟩ := bind_eq_ok.mp hx
    split at hx
    · cases hx
      exact h height _ _ (hm _ List.mem_cons_self) hy
    · cases hx

end Operation

namespace Vocabulary

theorem named_mem {v : Vocabulary α} {name : String} {op : Operation α}
    (h : v.named name = .ok op) : op ∈ v.operations := by
  unfold named at h
  split at h
  · rename_i hop
    cases h
    exact List.mem_of_find?_eq_some hop
  · cases h

theorem operation_mem {v : Vocabulary α} {w : Json} {op : Operation α}
    (h : v.operation w = .ok op) : op ∈ v.operations := by
  unfold operation at h
  split at h
  · exact named_mem h
  · split at h
    · split at h
      · rename_i hop
        cases h
        exact List.mem_of_getElem? hop
      · cases h
    · cases h
  · cases h

theorem split_mem {v : Vocabulary α} {members others : List (String × Json)}
    {found : Option (Operation α)} (hf : ∀ op, found = some op → op ∈ v.operations)
    {op : Operation α} (h : v.split found members = .ok (op, others)) :
    op ∈ v.operations ∧ ∀ m ∈ others, m ∈ members := by
  induction members generalizing found others with
  | nil =>
    cases found with
    | none => cases h
    | some first =>
      cases h
      exact ⟨hf _ rfl, fun m hm => hm⟩
  | cons m members ih =>
    obtain ⟨name, w⟩ := m
    by_cases hname : name = "op"
    · cases found with
      | some first =>
        simp only [split, hname, if_true] at h
        cases h
      | none =>
        simp only [split, hname, if_true] at h
        obtain ⟨first, hfirst, h⟩ := bind_eq_ok.mp h
        have hknown : ∀ o, some first = some o → o ∈ v.operations := by
          intro o ho
          obtain rfl := Option.some.inj ho
          exact operation_mem hfirst
        obtain ⟨hop, hrest⟩ := ih hknown h
        exact ⟨hop, fun n hn => List.mem_cons_of_mem _ (hrest n hn)⟩
    · have hsplit : (v.split found members >>= fun last => pure (last.1, (name, w) :: last.2)) =
          .ok (op, others) := by
        cases found <;> simpa only [split, hname, if_false] using h
      obtain ⟨⟨last, rest⟩, hlast, h⟩ := bind_eq_ok.mp hsplit
      cases h
      obtain ⟨hop, hrest⟩ := ih hf hlast
      constructor
      · exact hop
      · intro n hn
        rcases List.mem_cons.mp hn with rfl | hn
        · exact List.mem_cons_self
        · exact List.mem_cons_of_mem _ (hrest n hn)

/-- What is decoded is good for the height of the value that it is decoded from. -/
theorem decode_sound (hg : Grows good) {v : Vocabulary α} (hv : v.Sound good) {height : Nat}
    {w : Json} (hw : w.Fits height) {x : α} (hx : v.decode w = .ok x) : good height x := by
  cases height with
  | zero =>
    cases w with
    | list items => exact absurd hw.2 (by rw [Json.height]; omega)
    | object members => exact absurd hw.2 (by rw [Json.height]; omega)
    | _ => cases hx
  | succ height =>
    cases w with
    | object members =>
      obtain ⟨⟨op, others⟩, hsplit, hx⟩ := bind_eq_ok.mp hx
      have hnone : ∀ o, (none : Option (Operation α)) = some o → o ∈ v.operations := by
        intro o ho
        cases ho
      obtain ⟨hop, hothers⟩ := split_mem hnone hsplit
      exact Operation.ofMembers_sound hg (hv op hop)
        (fun m hm => Json.fits_of_object hw m (hothers m hm)) hx
    | list items =>
      cases items with
      | nil => cases hx
      | cons first rest =>
        obtain ⟨op, hop, hx⟩ := bind_eq_ok.mp hx
        exact Operation.ofItems_sound hg (hv op (operation_mem hop))
          (fun v hv => Json.fits_of_list hw v (List.mem_cons_of_mem _ hv)) hx
    | _ => cases hx

end Vocabulary

end Sound

namespace Json

theorem decodeDouble_isFinite {height : Nat} {v : Json} (hv : v.Fits height) {x : Double}
    (hx : v.decodeDouble = .ok x) : x.isFinite = true := by
  cases v with
  | number n =>
    cases hx
    cases n with
    | integer k =>
      have hk : -2 ^ 63 ≤ k ∧ k < 2 ^ 64 := hv.1
      exact Double.ofInt_isFinite (by omega)
    | float y => exact hv.1
  | _ => cases hx

theorem ofDouble_height (x : Double) : (Json.ofDouble x).height = 0 := by
  unfold ofDouble
  split <;> rfl

theorem height_field_le {name field : String} {v : Json} {height : Nat} (h : v.height ≤ height) :
    (Json.object [("op", .string name), (field, v)]).height ≤ height + 1 := by
  simp only [Json.height, Json.heightMembers]
  omega

theorem number_field_sound {name field : String} {height : Nat} {v : Json} (hv : v.Fits height)
    {x : Double} (hx : v.decodeDouble = .ok x) :
    x.isFinite = true ∧
      (Json.object [("op", .string name), (field, ofDouble x)]).height ≤ height + 1 := by
  refine ⟨decodeDouble_isFinite hv hx, height_field_le ?_⟩
  rw [ofDouble_height]
  exact Nat.zero_le height

theorem value_field_sound {name field : String} {height : Nat} {v : Json} (hv : v.Fits height) :
    v.canonical.WellFormed ∧
      (Json.object [("op", .string name), (field, v.canonical)]).height ≤ height + 1 := by
  obtain ⟨hw, hle⟩ := canonical_wellFormed hv.1
  exact ⟨hw, height_field_le (Nat.le_trans hle hv.2)⟩

theorem decodeList_sound {α : Type} {good : Nat → α → Prop} {inner : Json → Except Refusal α}
    (h : ∀ height v x, v.Fits height → inner v = .ok x → good height x) {height : Nat} {v : Json}
    (hv : v.Fits height) {xs : List α} (hxs : v.decodeList inner = .ok xs) :
    ∃ k, height = k + 1 ∧ ∀ x ∈ xs, good k x := by
  cases v with
  | list items =>
    have hh := hv.2
    rw [Json.height] at hh
    obtain ⟨k, rfl⟩ : ∃ k, height = k + 1 := ⟨height - 1, by omega⟩
    refine ⟨k, rfl, ?_⟩
    intro x hx
    obtain ⟨w, hw, hdecode⟩ := mapM_eq_ok hxs x hx
    exact h k w x (Json.fits_of_list hv w hw) hdecode
  | _ => cases hxs

end Json

namespace Condition

/-- A well-formed condition whose text opens at most so many brackets. -/
def Fits (height : Nat) (c : Condition) : Prop := c.WellFormed ∧ c.toJson.height ≤ height

theorem fits_grows : Grows Fits := by
  intro h k c hle hc
  exact ⟨hc.1, Nat.le_trans hc.2 hle⟩

theorem fits_list {height : Nat} {cs : List Condition} (h : ∀ c ∈ cs, c.Fits height) :
    WellFormedList cs ∧ Json.heightItems (toJsonList cs) ≤ height := by
  induction cs with
  | nil => exact ⟨trivial, Nat.zero_le _⟩
  | cons c cs ih =>
    obtain ⟨hw, hle⟩ := h c List.mem_cons_self
    obtain ⟨hws, hles⟩ := ih fun d hd => h d (List.mem_cons_of_mem _ hd)
    refine ⟨⟨hw, hws⟩, ?_⟩
    simp only [toJsonList, Json.heightItems]
    omega

theorem list_field_sound {name field : String} {inner : Json → Except Refusal Condition}
    (h : ∀ height v c, v.Fits height → inner v = .ok c → c.Fits height) {height : Nat} {v : Json}
    (hv : v.Fits height) {cs : List Condition} (hcs : v.decodeList inner = .ok cs) :
    WellFormedList cs ∧
      (Json.object [("op", .string name), (field, .list (toJsonList cs))]).height ≤
        height + 1 := by
  obtain ⟨k, rfl, hk⟩ := Json.decodeList_sound h hv hcs
  obtain ⟨hw, hle⟩ := fits_list hk
  exact ⟨hw, Json.height_field_le (Nat.succ_le_succ hle)⟩

theorem vocabulary_sound {inner : Json → Except Refusal Condition}
    (h : ∀ height v c, v.Fits height → inner v = .ok c → c.Fits height) :
    (vocabulary inner).Sound Fits := by
  intro op hop
  simp only [vocabulary, List.mem_cons, List.not_mem_nil, or_false] at hop
  rcases hop with rfl | rfl | rfl | rfl | rfl | rfl | rfl | rfl | rfl | rfl | rfl
  · exact ⟨trivial, Nat.le_refl _⟩
  · exact ⟨trivial, Nat.le_refl _⟩
  · exact ⟨trivial, Nat.le_refl _⟩
  · exact ⟨trivial, Nat.le_refl _⟩
  · exact ⟨trivial, Nat.le_refl _⟩
  · intro height v c hv hc
    cases hc
    exact Json.value_field_sound hv
  · intro height v c hv hc
    obtain ⟨x, hx, rfl⟩ := map_eq_ok.mp hc
    exact Json.number_field_sound hv hx
  · intro height v c hv hc
    obtain ⟨x, hx, rfl⟩ := map_eq_ok.mp hc
    exact Json.number_field_sound hv hx
  · intro height v c hv hc
    obtain ⟨d, hd, rfl⟩ := map_eq_ok.mp hc
    obtain ⟨hw, hle⟩ := h height v d hv hd
    exact ⟨hw, Json.height_field_le hle⟩
  · intro height v c hv hc
    obtain ⟨cs, hcs, rfl⟩ := map_eq_ok.mp hc
    exact list_field_sound h hv hcs
  · intro height v c hv hc
    obtain ⟨cs, hcs, rfl⟩ := map_eq_ok.mp hc
    exact list_field_sound h hv hcs

theorem ofJson_sound (limit : Nat) {height : Nat} {v : Json} {c : Condition}
    (hv : v.Fits height) (hc : ofJson limit v = .ok c) : c.Fits height := by
  induction limit generalizing height v c with
  | zero => cases hc
  | succ limit ih =>
    exact Vocabulary.decode_sound fits_grows (vocabulary_sound fun _ _ _ hw hd => ih hw hd) hv hc

end Condition

namespace Action

def Fits (height : Nat) (a : Action) : Prop := a.WellFormed ∧ a.toJson.height ≤ height

theorem fits_grows : Grows Fits := by
  intro h k a hle ha
  exact ⟨ha.1, Nat.le_trans ha.2 hle⟩

theorem fits_list {height : Nat} {as : List Action} (h : ∀ a ∈ as, a.Fits height) :
    WellFormedList as ∧ Json.heightItems (toJsonList as) ≤ height := by
  induction as with
  | nil => exact ⟨trivial, Nat.zero_le _⟩
  | cons a as ih =>
    obtain ⟨hw, hle⟩ := h a List.mem_cons_self
    obtain ⟨hws, hles⟩ := ih fun b hb => h b (List.mem_cons_of_mem _ hb)
    refine ⟨⟨hw, hws⟩, ?_⟩
    simp only [toJsonList, Json.heightItems]
    omega

theorem vocabulary_sound {inner : Json → Except Refusal Action}
    (h : ∀ height v a, v.Fits height → inner v = .ok a → a.Fits height) :
    (vocabulary inner).Sound Fits := by
  intro op hop
  simp only [vocabulary, List.mem_cons, List.not_mem_nil, or_false] at hop
  rcases hop with rfl | rfl | rfl | rfl | rfl | rfl | rfl | rfl
  · exact ⟨trivial, Nat.le_refl _⟩
  · exact ⟨trivial, Nat.le_refl _⟩
  · intro height v a hv ha
    cases ha
    exact Json.value_field_sound hv
  · exact ⟨trivial, Nat.le_refl _⟩
  · intro height v a hv ha
    obtain ⟨x, hx, rfl⟩ := map_eq_ok.mp ha
    exact Json.number_field_sound hv hx
  · intro height v a hv ha
    obtain ⟨x, hx, rfl⟩ := map_eq_ok.mp ha
    exact Json.number_field_sound hv hx
  · exact ⟨trivial, Nat.le_refl _⟩
  · intro height v a hv ha
    obtain ⟨as, has, rfl⟩ := map_eq_ok.mp ha
    obtain ⟨k, rfl, hk⟩ := Json.decodeList_sound h hv has
    obtain ⟨hw, hle⟩ := fits_list hk
    exact ⟨hw, Json.height_field_le (Nat.succ_le_succ hle)⟩

theorem ofJson_sound (limit : Nat) {height : Nat} {v : Json} {a : Action}
    (hv : v.Fits height) (ha : ofJson limit v = .ok a) : a.Fits height := by
  induction limit generalizing height v a with
  | zero => cases ha
  | succ limit ih =>
    exact Vocabulary.decode_sound fits_grows (vocabulary_sound fun _ _ _ hw hb => ih hw hb) hv ha

end Action

end FirstMatch
