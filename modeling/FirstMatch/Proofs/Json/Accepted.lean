import FirstMatch.Json.Reader
import FirstMatch.Proofs.Double.Finite
import FirstMatch.Proofs.Json.Canonical
import FirstMatch.Proofs.Outcome

/-!
What a reader accepts: values whose numbers are well-formed and that are nested no deeper than
allowed, and whose canonical form is well-formed.
-/

namespace FirstMatch

namespace Json

def Fits (bound : Nat) (v : Json) : Prop := v.NumbersFit ∧ v.height ≤ bound

theorem fits_list {bound : Nat} {items : List Json} (h : ∀ v ∈ items, Fits bound v) :
    Fits (bound + 1) (.list items) := by
  induction items with
  | nil => exact ⟨trivial, Nat.le_add_left _ _⟩
  | cons item rest ih =>
    obtain ⟨hfit, hle⟩ := h item List.mem_cons_self
    obtain ⟨hrest, hrle⟩ := ih fun v hv => h v (List.mem_cons_of_mem _ hv)
    refine ⟨⟨hfit, hrest⟩, ?_⟩
    simp only [Json.height, heightItems] at hrle ⊢
    omega

theorem fits_object {bound : Nat} {members : List (String × Json)}
    (h : ∀ m ∈ members, Fits bound m.2) :
    Fits (bound + 1) (.object members) := by
  induction members with
  | nil => exact ⟨trivial, Nat.le_add_left _ _⟩
  | cons m rest ih =>
    obtain ⟨hfit, hle⟩ := h m List.mem_cons_self
    obtain ⟨hrest, hrle⟩ := ih fun n hn => h n (List.mem_cons_of_mem _ hn)
    refine ⟨⟨hfit, hrest⟩, ?_⟩
    simp only [Json.height, heightMembers] at hrle ⊢
    omega

theorem fits_of_list {bound : Nat} {items : List Json} (h : (list items).Fits (bound + 1)) :
    ∀ v ∈ items, v.Fits bound := by
  intro v hv
  have hle := height_le_of_mem_items hv
  have hh := h.2
  rw [height] at hh
  exact ⟨numbersFit_of_mem_items h.1 hv, by omega⟩

theorem fits_of_object {bound : Nat} {members : List (String × Json)}
    (h : (object members).Fits (bound + 1)) : ∀ m ∈ members, m.2.Fits bound := by
  intro m hm
  have hle := height_le_of_mem_members hm
  have hh := h.2
  rw [height] at hh
  exact ⟨numbersFit_of_mem_members h.1 hm, by omega⟩

end Json

namespace Reader

variable {ε α σ : Type}

/-- Whatever the reader reads has this property. -/
def Gives (read : Reader ε α) (P : α → Prop) : Prop :=
  ∀ text x rest, read text = .ok (x, rest) → P x

theorem moreItems_gives {mode : Strictness} {read : Reader ε α} {P : α → Prop}
    (h : Gives read P) (fuel : List Char) :
    Gives (moreItems mode read fuel) fun xs => ∀ x ∈ xs, P x := by
  induction fuel with
  | nil =>
    intro text xs rest hx
    obtain ⟨⟨more, tail⟩, _, hx⟩ := bind_eq_ok.mp hx
    cases more with
    | true => cases hx
    | false =>
      cases hx
      intro x hx
      cases hx
  | cons c fuel ih =>
    intro text xs rest hx
    obtain ⟨⟨more, tail⟩, _, hx⟩ := bind_eq_ok.mp hx
    cases more with
    | true =>
      obtain ⟨⟨x, tail⟩, hhead, hx⟩ := bind_eq_ok.mp hx
      obtain ⟨⟨ys, tail⟩, htail, hx⟩ := bind_eq_ok.mp hx
      cases hx
      intro y hy
      rcases List.mem_cons.mp hy with rfl | hy
      · exact h _ _ _ hhead
      · exact ih _ _ _ htail y hy
    | false =>
      cases hx
      intro x hx
      cases hx

theorem items_gives {mode : Strictness} {read : Reader ε α} {P : α → Prop} (h : Gives read P) :
    Gives (items mode read) fun xs => ∀ x ∈ xs, P x := by
  intro text xs rest hx
  obtain ⟨⟨more, tail⟩, _, hx⟩ := bind_eq_ok.mp hx
  cases more with
  | true =>
    obtain ⟨⟨x, tail⟩, hhead, hx⟩ := bind_eq_ok.mp hx
    obtain ⟨⟨ys, tail⟩, htail, hx⟩ := bind_eq_ok.mp hx
    cases hx
    intro y hy
    rcases List.mem_cons.mp hy with rfl | hy
    · exact h _ _ _ hhead
    · exact moreItems_gives h _ _ _ _ htail y hy
  | false =>
    cases hx
    intro x hx
    cases hx

/-- What each member preserves holds after all of them. -/
theorem moreMembers_gives {mode : Strictness} {read : σ → String → Reader ε σ} {P : σ → Prop}
    (h : ∀ s name, P s → Gives (read s name) P) (fuel : List Char) {s : σ} (hs : P s) :
    Gives (moreMembers mode read fuel s) P := by
  induction fuel generalizing s with
  | nil =>
    intro text t rest ht
    obtain ⟨⟨more, tail⟩, _, ht⟩ := bind_eq_ok.mp ht
    cases more with
    | true => cases ht
    | false =>
      cases ht
      exact hs
  | cons c fuel ih =>
    intro text t rest ht
    obtain ⟨⟨more, tail⟩, _, ht⟩ := bind_eq_ok.mp ht
    cases more with
    | true =>
      obtain ⟨⟨name, tail⟩, _, ht⟩ := bind_eq_ok.mp ht
      obtain ⟨⟨next, tail⟩, hnext, ht⟩ := bind_eq_ok.mp ht
      exact ih (h s name hs _ _ _ hnext) _ _ _ ht
    | false =>
      cases ht
      exact hs

theorem members_gives {mode : Strictness} {read : σ → String → Reader ε σ} {P : σ → Prop}
    (h : ∀ s name, P s → Gives (read s name) P) {init : σ} (hi : P init) :
    Gives (members mode read init) P := by
  intro text t rest ht
  obtain ⟨⟨more, tail⟩, _, ht⟩ := bind_eq_ok.mp ht
  cases more with
  | true =>
    obtain ⟨⟨name, tail⟩, _, ht⟩ := bind_eq_ok.mp ht
    obtain ⟨⟨next, tail⟩, hnext, ht⟩ := bind_eq_ok.mp ht
    exact moreMembers_gives h _ (h init name hi _ _ _ hnext) _ _ _ ht
  | false =>
    cases ht
    exact hi

theorem number_gives : Gives (number .strict : Reader ε Number) Number.WellFormed := by
  intro text n rest hn
  obtain ⟨⟨numeral, tail⟩, _, hn⟩ := bind_eq_ok.mp hn
  cases hv : numeral.value? with
  | none =>
    simp only [hv] at hn
    cases hn
  | some k =>
    simp only [hv] at hn
    cases hn
    exact Numeral.value?_wellFormed hv

theorem word_gives {a : α} (letters : List Char) :
    Gives (word a letters : Reader ε α) fun x => x = a := by
  induction letters with
  | nil =>
    intro text x rest hx
    cases hx
    rfl
  | cons c letters ih =>
    intro text x rest hx
    cases text with
    | nil => cases hx
    | cons d text =>
      rw [word] at hx
      split at hx
      · exact ih text x rest hx
      · cases hx

theorem scalar_gives : Gives (scalar .strict : Reader ε Json) (Json.Fits 0) := by
  intro text v rest hv
  unfold scalar at hv
  split at hv
  · cases hv
  · obtain rfl := word_gives _ _ _ _ hv
    exact ⟨trivial, Nat.le_refl _⟩
  · obtain rfl := word_gives _ _ _ _ hv
    exact ⟨trivial, Nat.le_refl _⟩
  · obtain rfl := word_gives _ _ _ _ hv
    exact ⟨trivial, Nat.le_refl _⟩
  · obtain ⟨⟨s, tail⟩, _, hv⟩ := bind_eq_ok.mp hv
    cases hv
    exact ⟨trivial, Nat.le_refl _⟩
  · split at hv
    · obtain ⟨⟨n, tail⟩, hn, hv⟩ := bind_eq_ok.mp hv
      cases hv
      exact ⟨number_gives _ _ _ hn, Nat.le_refl _⟩
    · cases hv

theorem member_gives {read : Reader ε Json} {P : Json → Prop} (h : Gives read P)
    (before : List (String × Json)) (name : String) (hb : ∀ m ∈ before, P m.2) :
    Gives (member read before name) fun ms => ∀ m ∈ ms, P m.2 := by
  intro text ms rest hms
  obtain ⟨⟨_, tail⟩, _, hms⟩ := bind_eq_ok.mp hms
  obtain ⟨⟨v, tail⟩, hv, hms⟩ := bind_eq_ok.mp hms
  cases hms
  intro m hm
  rcases List.mem_cons.mp hm with rfl | hm
  · exact h _ _ _ hv
  · exact hb m hm

theorem value_gives (depth : Nat) :
    Gives (value .strict depth : Reader ε Json) (Json.Fits depth) := by
  induction depth with
  | zero =>
    intro text v rest hv
    rw [value] at hv
    split at hv
    · cases hv
    · cases hv
    · exact scalar_gives _ _ _ hv
  | succ depth ih =>
    intro text v rest hv
    rw [value] at hv
    split at hv
    · obtain ⟨⟨xs, tail⟩, hxs, hv⟩ := bind_eq_ok.mp hv
      cases hv
      exact Json.fits_list (items_gives ih _ _ _ hxs)
    · obtain ⟨⟨ms, tail⟩, hms, hv⟩ := bind_eq_ok.mp hv
      cases hv
      have hnone : ∀ m ∈ ([] : List (String × Json)), m.2.Fits depth := by
        intro m hm
        cases hm
      have hfit := members_gives (fun before name hb => member_gives ih before name hb) hnone
        _ _ _ hms
      exact Json.fits_object fun m hm => hfit m (List.mem_reverse.mp hm)
    · obtain ⟨hfit, hle⟩ := scalar_gives _ _ _ hv
      exact ⟨hfit, by omega⟩

end Reader

namespace Json

variable {text : String} {v : Json}

theorem toOption_ofText? (text : String) : (ofText? text).toOption =
    (Reader.all (@Reader.value Empty .strict maxHeight) text.toList).toOption.map canonical := by
  unfold ofText?
  split
  · rename_i w hw
    rw [hw]
    rfl
  · rename_i hw
    rw [hw]
    rfl
  · rename_i reason _
    exact nomatch reason

/-- Whatever is read is well-formed and nested no deeper than is allowed. -/
theorem ofText?_wellFormed (h : ofText? text = .ok v) : v.WellFormed ∧ v.height ≤ maxHeight := by
  rw [← toOption_eq_some, toOption_ofText?, Option.map_eq_some_iff] at h
  obtain ⟨w, hw, rfl⟩ := h
  obtain ⟨⟨u, rest⟩, hu, hw⟩ := bind_eq_ok.mp (toOption_eq_some.mp hw)
  obtain ⟨-, -, hw⟩ := bind_eq_ok.mp hw
  obtain rfl := Except.ok.inj hw
  obtain ⟨hfit, hheight⟩ := Reader.value_gives maxHeight _ _ _ hu
  obtain ⟨hwell, hle⟩ := canonical_wellFormed hfit
  exact ⟨hwell, Nat.le_trans hle hheight⟩

end Json

end FirstMatch
