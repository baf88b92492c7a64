import FirstMatch.Proofs.Table.Position

/-!
Conditions and actions at their positions: what the decoder of operations accepts is what is
complete and of the right type, with conditions or actions in it of which the same holds.
-/

namespace FirstMatch

theorem isSome_mapM {α β : Type} (f : α → Option β) (xs : List α) :
    (xs.mapM f).isSome = true ↔ ∀ x ∈ xs, (f x).isSome = true := by
  induction xs with
  | nil => simp
  | cons x xs ih =>
    rw [List.mapM_cons, List.forall_mem_cons, ← ih]
    cases f x with
    | none => simp
    | some y => cases xs.mapM f <;> simp

section Fields

variable {α β : Type} {name : String} {f : β → Option α} {ms : List (String × β)}

def under (name : String) (ms : List (String × β)) : List β :=
  (ms.filter fun m => m.1 == name).map (·.2)

theorem isSome_field? : (field? name f ms).isSome = true ↔
    (under name ms).length ≤ 1 ∧ ∀ x ∈ under name ms, (f x).isSome = true := by
  rw [under]
  cases hms : ms.filter fun m => m.1 == name with
  | nil => simp [field?_of_nil hms]
  | cons m rest =>
    cases rest with
    | nil => simp [field?_of_single hms]
    | cons n rest => simp [field?_of_two hms]

theorem isSome_field?_join_bind {γ : Type} {read : α → Option γ} :
    ((field? name f ms).join.bind read).isSome = true ↔
      ∃ x, under name ms = [x] ∧ ((f x).bind read).isSome = true := by
  rw [under]
  cases hms : ms.filter fun m => m.1 == name with
  | nil => simp [field?_of_nil hms]
  | cons m rest =>
    cases rest with
    | nil => cases hm : f m.2 <;> simp [field?_of_single hms, hm]
    | cons n rest => simp [field?_of_two hms]

theorem isSome_field?_join : (field? name f ms).join.isSome = true ↔
    (under name ms).length = 1 ∧ ∀ x ∈ under name ms, (f x).isSome = true := by
  rw [← Option.bind_fun_some (field? name f ms).join, isSome_field?_join_bind,
    List.length_eq_one_iff]
  simp only [Option.bind_fun_some, ← exists_and_right]
  refine exists_congr fun x => and_congr_right fun hx => ?_
  simp [hx]

end Fields

namespace Document

variable {d : Document} {ms : List (List Piece × Document)}

theorem entries_object {ns : List (String × Document)} (h : named? .strict ms = some ns)
    (name : String) (place : Nat) : (object ms).entries name place = under name ns := by
  rw [entries, under]
  induction mapM_eq_some.mp h with
  | nil => rfl
  | @cons m n ms ns head _ ih =>
    obtain ⟨key, hkey, rfl⟩ := Option.map_eq_some_iff.mp head
    have hrest := ih (mapM_eq_some.mpr ‹_›)
    by_cases hname : key = name <;> simpa [hkey, hname] using hrest

end Document

/-- The document stands for a condition or an action inside another one. -/
def Grammar.Means {α : Type} (g : Grammar α) (d : Document) : Prop :=
  ((d.value? .strict).bind g.inner?).isSome = true

def Kind.Means : Kind → Document → Prop
  | condition => Condition.grammar.Means
  | action => Action.grammar.Means

/-! Operations -/

def Content.Accepts {α : Type} (inner : Json → Except Refusal α) : Content → Json → Prop
  | value, _ => True
  | number, v => ∃ n, v = .number n
  | one, v => (inner v).toOption.isSome = true
  | many, v => ∃ items, v = .list items ∧ ∀ i ∈ items, (inner i).toOption.isSome = true

inductive Form.Describes {α : Type} (inner : Json → Except Refusal α) :
    Form → Operation α → Prop where
  | bare {name variant : String} {x : α} : Describes inner ⟨name, none⟩ ⟨name, variant, .none x⟩
  | field {name variant field : String} {content : Content} {decode : Json → Except Refusal α}
      (other : field ≠ "op")
      (accepts : ∀ v, (decode v).toOption.isSome = true ↔ content.Accepts inner v) :
      Describes inner ⟨name, some (field, content)⟩ ⟨name, variant, .one field decode⟩

section Operations

variable {α : Type} {inner : Json → Except Refusal α} {f : Form} {op : Operation α}

theorem isSome_value (make : Json → α) (v : Json) :
    ((Except.ok (make v) : Except Refusal α).toOption.isSome = true) ↔
      Content.value.Accepts inner v := by
  simp [Content.Accepts, Except.toOption]

theorem isSome_number (make : Double → α) (v : Json) :
    (make <$> v.decodeDouble).toOption.isSome = true ↔ Content.number.Accepts inner v := by
  rw [toOption_map, Option.isSome_map, Content.Accepts]
  cases v <;> simp [Json.decodeDouble, Except.toOption]

theorem isSome_one (make : α → α) (v : Json) :
    (make <$> inner v).toOption.isSome = true ↔ Content.one.Accepts inner v := by
  rw [toOption_map, Option.isSome_map, Content.Accepts]

theorem isSome_many (make : List α → α) (v : Json) :
    (make <$> v.decodeList inner).toOption.isSome = true ↔ Content.many.Accepts inner v := by
  rw [toOption_map, Option.isSome_map, Content.Accepts]
  cases v with
  | list items => simp [Json.decodeList, toOption_mapM, isSome_mapM]
  | _ => simp [Json.decodeList, Except.toOption]

theorem Form.Describes.name (h : f.Describes inner op) : f.name = op.name := by
  cases h <;> rfl

theorem Form.Describes.isSome_ofMembers (h : f.Describes inner op) (ms : List (String × Json)) :
    (op.ofMembers (Vocabulary.others ms)).toOption.isSome = true ↔ ∀ p ∈ f.field,
      (under p.1 ms).length = 1 ∧ ∀ v ∈ under p.1 ms, p.2.Accepts inner v := by
  cases h with
  | bare => simp [Operation.ofMembers, Except.toOption]
  | field hother haccepts =>
    simp only [Operation.ofMembers, Operation.decodeField_none, isSome_field?_join, under,
      Vocabulary.filter_others hother, haccepts, Option.mem_some_iff, forall_eq']

theorem Form.Describes.isSome_ofItems (h : f.Describes inner op) (items : List Json) :
    (op.ofItems items).toOption.isSome = true ↔ items.length = f.field.toList.length ∧
      ∀ p ∈ f.field, ∀ v ∈ items[0]?.toList, p.2.Accepts inner v := by
  cases h with
  | bare =>
    cases items <;> simp [Operation.ofItems, Except.toOption]
  | @field name variant field content decode hother haccepts =>
    rcases items with _ | ⟨v, _ | ⟨w, items⟩⟩
    · simp [Operation.ofItems, Except.toOption]
    · simp [Operation.ofItems, ← haccepts]
    · cases hv : decode v <;> simp [Operation.ofItems, hv, Except.toOption, bind, Except.bind]

end Operations

/-- The operations of the grammar are written in the forms of this kind. -/
def Grammar.Has {α : Type} (g : Grammar α) (k : Kind) : Prop :=
  ∀ inner, List.Forall₂ (Form.Describes inner) k.forms (g.vocabulary inner).operations

theorem Condition.grammar_has : grammar.Has .condition := fun _ =>
  .cons .bare <| .cons .bare <| .cons .bare <| .cons .bare <| .cons .bare <|
    .cons (.field (by decide) (isSome_value _)) <|
    .cons (.field (by decide) (isSome_number _)) <|
    .cons (.field (by decide) (isSome_number _)) <|
    .cons (.field (by decide) (isSome_one _)) <|
    .cons (.field (by decide) (isSome_many _)) <|
    .cons (.field (by decide) (isSome_many _)) .nil

theorem Action.grammar_has : grammar.Has .action := fun _ =>
  .cons .bare <| .cons .bare <| .cons (.field (by decide) (isSome_value _)) <| .cons .bare <|
    .cons (.field (by decide) (isSome_number _)) <|
    .cons (.field (by decide) (isSome_number _)) <| .cons .bare <|
    .cons (.field (by decide) (isSome_many _)) .nil

theorem Kind.form?_ofString (k : Kind) (name : String) :
    k.form? (.ofString name) = k.forms.find? fun f => f.name == name := by
  simp [form?, Document.ofString, Document.value?, Token.value?, Piece.string?_ofString, chosen?]

section Operands

variable {α : Type} {k : Kind} {g : Grammar α}

theorem Grammar.Has.rel_chosen? (hg : g.Has k) (inner : Json → Except Refusal α) (j : Json) :
    Option.Rel (Form.Describes inner) (k.chosen? j) ((g.vocabulary inner).chosen? j) := by
  have hforms := hg inner
  cases j with
  | string name =>
    rw [Kind.chosen?, Vocabulary.chosen?, Vocabulary.operation, Vocabulary.toOption_named]
    exact rel_find? hforms fun f op hop => by rw [hop.name]
  | number n =>
    cases n with
    | float x => exact .none
    | integer n =>
      rw [Kind.chosen?, Vocabulary.chosen?_integer]
      split
      · exact rel_getElem? hforms n.toNat
      · exact .none
  | _ => exact .none

def Content.Holds (means : Document → Prop) : Content → Document → Prop
  | value, _ => True
  | number, d => ∃ n, d.value? .strict = some (.number n)
  | one, d => means d
  | many, d => ∃ ds, d = .list ds ∧ ∀ e ∈ ds, means e

theorem forall_iff_of_forall₂ {β γ : Type} {R : β → γ → Prop} {p : β → Prop} {q : γ → Prop}
    {xs : List β} {ys : List γ} (h : List.Forall₂ R xs ys)
    (hpq : ∀ x, ∀ y ∈ ys, R x y → (p x ↔ q y)) : (∀ x ∈ xs, p x) ↔ ∀ y ∈ ys, q y := by
  induction h with
  | nil => simp
  | @cons x y xs ys hxy _ ih =>
    rw [List.forall_mem_cons, List.forall_mem_cons, hpq x y List.mem_cons_self hxy,
      ih fun x z hz => hpq x z (List.mem_cons_of_mem y hz)]

theorem Content.accepts_iff {h : Nat} (c : Content) {d : Document} {v : Json}
    (hv : d.value? .strict = some v) (hh : v.height ≤ h) :
    c.Accepts (g.ofJson h) v ↔ c.Holds g.Means d := by
  have hone : ∀ {e : Document} {w : Json}, e.value? .strict = some w → w.height ≤ h →
      ((g.ofJson h w).toOption.isSome = true ↔ g.Means e) := by
    intro e w hw hle
    rw [g.ofJson_eq hle, Grammar.Means, hw, Option.bind_some]
  have hmany : ∀ {ds vs}, v = .list vs → List.Forall₂ (fun e w => e.value? .strict = some w) ds vs →
      ((∀ e ∈ ds, g.Means e) ↔ ∀ w ∈ vs, (g.ofJson h w).toOption.isSome = true) := by
    rintro ds vs rfl hvs
    rw [Json.height] at hh
    refine forall_iff_of_forall₂ hvs fun e w hw hew => (hone hew ?_).symm
    exact Nat.le_trans (Json.height_le_of_mem_items hw) (by omega)
  cases c with
  | value => exact Iff.rfl
  | number =>
    rw [Accepts, Holds, hv]
    simp
  | one => exact hone hv hh
  | many =>
    rw [Accepts, Holds]
    constructor
    · rintro ⟨vs, rfl, hvs⟩
      obtain ⟨ds, rfl, hds⟩ := Document.list_of_value? hv
      exact ⟨ds, rfl, (hmany rfl hds).mpr hvs⟩
    · rintro ⟨ds, rfl, hds⟩
      obtain ⟨vs, rfl, hvs⟩ := Document.values_of_list hv
      exact ⟨vs, rfl, (hmany rfl hvs).mp hds⟩

theorem Document.under_values {ms : List (List Piece × Document)} {js : List (String × Json)}
    (hjs : members? .strict ms = some js) : ∃ ns, named? .strict ms = some ns ∧ ∀ name,
      List.Forall₂ (fun e v => e.value? .strict = some v) (under name ns) (under name js) := by
  obtain ⟨ns, hns, hread⟩ := named?_of_members? hjs
  refine ⟨ns, hns, fun name => ?_⟩
  rw [under, under, List.forall₂_map_left_iff, List.forall₂_map_right_iff]
  exact (filter_readsAs hread name).imp fun e m hem => hem.2

def Kind.Holds (k : Kind) (means : Document → Prop) (d : Document) : Prop :=
  ∀ tag ∈ d.entries "op" 0, ∀ f, k.form? tag = some f → ∀ p ∈ f.field, ∀ e ∈ d.entries p.1 1,
    p.2.Holds means e

theorem Kind.proper_inner_iff {means : Document → Prop} (d : Document) :
    (k.Proper d ∧ ∀ e, k.Inner d e → means e) ↔
      (d.value? .strict).isSome = true ∧ k.Holds means d := by
  constructor
  · rintro ⟨⟨hvalue, hfits⟩, hparts⟩
    refine ⟨hvalue, ?_⟩
    intro tag htag f hf p hp e he
    obtain ⟨name, content⟩ := p
    have hfit := hfits tag htag f hf _ hp e he
    cases content with
    | value => trivial
    | number => exact hfit
    | one => exact hparts e (.one htag hf hp he)
    | many =>
      obtain ⟨ds, rfl⟩ := hfit
      exact ⟨ds, rfl, fun x hx => hparts x (.many htag hf hp he hx)⟩
  · rintro ⟨hvalue, hholds⟩
    refine ⟨⟨hvalue, ?_⟩, ?_⟩
    · intro tag htag f hf p hp e he
      obtain ⟨name, content⟩ := p
      have hheld := hholds tag htag f hf _ hp e he
      cases content with
      | value => trivial
      | number => exact hheld
      | one => trivial
      | many =>
        obtain ⟨ds, rfl, -⟩ := hheld
        exact ⟨ds, rfl⟩
    · intro e hinner
      cases hinner with
      | one htag hf hp he => exact hholds _ htag _ hf _ hp _ he
      | many htag hf hp he hx =>
        obtain ⟨ds, hds, hall⟩ := hholds _ htag _ hf _ hp _ he
        cases hds
        exact hall _ hx

theorem Kind.complete_holds_object {means : Document → Prop} {ms : List (List Piece × Document)} :
    k.Complete (.object ms) ∧ k.Holds means (.object ms) ↔
      ∃ tag, (Document.object ms).entries "op" 0 = [tag] ∧ ∃ f, k.form? tag = some f ∧
        ∀ p ∈ f.field, ((Document.object ms).entries p.1 1).length = 1 ∧
          ∀ e ∈ (Document.object ms).entries p.1 1, p.2.Holds means e := by
  constructor
  · rintro ⟨hcomplete, hheld⟩
    cases hcomplete with
    | @object _ tag f hop hf hlength =>
      have htag : tag ∈ (Document.object ms).entries "op" 0 := hop ▸ List.mem_singleton_self tag
      exact ⟨tag, hop, f, hf, fun p hp => ⟨hlength p hp, hheld tag htag f hf p hp⟩⟩
  · rintro ⟨tag, hop, f, hf, hfield⟩
    refine ⟨.object hop hf fun p hp => (hfield p hp).1, ?_⟩
    intro tag' htag' f' hf' p hp
    rw [hop] at htag'
    obtain rfl := List.mem_singleton.mp htag'
    obtain rfl := Option.some.inj (hf.symm.trans hf')
    exact (hfield p hp).2

theorem Kind.complete_holds_list {means : Document → Prop} {tag : Document} {ds : List Document} :
    k.Complete (.list (tag :: ds)) ∧ k.Holds means (.list (tag :: ds)) ↔
      ∃ f, k.form? tag = some f ∧ ds.length = f.field.toList.length ∧
        ∀ p ∈ f.field, ∀ e ∈ ds[0]?.toList, p.2.Holds means e := by
  constructor
  · rintro ⟨hcomplete, hheld⟩
    cases hcomplete with
    | @list _ _ f hf hlength =>
      exact ⟨f, hf, hlength, hheld tag (List.mem_singleton_self tag) f hf⟩
  · rintro ⟨f, hf, hlength, hfield⟩
    refine ⟨.list hf hlength, ?_⟩
    intro tag' htag' f' hf' p hp
    obtain rfl := List.mem_singleton.mp htag'
    obtain rfl := Option.some.inj (hf.symm.trans hf')
    exact hfield p hp

/-- An operation is decoded if it is called for and what its form asks for is there. -/
theorem Grammar.Has.isSome_chosen? (hg : g.Has k) (inner : Json → Except Refusal α)
    {tag : Document} {v : Json} (hv : tag.value? .strict = some v) {read : Operation α → Option α}
    {asks : Form → Prop}
    (hread : ∀ f op, f.Describes inner op → ((read op).isSome = true ↔ asks f)) :
    (((g.vocabulary inner).chosen? v).bind read).isSome = true ↔
      ∃ f, k.form? tag = some f ∧ asks f := by
  have hrel := hg.rel_chosen? inner v
  rw [Kind.form?, hv, Option.bind_some]
  revert hrel
  cases k.chosen? v <;> cases (g.vocabulary inner).chosen? v <;> intro hrel
  · simp
  · cases hrel
  · cases hrel
  · cases hrel with
    | some hdescribes => simp [hread _ _ hdescribes]

theorem Grammar.Has.means_object_iff (hg : g.Has k) (ms : List (List Piece × Document)) :
    g.Means (.object ms) ↔ ((Document.object ms).value? .strict).isSome = true ∧
      k.Complete (.object ms) ∧ k.Holds g.Means (.object ms) := by
  rw [Grammar.Means, Kind.complete_holds_object]
  cases hv : (Document.object ms).value? .strict with
  | none => simp
  | some j =>
    obtain ⟨js, hjs, rfl⟩ := Option.map_eq_some_iff.mp hv
    obtain ⟨ns, hns, hunder⟩ := Document.under_values hjs
    rw [Option.bind_some, ← g.decode_eq_inner?, Vocabulary.decode_eq, Vocabulary.decodeBy,
      isSome_field?_join_bind]
    simp only [Document.entries_object hns, Option.isSome_some, true_and]
    generalize hheight : (Json.object js).height = h
    have hfield : ∀ (f : Form) (op : Operation α), f.Describes (g.ofJson h) op →
        ((op.ofMembers (Vocabulary.others js)).toOption.isSome = true ↔ ∀ p ∈ f.field,
          (under p.1 ns).length = 1 ∧ ∀ e ∈ under p.1 ns, p.2.Holds g.Means e) := by
      intro f op hop
      rw [hop.isSome_ofMembers]
      refine forall₂_congr fun p _ => ?_
      rw [(hunder p.1).length_eq]
      refine and_congr_right fun _ => (forall_iff_of_forall₂ (hunder p.1) ?_).symm
      intro e v hmem hev
      refine (p.2.accepts_iff hev ?_).symm
      obtain ⟨m, hm, rfl⟩ := List.mem_map.mp hmem
      have hle := Json.height_le_of_mem_members (List.mem_of_mem_filter hm)
      rw [← hheight, Json.height]
      omega
    have hop := hunder "op"
    constructor
    · rintro ⟨v, hjs, hsome⟩
      rw [hjs] at hop
      obtain ⟨tag, rest, htag, hrest, hns⟩ := List.forall₂_cons_right_iff.mp hop
      obtain rfl := List.forall₂_nil_right_iff.mp hrest
      exact ⟨tag, hns, (hg.isSome_chosen? _ htag hfield).mp hsome⟩
    · rintro ⟨tag, hns, hform⟩
      rw [hns] at hop
      obtain ⟨v, rest, htag, hrest, hjs⟩ := List.forall₂_cons_left_iff.mp hop
      obtain rfl := List.forall₂_nil_left_iff.mp hrest
      exact ⟨v, hjs, (hg.isSome_chosen? _ htag hfield).mpr hform⟩

theorem Grammar.Has.means_list_iff (hg : g.Has k) (ds : List Document) :
    g.Means (.list ds) ↔ ((Document.list ds).value? .strict).isSome = true ∧
      k.Complete (.list ds) ∧ k.Holds g.Means (.list ds) := by
  rw [Grammar.Means]
  cases hv : (Document.list ds).value? .strict with
  | none => simp
  | some j =>
    obtain ⟨vs, rfl, hvs⟩ := Document.values_of_list hv
    rw [Option.bind_some, ← g.decode_eq_inner?, Vocabulary.decode_eq]
    generalize hheight : (Json.list vs).height = h
    cases hvs with
    | nil =>
      constructor
      · intro hsome
        cases hsome
      · rintro ⟨-, ⟨⟩, -⟩
    | @cons tag v ds vs htag hvs =>
      have hfirst : List.Forall₂ (fun e w => e.value? .strict = some w) ds[0]?.toList
          vs[0]?.toList := by
        cases hvs with
        | nil => exact .nil
        | cons hhead => exact .cons hhead .nil
      have hfield : ∀ (f : Form) (op : Operation α), f.Describes (g.ofJson h) op →
          ((op.ofItems vs).toOption.isSome = true ↔ ds.length = f.field.toList.length ∧
            ∀ p ∈ f.field, ∀ e ∈ ds[0]?.toList, p.2.Holds g.Means e) := by
        intro f op hop
        rw [hop.isSome_ofItems, hvs.length_eq]
        refine and_congr_right fun _ => forall₂_congr fun p _ => ?_
        refine (forall_iff_of_forall₂ hfirst ?_).symm
        intro e w hmem hew
        refine (p.2.accepts_iff hew ?_).symm
        have hle := Json.height_le_of_mem_items
          (List.mem_cons_of_mem v (List.mem_of_getElem? (Option.mem_toList.mp hmem)))
        rw [← hheight, Json.height]
        omega
      rw [Vocabulary.decodeBy, hg.isSome_chosen? _ htag hfield, Kind.complete_holds_list]
      exact (and_iff_right rfl).symm

/-- A document stands for a condition or an action inside another one if it is complete and of
the right type, and so are the ones directly within it. -/
theorem Grammar.Has.means_iff (hg : g.Has k) (d : Document) :
    g.Means d ↔ k.Complete d ∧ k.Proper d ∧ ∀ e, k.Inner d e → g.Means e := by
  rw [k.proper_inner_iff]
  cases d with
  | token t =>
    constructor
    · intro hsome
      obtain ⟨x, hx⟩ := Option.isSome_iff_exists.mp hsome
      obtain ⟨j, hj, hx⟩ := Option.bind_eq_some_iff.mp hx
      rw [← g.decode_eq_inner?, Vocabulary.decode_scalar _ (Document.height_of_value? hj)] at hx
      cases hx
    · rintro ⟨⟨⟩, -⟩
  | list ds =>
    rw [hg.means_list_iff]
    exact and_left_comm
  | object ms =>
    rw [hg.means_object_iff]
    exact and_left_comm

end Operands

end FirstMatch
