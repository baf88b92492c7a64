import FirstMatch.Proofs.Table.Sound
import FirstMatch.Table.Reader

/-!
Whatever table a reader accepts is well-formed, and its own text opens no more brackets than a
reader allows.
-/

namespace FirstMatch

open Reader

namespace TableReader

variable {α : Type}

theorem mismatch_ne_ok (expected : Expected) (text : List Char) (x : α × List Char) :
    (mismatch expected : TableReader α) text ≠ .ok x := by
  intro h
  unfold mismatch at h
  split at h
  · cases h
  · cases h
  · obtain ⟨⟨v, rest⟩, _, h⟩ := bind_eq_ok.mp h
    cases h

theorem accept_eq_ok {result : Except Refusal α} {rest : List Char} {x : α × List Char}
    (h : accept result rest = .ok x) : result = .ok x.1 := by
  cases result with
  | error e => cases h
  | ok y =>
    cases h
    rfl

theorem operation_gives (v : Vocabulary α) : Gives (operation v) fun op => op ∈ v.operations := by
  intro text op rest h
  unfold operation at h
  split at h
  · obtain ⟨⟨name, tail⟩, _, h⟩ := bind_eq_ok.mp h
    exact Vocabulary.named_mem (accept_eq_ok h)
  · exact absurd h (mismatch_ne_ok _ _ _)

/-- The operation is one that is known, and the other members are not too high. -/
def PartialFits (v : Vocabulary α) (bound : Nat) (found : Partial α) : Prop :=
  (∀ op, found.1 = some op → op ∈ v.operations) ∧ ∀ m ∈ found.2, m.2.Fits bound

theorem partialFits_none (v : Vocabulary α) (bound : Nat) : PartialFits v bound (none, []) :=
  ⟨nofun, nofun⟩

theorem operationMember_gives (v : Vocabulary α) (depth : Nat) (found : Partial α) (name : String)
    (hf : PartialFits v depth found) :
    Gives (operationMember v depth found name) (PartialFits v depth) := by
  intro text next rest h
  unfold operationMember at h
  split at h
  · split at h
    · cases h
    · obtain ⟨⟨_, tail⟩, _, h⟩ := bind_eq_ok.mp h
      obtain ⟨⟨op, tail⟩, hop, h⟩ := bind_eq_ok.mp h
      cases h
      constructor
      · intro o ho
        obtain rfl := Option.some.inj ho
        exact operation_gives v _ _ _ hop
      · exact hf.2
  · obtain ⟨⟨others, tail⟩, hothers, h⟩ := bind_eq_ok.mp h
    cases h
    exact ⟨hf.1, member_gives (value_gives depth) found.2 name hf.2 _ _ _ hothers⟩

theorem operand_gives {good : Nat → α → Prop} (hg : Grows good) {v : Vocabulary α}
    (hv : v.Sound good) (depth : Nat) : Gives (operand v depth) (good depth) := by
  intro text x rest h
  simp only [operand] at h
  split at h
  · cases h
  · cases h
  · obtain ⟨⟨more, tail⟩, _, h⟩ := bind_eq_ok.mp h
    cases more with
    | false => cases h
    | true =>
      obtain ⟨⟨op, tail⟩, hop, h⟩ := bind_eq_ok.mp h
      obtain ⟨⟨items, tail⟩, hitems, h⟩ := bind_eq_ok.mp h
      have hfit := moreItems_gives (value_gives _) _ _ _ _ hitems
      exact Operation.ofItems_sound hg (hv op (operation_gives v _ _ _ hop)) hfit (accept_eq_ok h)
  · obtain ⟨⟨⟨op, others⟩, tail⟩, hmembers, h⟩ := bind_eq_ok.mp h
    have hfit : PartialFits v _ (op, others) :=
      members_gives (operationMember_gives v _) (partialFits_none v _) _ _ _ hmembers
    cases op with
    | none => cases h
    | some op =>
      exact Operation.ofMembers_sound hg (hv op (hfit.1 op rfl))
        (fun m hm => hfit.2 m (List.mem_reverse.mp hm)) (accept_eq_ok h)
  · exact absurd h (mismatch_ne_ok _ _ _)

theorem condition_gives (depth : Nat) : Gives (condition depth) (Condition.Fits depth) :=
  operand_gives Condition.fits_grows
    (Condition.vocabulary_sound fun _ _ _ hv hc => Condition.ofJson_sound depth hv hc) depth

theorem action_gives (depth : Nat) : Gives (action depth) (Action.Fits depth) :=
  operand_gives Action.fits_grows
    (Action.vocabulary_sound fun _ _ _ hv ha => Action.ofJson_sound depth hv ha) depth

/-! Members -/

/-- The members of a rule or a table: each of two fields may stand there once, and all others are
passed over. -/
structure ReadsFields {β γ : Type} (first second : String) (readFirst : TableReader β)
    (readSecond : TableReader γ)
    (read : Option β × Option γ → String → TableReader (Option β × Option γ)) : Prop where
  first_eq : ∀ found, read found first =
    if found.1.isSome then fun _ => refuse (.duplicateField first)
    else fun text => do
      let ((), rest) ← colon text
      let (x, rest) ← readFirst rest
      return ((some x, found.2), rest)
  second_eq : ∀ found, read found second =
    if found.2.isSome then fun _ => refuse (.duplicateField second)
    else fun text => do
      let ((), rest) ← colon text
      let (y, rest) ← readSecond rest
      return ((found.1, some y), rest)
  other_eq : ∀ found name, name ≠ first → name ≠ second → read found name = fun text => do
    let ((), rest) ← colon text
    let ((), rest) ← skip rest
    return (found, rest)
  distinct : second ≠ first

theorem ReadsFields.gives {β γ : Type} {first second : String}
    {read : Option β × Option γ → String → TableReader (Option β × Option γ)}
    {readFirst : TableReader β} {readSecond : TableReader γ} {P : β → Prop} {Q : γ → Prop}
    (h : ReadsFields first second readFirst readSecond read) (hf : Gives readFirst P)
    (hg : Gives readSecond Q) {found : Option β × Option γ}
    (hfound : (∀ x, found.1 = some x → P x) ∧ ∀ y, found.2 = some y → Q y) (name : String) :
    Gives (read found name) fun next =>
      (∀ x, next.1 = some x → P x) ∧ ∀ y, next.2 = some y → Q y := by
  intro text next rest hnext
  by_cases h1 : name = first
  · subst h1
    rw [h.first_eq] at hnext
    split at hnext
    · cases hnext
    · obtain ⟨⟨_, tail⟩, _, hnext⟩ := bind_eq_ok.mp hnext
      obtain ⟨⟨x, tail⟩, hx, hnext⟩ := bind_eq_ok.mp hnext
      cases hnext
      refine ⟨?_, hfound.2⟩
      intro z hz
      obtain rfl := Option.some.inj hz
      exact hf _ _ _ hx
  · by_cases h2 : name = second
    · subst h2
      rw [h.second_eq] at hnext
      split at hnext
      · cases hnext
      · obtain ⟨⟨_, tail⟩, _, hnext⟩ := bind_eq_ok.mp hnext
        obtain ⟨⟨y, tail⟩, hy, hnext⟩ := bind_eq_ok.mp hnext
        cases hnext
        refine ⟨hfound.1, ?_⟩
        intro z hz
        obtain rfl := Option.some.inj hz
        exact hg _ _ _ hy
    · rw [h.other_eq found name h1 h2] at hnext
      obtain ⟨⟨_, tail⟩, _, hnext⟩ := bind_eq_ok.mp hnext
      obtain ⟨⟨_, tail⟩, _, hnext⟩ := bind_eq_ok.mp hnext
      cases hnext
      exact hfound

theorem ruleMember_reads (depth : Nat) :
    ReadsFields "when" "then" (condition depth) (action depth) (ruleMember depth) where
  first_eq found := by
    funext text
    by_cases hfound : found.1.isSome = true
    · simp only [ruleMember, if_true, hfound]
    · simp only [ruleMember, if_true, hfound]
      rfl
  second_eq found := by
    funext text
    by_cases hfound : found.2.isSome = true
    · simp only [ruleMember, hfound]
      rfl
    · simp only [ruleMember, hfound]
      rfl
  other_eq found name h1 h2 := by
    funext text
    simp only [ruleMember, h1, h2, if_false]
  distinct := by decide

theorem tableMember_reads (depth : Nat) :
    ReadsFields "rules" "default" (rules depth) (fallback depth) (tableMember depth) where
  first_eq found := by
    funext text
    by_cases hfound : found.1.isSome = true
    · simp only [tableMember, if_true, hfound]
    · simp only [tableMember, if_true, hfound]
      rfl
  second_eq found := by
    funext text
    by_cases hfound : found.2.isSome = true
    · simp only [tableMember, hfound]
      rfl
    · simp only [tableMember, hfound]
      rfl
  other_eq found name h1 h2 := by
    funext text
    simp only [tableMember, h1, h2, if_false]
  distinct := by decide

/-! Rules and tables -/

def RuleFits (bound : Nat) (found : Option Condition × Option Action) : Prop :=
  (∀ c, found.1 = some c → c.Fits bound) ∧ ∀ a, found.2 = some a → a.Fits bound

theorem ruleFits_none (bound : Nat) : RuleFits bound (none, none) := ⟨nofun, nofun⟩

theorem ruleMember_gives (depth : Nat) (found : Option Condition × Option Action) (name : String)
    (hf : RuleFits depth found) : Gives (ruleMember depth found name) (RuleFits depth) :=
  (ruleMember_reads depth).gives (condition_gives depth) (action_gives depth) hf name

end TableReader

namespace Rule

def Fits (bound : Nat) (r : Rule) : Prop := r.WellFormed ∧ r.toJson.height ≤ bound

theorem fits_of_parts {bound : Nat} {c : Condition} {a : Action} (hc : c.Fits bound)
    (ha : a.Fits bound) : Fits (bound + 1) ⟨c, a⟩ := by
  refine ⟨⟨hc.1, ha.1⟩, ?_⟩
  have hch := hc.2
  have hah := ha.2
  simp only [toJson, Json.height, Json.heightMembers]
  omega

end Rule

namespace TableReader

theorem rule_gives (depth : Nat) : Gives (rule depth) (Rule.Fits depth) := by
  intro text r rest h
  simp only [rule] at h
  split at h
  · cases h
  · cases h
  · obtain ⟨⟨more, tail⟩, _, h⟩ := bind_eq_ok.mp h
    cases more with
    | false => cases h
    | true =>
      obtain ⟨⟨c, tail⟩, hc, h⟩ := bind_eq_ok.mp h
      obtain ⟨⟨more, tail⟩, _, h⟩ := bind_eq_ok.mp h
      cases more with
      | false => cases h
      | true =>
        obtain ⟨⟨a, tail⟩, ha, h⟩ := bind_eq_ok.mp h
        obtain ⟨⟨_, tail⟩, _, h⟩ := bind_eq_ok.mp h
        cases h
        exact Rule.fits_of_parts (condition_gives _ _ _ _ hc) (action_gives _ _ _ _ ha)
  · obtain ⟨⟨⟨c, a⟩, tail⟩, hmembers, h⟩ := bind_eq_ok.mp h
    have hfit : RuleFits _ (c, a) :=
      members_gives (ruleMember_gives _) (ruleFits_none _) _ _ _ hmembers
    cases c with
    | none => cases h
    | some c =>
      cases a with
      | none => cases h
      | some a =>
        cases h
        exact Rule.fits_of_parts (hfit.1 c rfl) (hfit.2 a rfl)
  · exact absurd h (mismatch_ne_ok _ _ _)

def RulesFit (bound : Nat) (rs : List Rule) : Prop :=
  (∀ r ∈ rs, r.WellFormed) ∧ (Json.list (rs.map Rule.toJson)).height ≤ bound

theorem rulesFit_of_all {bound : Nat} {rs : List Rule} (h : ∀ r ∈ rs, r.Fits bound) :
    RulesFit (bound + 1) rs := by
  induction rs with
  | nil => exact ⟨nofun, Nat.le_add_left _ _⟩
  | cons r rs ih =>
    obtain ⟨hw, hle⟩ := h r List.mem_cons_self
    obtain ⟨hws, hles⟩ := ih fun s hs => h s (List.mem_cons_of_mem _ hs)
    constructor
    · intro s hs
      rcases List.mem_cons.mp hs with rfl | hs
      · exact hw
      · exact hws s hs
    · simp only [List.map_cons, Json.height, Json.heightItems] at hles ⊢
      omega

theorem rules_gives (depth : Nat) : Gives (rules depth) (RulesFit depth) := by
  intro text rs rest h
  simp only [rules] at h
  split at h
  · cases h
  · exact rulesFit_of_all (items_gives (rule_gives _) _ _ _ h)
  · exact absurd h (mismatch_ne_ok _ _ _)

def FallbackFits (bound : Nat) (fallback : Option Action) : Prop :=
  ∀ a, fallback = some a → a.Fits bound

theorem fallback_gives (depth : Nat) : Gives (fallback depth) (FallbackFits depth) := by
  intro text fallback rest h a ha
  unfold TableReader.fallback at h
  split at h
  · obtain rfl := word_gives _ _ _ _ h
    cases ha
  · obtain ⟨⟨b, tail⟩, hb, h⟩ := bind_eq_ok.mp h
    cases h
    obtain rfl := Option.some.inj ha
    exact action_gives depth _ _ _ hb

def TableFits (bound : Nat) (found : Option (List Rule) × Option (Option Action)) : Prop :=
  (∀ rs, found.1 = some rs → RulesFit bound rs) ∧
    ∀ a, found.2 = some a → FallbackFits bound a

theorem tableFits_none (bound : Nat) : TableFits bound (none, none) := ⟨nofun, nofun⟩

theorem tableMember_gives (depth : Nat) (found : Option (List Rule) × Option (Option Action))
    (name : String) (hf : TableFits depth found) :
    Gives (tableMember depth found name) (TableFits depth) :=
  (tableMember_reads depth).gives (rules_gives depth) (fallback_gives depth) hf name

end TableReader

namespace Table

def Fits (bound : Nat) (t : Table) : Prop := t.WellFormed ∧ t.toJson.height ≤ bound

theorem fits_of_parts {bound : Nat} {rules : List Rule} {fallback : Option Action}
    (hr : TableReader.RulesFit (max bound 1) rules)
    (hf : TableReader.FallbackFits bound fallback) :
    Fits (max (bound + 1) 2) ⟨rules, fallback⟩ := by
  refine ⟨⟨hr.1, fun a ha => (hf a ha).1⟩, ?_⟩
  have hrules := hr.2
  cases fallback with
  | none =>
    simp only [toJson, Json.height, Json.heightMembers] at hrules ⊢
    omega
  | some a =>
    have ha := (hf a rfl).2
    simp only [toJson, Json.height, Json.heightMembers] at hrules ⊢
    omega

theorem rulesFit_nil (bound : Nat) : TableReader.RulesFit (max bound 1) [] :=
  ⟨nofun, Nat.le_max_right _ _⟩

theorem rulesFit_max {bound : Nat} {rules : List Rule} (h : TableReader.RulesFit bound rules) :
    TableReader.RulesFit (max bound 1) rules :=
  ⟨h.1, Nat.le_trans h.2 (Nat.le_max_left _ _)⟩

/-- An object may leave out its rules, its fallback, or both. -/
theorem fits_of_found {bound : Nat} {found : Option (List Rule) × Option (Option Action)}
    (h : TableReader.TableFits bound found) :
    Fits (max (bound + 1) 2) ⟨found.1.getD [], found.2.getD none⟩ := by
  obtain ⟨rules, fallback⟩ := found
  apply fits_of_parts
  · cases rules with
    | none => exact rulesFit_nil bound
    | some rules => exact rulesFit_max (h.1 rules rfl)
  · cases fallback with
    | none => exact nofun
    | some fallback => exact h.2 fallback rfl

end Table

namespace TableReader

/-- The empty list, too, is written with two brackets, as the object of an empty list. -/
theorem table_gives (depth : Nat) : Gives (table depth) (Table.Fits (max depth 2)) := by
  intro text t rest h
  simp only [table] at h
  split at h
  · cases h
  · cases h
  · obtain ⟨⟨more, tail⟩, _, h⟩ := bind_eq_ok.mp h
    cases more with
    | false =>
      cases h
      exact Table.fits_of_parts (Table.rulesFit_nil _) nofun
    | true =>
      obtain ⟨⟨rs, tail⟩, hrs, h⟩ := bind_eq_ok.mp h
      have hrules := Table.rulesFit_max (rules_gives _ _ _ _ hrs)
      obtain ⟨⟨more, tail⟩, _, h⟩ := bind_eq_ok.mp h
      cases more with
      | false =>
        cases h
        exact Table.fits_of_parts hrules nofun
      | true =>
        obtain ⟨⟨a, tail⟩, ha, h⟩ := bind_eq_ok.mp h
        obtain ⟨⟨_, tail⟩, _, h⟩ := bind_eq_ok.mp h
        cases h
        exact Table.fits_of_parts hrules (fallback_gives _ _ _ _ ha)
  · obtain ⟨⟨⟨rs, a⟩, tail⟩, hmembers, h⟩ := bind_eq_ok.mp h
    have hfit : TableFits _ (rs, a) :=
      members_gives (tableMember_gives _) (tableFits_none _) _ _ _ hmembers
    cases h
    exact Table.fits_of_found hfit
  · exact absurd h (mismatch_ne_ok _ _ _)

end TableReader

/-- Whatever text is read as a table, the table can be written: it is well-formed, and its own
text opens no more brackets than are allowed. -/
theorem Table.ofText?_fits {text : String} {t : Table} (h : ofText? text = .ok t) :
    t.WellFormed ∧ t.toJson.height ≤ Json.maxHeight := by
  obtain ⟨⟨u, rest⟩, hu, h⟩ := bind_eq_ok.mp h
  obtain ⟨_, _, h⟩ := bind_eq_ok.mp h
  cases h
  exact TableReader.table_gives Json.maxHeight _ _ _ hu

end FirstMatch
