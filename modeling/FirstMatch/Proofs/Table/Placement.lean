import FirstMatch.Proofs.Table.Spelled
import FirstMatch.Proofs.Table.Tagged

/-!
Where a condition stands. A condition inside another one may give its operation by position, which
directly in a rule is refused; in all else the two places accept and mean the same.
-/

namespace FirstMatch

section Fields

variable {α β : Type} {name : String} {f : β → Option α} {before after : List (String × β)}

theorem field?_middle (x : β) :
    field? name f (before ++ (name, x) :: after) =
      if ((before ++ after).filter fun m => m.1 == name) = [] then (f x).map some else none := by
  simp only [List.filter_append, List.append_eq_nil_iff]
  cases hb : before.filter fun m => m.1 == name with
  | nil =>
    cases ha : after.filter fun m => m.1 == name with
    | nil =>
      have hsingle :
          ((before ++ (name, x) :: after).filter fun m => m.1 == name) = [(name, x)] := by
        simp [hb, ha]
      rw [field?_of_single hsingle]
      rfl
    | cons m rest =>
      have htwo : ((before ++ (name, x) :: after).filter fun m => m.1 == name) =
          (name, x) :: m :: rest := by
        simp [hb, ha]
      rw [field?_of_two htwo]
      rfl
  | cons m rest =>
    obtain ⟨n, more, htwo⟩ : ∃ n more,
        ((before ++ (name, x) :: after).filter fun m => m.1 == name) = m :: n :: more := by
      have happend : ((before ++ (name, x) :: after).filter fun m => m.1 == name) =
          m :: (rest ++ (name, x) :: after.filter fun m => m.1 == name) := by
        simp [hb]
      cases rest with
      | nil => exact ⟨_, _, happend⟩
      | cons n rest => exact ⟨_, _, happend⟩
    rw [field?_of_two htwo]
    rfl

theorem field?_middle_other {key : String} (h : key ≠ name) (x : β) :
    field? name f (before ++ (key, x) :: after) = field? name f (before ++ after) := by
  have hm : (key == name) = false := beq_eq_false_iff_ne.mpr h
  simp only [field?, List.filter_append, List.filter_cons, hm, Bool.false_eq_true, if_false]

end Fields

inductive Place (key : String) where
  | item (rest : List Document)
  | member (before : List (List Piece × Document)) (name : List Piece)
      (named : Piece.string? .strict name = some key) (after : List (List Piece × Document))

def Place.fill {key : String} : Place key → Document → Document
  | .item rest, d => .list (d :: rest)
  | .member before name _ after, d => .object (before ++ (name, d) :: after)

/-- A table in which the condition of one rule is left out. -/
structure Frame where
  table : Place "rules"
  before : List Document
  rule : Place "when"
  after : List Document

def Frame.fill (f : Frame) (d : Document) : Document :=
  f.table.fill (.list (f.before ++ f.rule.fill d :: f.after))

namespace Place

theorem named?_fill {before after : List (List Piece × Document)} {name : List Piece} {key : String}
    (h : Piece.string? .strict name = some key) (d : Document) :
    Document.named? .strict (before ++ (name, d) :: after) =
      (Document.named? .strict before).bind fun bs =>
        (Document.named? .strict after).map fun as => bs ++ (key, d) :: as := by
  rw [Document.named?, mapM_middle, h]
  rfl

theorem fields?_fill {β γ : Type} {first second : String} (hne : first ≠ second)
    (f : Document → Option β) (g : Document → Option γ)
    (before after : List (List Piece × Document)) {name : List Piece}
    (h : Piece.string? .strict name = some first) :
    ∃ other : Option (Option γ), ∀ d,
      Document.fields? first second f g (before ++ (name, d) :: after) =
        (f d).bind fun x => other.map fun y => (some x, y) := by
  simp only [Document.fields?, named?_fill h]
  cases Document.named? .strict before with
  | none => exact ⟨none, fun d => by cases f d <;> rfl⟩
  | some bs =>
    cases Document.named? .strict after with
    | none => exact ⟨none, fun d => by cases f d <;> rfl⟩
    | some as =>
      simp only [Option.bind_some, Option.map_some, field?_middle, field?_middle_other hne]
      -- With a second member of this name there is nothing, whatever stands here.
      by_cases hfirst : ((bs ++ as).filter fun m => m.1 == first) = []
      · refine ⟨field? second g (bs ++ as), fun d => ?_⟩
        rw [if_pos hfirst]
        cases f d <;> rfl
      · refine ⟨none, fun d => ?_⟩
        rw [if_neg hfirst]
        cases f d <;> rfl

theorem rule?_fill (p : Place "when") :
    ∃ action : Option Action, ∀ d, (p.fill d).rule? =
      d.condition?.bind fun c => action.map fun a => ⟨c, a⟩ := by
  cases p with
  | item rest =>
    cases rest with
    | nil => exact ⟨none, fun d => by cases d.condition? <;> rfl⟩
    | cons a rest =>
      cases rest with
      | nil =>
        refine ⟨a.action?, fun d => ?_⟩
        rw [fill, Document.rule?]
        cases d.condition? with
        | none => rfl
        | some c => cases a.action? <;> rfl
      | cons b rest => exact ⟨none, fun d => by cases d.condition? <;> rfl⟩
  | member before name named after =>
    obtain ⟨action, hfields⟩ := fields?_fill (by decide : "when" ≠ "then") Document.condition?
      Document.action? before after named
    refine ⟨action.join, fun d => ?_⟩
    rw [fill, Document.rule?, hfields]
    cases d.condition? with
    | none => rfl
    | some c =>
      cases action with
      | none => rfl
      | some a => cases a <;> rfl

theorem table?_fill (p : Place "rules") :
    ∃ fallback : Option (Option Action), ∀ d, (p.fill d).table? =
      d.rules?.bind fun rs => fallback.map fun a => ⟨rs, a⟩ := by
  cases p with
  | item rest =>
    cases rest with
    | nil =>
      refine ⟨some none, fun d => ?_⟩
      rw [fill, Document.table?]
      cases d.rules? <;> rfl
    | cons a rest =>
      cases rest with
      | nil =>
        refine ⟨a.fallback?, fun d => ?_⟩
        rw [fill, Document.table?]
        cases d.rules? with
        | none => rfl
        | some rs => cases a.fallback? <;> rfl
      | cons b rest => exact ⟨none, fun d => by cases d.rules? <;> rfl⟩
  | member before name named after =>
    obtain ⟨fallback, hfields⟩ := fields?_fill (by decide : "rules" ≠ "default") Document.rules?
      Document.fallback? before after named
    refine ⟨fallback.map (·.getD none), fun d => ?_⟩
    rw [fill, Document.table?, hfields]
    cases d.rules? with
    | none => rfl
    | some rs => cases fallback <;> rfl

end Place

/-- A table with its condition at one place replaced by what comes there. -/
structure Surroundings where
  before : List Rule
  action : Action
  after : List Rule
  fallback : Option Action

def Surroundings.table (s : Surroundings) (c : Condition) : Table :=
  ⟨s.before ++ ⟨c, s.action⟩ :: s.after, s.fallback⟩

theorem Frame.table?_fill (f : Frame) :
    ∃ around : Option Surroundings, (∀ s ∈ around, s.before.length = f.before.length) ∧
      ∀ d, (f.fill d).table? = d.condition?.bind fun c => around.map (·.table c) := by
  obtain ⟨fallback, htable⟩ := f.table.table?_fill
  obtain ⟨action, hrule⟩ := f.rule.rule?_fill
  have hrules : ∀ d, (Document.list (f.before ++ f.rule.fill d :: f.after)).rules? =
      (f.before.mapM Document.rule?).bind fun bs =>
        (d.condition?.bind fun c => action.map fun a => (⟨c, a⟩ : Rule)).bind fun r =>
          (f.after.mapM Document.rule?).map fun as => bs ++ r :: as := by
    intro d
    rw [Document.rules?, mapM_middle, hrule]
  refine ⟨(f.before.mapM Document.rule?).bind fun bs => action.bind fun a =>
    (f.after.mapM Document.rule?).bind fun as => fallback.map fun d => ⟨bs, a, as, d⟩, ?_, ?_⟩
  · intro s hs
    obtain ⟨bs, hbs, hs⟩ := Option.bind_eq_some_iff.mp hs
    obtain ⟨a, -, hs⟩ := Option.bind_eq_some_iff.mp hs
    obtain ⟨as, -, hs⟩ := Option.bind_eq_some_iff.mp hs
    obtain ⟨d, -, rfl⟩ := Option.map_eq_some_iff.mp hs
    exact (mapM_eq_some.mp hbs).length_eq.symm
  · intro d
    rw [fill, htable, hrules]
    cases f.before.mapM Document.rule? with
    | none => cases d.condition? <;> rfl
    | some bs =>
      cases d.condition? with
      | none => rfl
      | some c =>
        cases action with
        | none => rfl
        | some a =>
          cases f.after.mapM Document.rule? with
          | none => rfl
          | some as => cases fallback <;> rfl

/-! Conditions inside conditions -/

namespace Document

def tagged (name field : String) (d : Document) : Document :=
  .object [(Piece.ofString "op", .ofString name), (Piece.ofString field, d)]

def inner? (d : Document) : Option Condition := (d.value? .strict).bind Condition.grammar.inner?

/-- The value gives the name of its operation wherever it gives the operation. -/
def NamesOperation (d : Document) : Prop := ∀ j ∈ d.value? .strict, j.NamesOperation

theorem condition?_eq_some_iff {d : Document} {c : Condition} :
    d.condition? = some c ↔ d.inner? = some c ∧ d.NamesOperation := by
  rw [condition?, inner?, NamesOperation]
  cases d.value? .strict with
  | none => simp
  | some j =>
    simp only [Option.bind_some, Grammar.direct?_eq_some_iff, Option.mem_some_iff, forall_eq']

theorem condition?_tagged {name variant field : String}
    {decode : (Json → Except Refusal Condition) → Json → Except Refusal Condition}
    (hop : ∀ inner, (Condition.vocabulary inner).named name =
      .ok ⟨name, variant, .one field (decode inner)⟩) (hf : field ≠ "op") (d : Document) :
    (tagged name field d).condition? =
      (d.value? .strict).bind fun j => (decode (Condition.ofJson (j.height + 1)) j).toOption := by
  have hvalue : (tagged name field d).value? .strict =
      (d.value? .strict).map fun j => .object [("op", .string name), (field, j)] := by
    rw [tagged, value?, members?, members?, members?, ofString, value?, Token.value?,
      Piece.string?_ofString, Piece.string?_ofString, Piece.string?_ofString]
    cases d.value? .strict <;> rfl
  rw [condition?, hvalue]
  cases d.value? .strict with
  | none => rfl
  | some j =>
    have htagged : Json.Tagged name [(field, j)] (.object [("op", .string name), (field, j)]) :=
      .object ⟨[], by simp, .refl _⟩
    have hnames : (Json.object [("op", .string name), (field, j)]).NamesOperation :=
      htagged.namesOperation fun m hm => by rwa [List.mem_singleton.mp hm]
    have hheight : (Json.object [("op", .string name), (field, j)]).height = j.height + 1 := by
      simp [Json.height, Json.heightMembers]
    have hinner := htagged.inner?_one Condition.grammar hop hf
    rw [hheight] at hinner
    ext c
    rw [Option.map_some, Option.bind_some, Option.bind_some, Grammar.direct?_eq_some_iff, hinner]
    exact and_iff_left hnames

theorem decodeList_items (items : List Document) :
    ((Document.list items).value? .strict).bind
        (fun j => (j.decodeList (Condition.ofJson (j.height + 1))).toOption) =
      items.mapM inner? := by
  have hbind := mapM_bind (value? .strict) Condition.grammar.inner? items
  have hinner : items.mapM inner? =
      items.mapM fun d => (d.value? .strict).bind Condition.grammar.inner? := rfl
  rw [hinner, ← hbind, value?, items?_eq]
  cases items.mapM (value? .strict) with
  | none => rfl
  | some js =>
    have hheight : Json.heightItems js ≤ (Json.list js).height + 1 := by
      rw [Json.height]
      omega
    exact Condition.grammar.decodeList_ofJson hheight

end Document

/-- An operation around a condition, with other conditions beside it. -/
inductive Wrapper where
  | not
  | all (before after : List Document)
  | any (before after : List Document)

namespace Wrapper

def fill : Wrapper → Document → Document
  | .not, d => .tagged "not" "predicate" d
  | .all before after, d => .tagged "all" "predicates" (.list (before ++ d :: after))
  | .any before after, d => .tagged "any" "predicates" (.list (before ++ d :: after))

def wrap? : Wrapper → Option (Condition → Condition)
  | .not => some .not
  | .all before after => do
    let cs ← before.mapM Document.inner?
    let ds ← after.mapM Document.inner?
    return fun c => .all (cs ++ c :: ds)
  | .any before after => do
    let cs ← before.mapM Document.inner?
    let ds ← after.mapM Document.inner?
    return fun c => .any (cs ++ c :: ds)

theorem condition?_list {name variant : String} {make : List Condition → Condition}
    (hop : ∀ inner, (Condition.vocabulary inner).named name =
      .ok ⟨name, variant, .one "predicates" fun v => make <$> v.decodeList inner⟩)
    (items : List Document) :
    (Document.tagged name "predicates" (.list items)).condition? =
      (items.mapM Document.inner?).map make := by
  rw [Document.condition?_tagged hop (by decide), ← Document.decodeList_items]
  simp only [toOption_map]
  cases (Document.list items).value? .strict <;> rfl

theorem condition?_fill (w : Wrapper) (d : Document) :
    (w.fill d).condition? = w.wrap?.bind fun wrap => d.inner?.map wrap := by
  cases w with
  | not =>
    rw [fill, Document.condition?_tagged (fun _ => rfl) (by decide), Document.inner?]
    cases d.value? .strict with
    | none => rfl
    | some j =>
      have hinner := Condition.grammar.ofJson_eq (Nat.le_succ j.height)
      exact (toOption_map _ _).trans (congrArg (Option.map Condition.not) hinner)
  | all before after =>
    rw [fill, condition?_list (fun _ => rfl), mapM_middle, wrap?]
    cases before.mapM Document.inner? with
    | none => rfl
    | some cs => cases d.inner? <;> cases after.mapM Document.inner? <;> rfl
  | any before after =>
    rw [fill, condition?_list (fun _ => rfl), mapM_middle, wrap?]
    cases before.mapM Document.inner? with
    | none => rfl
    | some cs => cases d.inner? <;> cases after.mapM Document.inner? <;> rfl

end Wrapper

theorem Frame.accepts (f : Frame) :
    ∃ around : Option Surroundings, (∀ s ∈ around, s.before.length = f.before.length) ∧
      ∀ (d : Document) (text : String), (f.fill d).SpelledBy text →
        (f.fill d).height ≤ Json.maxHeight →
        ∀ t, Table.ofText? text = .ok t ↔ ∃ c ∈ d.condition?, ∃ s ∈ around, t = s.table c := by
  obtain ⟨around, hlength, htable⟩ := f.table?_fill
  refine ⟨around, hlength, ?_⟩
  intro d text hspelled hheight t
  rw [← toOption_eq_some, Table.ofText?_spelled hspelled hheight, htable]
  cases d.condition? with
  | none => simp
  | some c =>
    cases around with
    | none => simp
    | some s => simp [eq_comm]

namespace Table

/-- A condition that is accepted directly in a rule is accepted inside other conditions too. The
converse needs the name of its operation. In both places it is the same condition. -/
theorem ofText?_wrapped (f : Frame) {w : Wrapper} {wrap : Condition → Condition}
    (hwrap : w.wrap? = some wrap) (d : Document) {direct wrapped : String}
    (hd : (f.fill d).SpelledBy direct) (hw : (f.fill (w.fill d)).SpelledBy wrapped)
    (hdepth : (f.fill d).height ≤ Json.maxHeight)
    (hdepth' : (f.fill (w.fill d)).height ≤ Json.maxHeight) :
    ((∃ t, ofText? direct = .ok t) ↔ (∃ u, ofText? wrapped = .ok u) ∧ d.NamesOperation) ∧
      ∀ t u, ofText? direct = .ok t → ofText? wrapped = .ok u →
        ∃ (s : Surroundings) (c : Condition), s.before.length = f.before.length ∧
          t = s.table c ∧ u = s.table (wrap c) := by
  obtain ⟨around, hlength, haccepts⟩ := f.accepts
  have hdirect : ∀ t, ofText? direct = .ok t ↔
      ∃ c s, d.inner? = some c ∧ d.NamesOperation ∧ around = some s ∧ t = s.table c := by
    intro t
    rw [haccepts d direct hd hdepth]
    constructor
    · rintro ⟨c, hc, s, hs, ht⟩
      obtain ⟨hc, hnames⟩ := Document.condition?_eq_some_iff.mp hc
      exact ⟨c, s, hc, hnames, hs, ht⟩
    · rintro ⟨c, s, hc, hnames, hs, ht⟩
      exact ⟨c, Document.condition?_eq_some_iff.mpr ⟨hc, hnames⟩, s, hs, ht⟩
  have hwrapped : ∀ u, ofText? wrapped = .ok u ↔
      ∃ c s, d.inner? = some c ∧ around = some s ∧ u = s.table (wrap c) := by
    intro u
    rw [haccepts _ wrapped hw hdepth', w.condition?_fill, hwrap]
    constructor
    · rintro ⟨b, hb, s, hs, hu⟩
      obtain ⟨c, hc, rfl⟩ := Option.map_eq_some_iff.mp hb
      exact ⟨c, s, hc, hs, hu⟩
    · rintro ⟨c, s, hc, hs, hu⟩
      exact ⟨wrap c, Option.map_eq_some_iff.mpr ⟨c, hc, rfl⟩, s, hs, hu⟩
  refine ⟨⟨?_, ?_⟩, ?_⟩
  · rintro ⟨t, ht⟩
    obtain ⟨c, s, hc, hnames, hs, -⟩ := (hdirect t).mp ht
    exact ⟨⟨_, (hwrapped _).mpr ⟨c, s, hc, hs, rfl⟩⟩, hnames⟩
  · rintro ⟨⟨u, hu⟩, hnames⟩
    obtain ⟨c, s, hc, hs, -⟩ := (hwrapped u).mp hu
    exact ⟨_, (hdirect _).mpr ⟨c, s, hc, hnames, hs, rfl⟩⟩
  · intro t u ht hu
    obtain ⟨c, s, hc, -, hs, rfl⟩ := (hdirect t).mp ht
    obtain ⟨c', s', hc', hs', rfl⟩ := (hwrapped u).mp hu
    obtain rfl := Option.some.inj (hc.symm.trans hc')
    obtain rfl := Option.some.inj (hs.symm.trans hs')
    exact ⟨s, c, hlength s hs, rfl, rfl⟩

theorem always_negated : ∃ (s : Surroundings) (c : Condition),
    ofText? "[[[[\"always\"],[\"null\"]]]]" = .ok (s.table c) ∧
      ofText? "[[[\x7b\"op\":\"not\",\"predicate\":[\"always\"]\x7d,[\"null\"]]]]" =
        .ok (s.table (.not c)) := by
  have hblank : Blank [] := by decide
  have hlist : ∀ s, Piece.Plain s → (Document.list [.ofString s]).Spelled _ := fun s hs =>
    .list (.cons hblank (Document.spelled_ofString s hs) (.close hblank))
  have halways := hlist "always" (by decide)
  have hnot : (Wrapper.not.fill (.list [.ofString "always"])).Spelled _ :=
    .object (.cons hblank
      (spelledMember_ofString "op" (by decide) (Document.spelled_ofString "not" (by decide)))
      (.comma hblank hblank (spelledMember_ofString "predicate" (by decide) halways)
        (.close hblank)))
  have hplaced : ∀ {d text}, Document.Spelled d text →
      (Frame.fill ⟨.item [], [], .item [.list [.ofString "null"]], []⟩ d).SpelledBy _ := fun h =>
    .mk hblank (.list (.cons hblank (.list (.cons hblank (.list (.cons hblank h
      (.comma hblank hblank (hlist "null" (by decide)) (.close hblank)))) (.close hblank)))
        (.close hblank))) hblank
  obtain ⟨haccept, hsame⟩ := ofText?_wrapped _ rfl _ (hplaced halways) (hplaced hnot)
    (by decide) (by decide)
  have hdirect : ∃ t, ofText? "[[[[\"always\"],[\"null\"]]]]" = .ok t := ⟨_, rfl⟩
  obtain ⟨t, ht⟩ := hdirect
  obtain ⟨⟨u, hu⟩, -⟩ := haccept.mp ⟨t, ht⟩
  obtain ⟨s, c, -, rfl, rfl⟩ := hsame t u ht hu
  exact ⟨s, c, ht, hu⟩

/-- The position of an operation does for its name inside a negation, but not directly in a rule. -/
theorem position_refused_and_accepted :
    (∀ t, ofText? ("\x7b\"rules\":[\x7b\"when\":\x7b\"op\":0\x7d," ++
      "\"then\":\x7b\"op\":\"null\"\x7d\x7d]\x7d") ≠ .ok t) ∧
    ofText? ("\x7b\"rules\":[\x7b\"when\":\x7b\"op\":\"not\",\"predicate\":\x7b\"op\":0\x7d\x7d," ++
      "\"then\":\x7b\"op\":\"null\"\x7d\x7d]\x7d") = .ok ⟨[⟨.not .always, .null⟩], none⟩ := by
  refine ⟨?_, rfl⟩
  intro t ht
  have hnone : (ofText? ("\x7b\"rules\":[\x7b\"when\":\x7b\"op\":0\x7d," ++
      "\"then\":\x7b\"op\":\"null\"\x7d\x7d]\x7d")).toOption.isSome = false := by
    decide +kernel
  rw [ht] at hnone
  cases hnone

end Table

end FirstMatch
