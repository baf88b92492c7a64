import FirstMatch.Proofs.Json.Arranged
import FirstMatch.Proofs.Table.Spelled
import FirstMatch.Proofs.Table.Tagged

/-!
All ways of writing a table. At every point the object form and the sequence form are free to
choose, and so are the order of the members, further members that are not known, what is left out
where there is nothing, and how numbers are written. Whatever is chosen, the same table is read.
-/

namespace FirstMatch

open Json (Arranged Holds Tagged)

/-- The value writes this condition. The value of an equality is held with its objects sorted. -/
inductive Condition.Written : Condition → Json → Prop where
  | always {j : Json} (form : Tagged "always" [] j) : Written .always j
  | never {j : Json} (form : Tagged "never" [] j) : Written .never j
  | isNull {j : Json} (form : Tagged "is_null" [] j) : Written .isNull j
  | isNumber {j : Json} (form : Tagged "is_number" [] j) : Written .isNumber j
  | isString {j : Json} (form : Tagged "is_string" [] j) : Written .isString j
  | equals {v w j : Json} (held : v.WellFormed) (value : Arranged v w)
      (form : Tagged "equals" [("value", w)] j) : Written (.equals v) j
  | lessThan {x : Double} {n : Number} {j : Json} (value : n.toDouble = x)
      (form : Tagged "less_than" [("value", .number n)] j) : Written (.lessThan x) j
  | greaterThan {x : Double} {n : Number} {j : Json} (value : n.toDouble = x)
      (form : Tagged "greater_than" [("value", .number n)] j) : Written (.greaterThan x) j
  | not {c : Condition} {w j : Json} (inner : Written c w)
      (form : Tagged "not" [("predicate", w)] j) : Written (.not c) j
  | all {cs : List Condition} {ws : List Json} {j : Json} (each : List.Forall₂ Written cs ws)
      (form : Tagged "all" [("predicates", .list ws)] j) : Written (.all cs) j
  | any {cs : List Condition} {ws : List Json} {j : Json} (each : List.Forall₂ Written cs ws)
      (form : Tagged "any" [("predicates", .list ws)] j) : Written (.any cs) j

inductive Action.Written : Action → Json → Prop where
  | identity {j : Json} (form : Tagged "identity" [] j) : Written .identity j
  | null {j : Json} (form : Tagged "null" [] j) : Written .null j
  | constant {v w j : Json} (held : v.WellFormed) (value : Arranged v w)
      (form : Tagged "constant" [("value", w)] j) : Written (.constant v) j
  | negate {j : Json} (form : Tagged "negate" [] j) : Written .negate j
  | scale {x : Double} {n : Number} {j : Json} (factor : n.toDouble = x)
      (form : Tagged "scale" [("factor", .number n)] j) : Written (.scale x) j
  | offset {x : Double} {n : Number} {j : Json} (amount : n.toDouble = x)
      (form : Tagged "offset" [("by", .number n)] j) : Written (.offset x) j
  | stringify {j : Json} (form : Tagged "to_string" [] j) : Written .stringify j
  | chain {as : List Action} {ws : List Json} {j : Json} (each : List.Forall₂ Written as ws)
      (form : Tagged "chain" [("steps", .list ws)] j) : Written (.chain as) j

inductive Rule.Written (r : Rule) : Json → Prop where
  | object {c a : Json} {members : List (String × Json)} (condition : r.condition.Written c)
      (action : r.action.Written a)
      (holds : Holds ["when", "then"] [("when", c), ("then", a)] members) :
      Written r (.object members)
  | list {c a : Json} (condition : r.condition.Written c) (action : r.action.Written a) :
      Written r (.list [c, a])

inductive RulesWritten (rs : List Rule) : Json → Prop where
  | list {js : List Json} (each : List.Forall₂ Rule.Written rs js) : RulesWritten rs (.list js)

inductive FallbackWritten : Option Action → Json → Prop where
  | absent : FallbackWritten none .null
  | present {a : Action} {j : Json} (action : a.Written j) : FallbackWritten (some a) j

/-- A field that may be left out where there is nothing to write. -/
inductive MayOmit (name : String) (written : Json → Prop) (nothing : Prop) :
    List (String × Json) → Prop where
  | omitted (h : nothing) : MayOmit name written nothing []
  | present {j : Json} (h : written j) : MayOmit name written nothing [(name, j)]

inductive Table.Written (t : Table) : Json → Prop where
  | object {rules fallback members : List (String × Json)}
      (rulesField : MayOmit "rules" (RulesWritten t.rules) (t.rules = []) rules)
      (fallbackField : MayOmit "default" (FallbackWritten t.fallback) (t.fallback = none) fallback)
      (holds : Holds ["rules", "default"] (rules ++ fallback) members) : Written t (.object members)
  | list {rs a : Json} (rules : RulesWritten t.rules rs) (fallback : FallbackWritten t.fallback a) :
      Written t (.list [rs, a])
  | rules {rs : Json} (rules : RulesWritten t.rules rs) (nothing : t.fallback = none) :
      Written t (.list [rs])
  | empty (nothing : t.rules = []) (nothing' : t.fallback = none) : Written t (.list [])

/-! Conditions and actions -/

namespace Condition

theorem Written.namesOperation {c : Condition} {j : Json} (h : c.Written j) :
    j.NamesOperation := by
  cases h <;> exact Tagged.namesOperation ‹_› (by simp)

mutual

theorem Written.inner? : ∀ {c : Condition} {j : Json}, c.Written j → grammar.inner? j = some c
  | .always, _, .always form => form.inner?_none grammar fun _ => rfl
  | .never, _, .never form => form.inner?_none grammar fun _ => rfl
  | .isNull, _, .isNull form => form.inner?_none grammar fun _ => rfl
  | .isNumber, _, .isNumber form => form.inner?_none grammar fun _ => rfl
  | .isString, _, .isString form => form.inner?_none grammar fun _ => rfl
  | .equals _, _, .equals held value form => by
    rw [form.inner?_one grammar (fun _ => rfl) (by decide), value.canonical_eq held]
    rfl
  | .lessThan _, _, .lessThan rfl form => form.inner?_one grammar (fun _ => rfl) (by decide)
  | .greaterThan _, _, .greaterThan rfl form => form.inner?_one grammar (fun _ => rfl) (by decide)
  | .not _, _, .not inner form => by
    -- What is left of the bound for the part is the height of the whole, which is enough.
    have hle := Nat.le_of_lt (form.height_lt List.mem_cons_self)
    rw [form.inner?_one grammar (fun _ => rfl) (by decide), toOption_map, grammar.ofJson_eq hle,
      inner.inner?]
    rfl
  | .all _, _, .all each form => by
    rw [form.inner?_one grammar (fun _ => rfl) (by decide), toOption_map,
      grammar.decodeList_ofJson form.heightItems_le, mapM_inner? each]
    rfl
  | .any _, _, .any each form => by
    rw [form.inner?_one grammar (fun _ => rfl) (by decide), toOption_map,
      grammar.decodeList_ofJson form.heightItems_le, mapM_inner? each]
    rfl

theorem mapM_inner? : ∀ {cs : List Condition} {js : List Json},
    List.Forall₂ Written cs js → js.mapM grammar.inner? = some cs
  | [], _, .nil => rfl
  | _ :: _, _ :: _, .cons head tail => by
    rw [List.mapM_cons, head.inner?, mapM_inner? tail]
    rfl

end

end Condition

namespace Action

theorem Written.namesOperation {a : Action} {j : Json} (h : a.Written j) : j.NamesOperation := by
  cases h <;> exact Tagged.namesOperation ‹_› (by simp)

mutual

theorem Written.inner? : ∀ {a : Action} {j : Json}, a.Written j → grammar.inner? j = some a
  | .identity, _, .identity form => form.inner?_none grammar fun _ => rfl
  | .null, _, .null form => form.inner?_none grammar fun _ => rfl
  | .constant _, _, .constant held value form => by
    rw [form.inner?_one grammar (fun _ => rfl) (by decide), value.canonical_eq held]
    rfl
  | .negate, _, .negate form => form.inner?_none grammar fun _ => rfl
  | .scale _, _, .scale rfl form => form.inner?_one grammar (fun _ => rfl) (by decide)
  | .offset _, _, .offset rfl form => form.inner?_one grammar (fun _ => rfl) (by decide)
  | .stringify, _, .stringify form => form.inner?_none grammar fun _ => rfl
  | .chain _, _, .chain each form => by
    rw [form.inner?_one grammar (fun _ => rfl) (by decide), toOption_map,
      grammar.decodeList_ofJson form.heightItems_le, mapM_inner? each]
    rfl

theorem mapM_inner? : ∀ {as : List Action} {js : List Json},
    List.Forall₂ Written as js → js.mapM grammar.inner? = some as
  | [], _, .nil => rfl
  | _ :: _, _ :: _, .cons head tail => by
    rw [List.mapM_cons, head.inner?, mapM_inner? tail]
    rfl

end

end Action

/-! Rules and tables. These are read from the document itself, and their members of other names
are passed over. -/

theorem Condition.Written.condition? {c : Condition} {j : Json} {d : Document} (h : c.Written j)
    (hd : d.value? .strict = some j) : d.condition? = some c := by
  rw [Document.condition?, hd]
  exact Condition.grammar.direct?_eq_some_iff.mpr ⟨h.inner?, h.namesOperation⟩

theorem Action.Written.action? {a : Action} {j : Json} {d : Document} (h : a.Written j)
    (hd : d.value? .strict = some j) : d.action? = some a := by
  rw [Document.action?, hd]
  exact Action.grammar.direct?_eq_some_iff.mpr ⟨h.inner?, h.namesOperation⟩

namespace Document

theorem object_of_value? {d : Document} {members : List (String × Json)}
    (h : d.value? .strict = some (.object members)) :
    ∃ ms entries, d = .object ms ∧ named? .strict ms = some entries ∧
      List.Forall₂ ReadsAs entries members := by
  cases d with
  | token t => exact absurd (height_of_value? h) (Nat.succ_ne_zero _)
  | list ds =>
    obtain ⟨js, -, heq⟩ := Option.map_eq_some_iff.mp h
    cases heq
  | object ms =>
    obtain ⟨members', hmembers, heq⟩ := Option.map_eq_some_iff.mp h
    obtain rfl := Json.object.inj heq
    obtain ⟨entries, hentries, hread⟩ := named?_of_members? hmembers
    exact ⟨ms, entries, rfl, hentries, hread⟩

theorem null_of_value? {d : Document} (h : d.value? .strict = some .null) : d = .token .null := by
  cases d with
  | token t =>
    cases t with
    | null => rfl
    | bool b => cases h
    | number n =>
      obtain ⟨k, -, heq⟩ := Option.map_eq_some_iff.mp h
      cases heq
    | string ps =>
      obtain ⟨s, -, heq⟩ := Option.map_eq_some_iff.mp h
      cases heq
  | list ds => exact absurd (height_of_value? h) (Nat.succ_ne_zero _).symm
  | object ms => exact absurd (height_of_value? h) (Nat.succ_ne_zero _).symm

variable {α : Type} {name : String} {f : Document → Option α} {entries : List (String × Document)}
  {members : List (String × Json)}

theorem field?_of_single {j : Json} {x : α} (h : List.Forall₂ ReadsAs entries members)
    (hm : (members.filter fun m => m.1 == name) = [(name, j)])
    (hf : ∀ d : Document, d.value? .strict = some j → f d = some x) :
    field? name f entries = some (some x) := by
  have hfilter := filter_readsAs h name
  rw [hm] at hfilter
  obtain ⟨e, rest, he, hrest, heq⟩ := List.forall₂_cons_right_iff.mp hfilter
  obtain rfl := List.forall₂_nil_right_iff.mp hrest
  rw [FirstMatch.field?_of_single heq, hf e.2 he.2]
  rfl

theorem field?_of_none (h : List.Forall₂ ReadsAs entries members)
    (hm : (members.filter fun m => m.1 == name) = []) : field? name f entries = some none := by
  have hfilter := filter_readsAs h name
  rw [hm] at hfilter
  exact field?_of_nil (List.forall₂_nil_right_iff.mp hfilter)

end Document

theorem Rule.Written.rule? {r : Rule} {j : Json} {d : Document} (h : r.Written j)
    (hd : d.value? .strict = some j) : d.rule? = some r := by
  cases h with
  | @object c a members condition action holds =>
    obtain ⟨ms, entries, rfl, hentries, hread⟩ := Document.object_of_value? hd
    have hc : (members.filter fun m => m.1 == "when") = [("when", c)] :=
      holds.filter_single (by simp) rfl
    have ha : (members.filter fun m => m.1 == "then") = [("then", a)] :=
      holds.filter_single (by simp) rfl
    have hwhen := Document.field?_of_single hread hc fun _ he => condition.condition? he
    have hthen := Document.field?_of_single hread ha fun _ he => action.action? he
    rw [Document.rule?, Document.fields?, hentries, Option.bind_some, hwhen, hthen]
    rfl
  | list condition action =>
    obtain ⟨ds, rfl, hitems⟩ := Document.list_of_value? hd
    obtain ⟨c, rest, hc, hrest, rfl⟩ := List.forall₂_cons_right_iff.mp hitems
    obtain ⟨a, rest, ha, hnil, rfl⟩ := List.forall₂_cons_right_iff.mp hrest
    obtain rfl := List.forall₂_nil_right_iff.mp hnil
    rw [Document.rule?, condition.condition? hc, action.action? ha]
    rfl

theorem RulesWritten.rules? {rs : List Rule} {j : Json} {d : Document} (h : RulesWritten rs j)
    (hd : d.value? .strict = some j) : d.rules? = some rs := by
  obtain ⟨each⟩ := h
  obtain ⟨ds, rfl, hitems⟩ := Document.list_of_value? hd
  rw [Document.rules?, mapM_eq_some]
  clear hd
  induction each generalizing ds with
  | nil =>
    obtain rfl := List.forall₂_nil_right_iff.mp hitems
    exact .nil
  | cons head _ ih =>
    obtain ⟨d, ds, hd, hrest, rfl⟩ := List.forall₂_cons_right_iff.mp hitems
    exact .cons (head.rule? hd) (ih ds hrest)

theorem FallbackWritten.fallback? {fallback : Option Action} {j : Json} {d : Document}
    (h : FallbackWritten fallback j) (hd : d.value? .strict = some j) :
    d.fallback? = some fallback := by
  cases h with
  | absent =>
    obtain rfl := Document.null_of_value? hd
    rfl
  | present action => exact Document.fallback?_of_action? (action.action? hd)

namespace MayOmit

variable {α : Type} {name : String} {written : Json → Prop} {nothing : Prop}
  {fields : List (String × Json)}

theorem filter_self (h : MayOmit name written nothing fields) :
    (fields.filter fun m => m.1 == name) = fields := by
  cases h <;> simp

theorem filter_other (h : MayOmit name written nothing fields) {key : String} (hne : name ≠ key) :
    (fields.filter fun m => m.1 == key) = [] := by
  cases h <;> simp [hne]

/-- A field that is left out is as good as one that says nothing. -/
theorem field? (h : MayOmit name written nothing fields) {entries : List (String × Document)}
    {members : List (String × Json)} (hread : List.Forall₂ Document.ReadsAs entries members)
    (hm : (members.filter fun m => m.1 == name).Perm fields) {f : Document → Option α} {x y : α}
    (hf : ∀ (j : Json) (d : Document), written j → d.value? .strict = some j → f d = some x)
    (hy : nothing → y = x) : (FirstMatch.field? name f entries).map (·.getD y) = some x := by
  cases h with
  | omitted hnothing =>
    rw [Document.field?_of_none hread (List.perm_nil.mp hm), hy hnothing]
    rfl
  | @present j hwritten =>
    rw [Document.field?_of_single hread (List.perm_singleton.mp hm) fun d hd => hf j d hwritten hd]
    rfl

end MayOmit

theorem Table.Written.table? {t : Table} {j : Json} {d : Document} (h : t.Written j)
    (hd : d.value? .strict = some j) : d.table? = some t := by
  obtain ⟨rules, fallback⟩ := t
  cases h with
  | @object rs a members rulesField fallbackField holds =>
    obtain ⟨ms, entries, rfl, hentries, hread⟩ := Document.object_of_value? hd
    have hrs : (members.filter fun m => m.1 == "rules").Perm rs := by
      have hperm := holds.filter_perm List.mem_cons_self
      rwa [List.filter_append, rulesField.filter_self, fallbackField.filter_other (by decide),
        List.append_nil] at hperm
    have ha : (members.filter fun m => m.1 == "default").Perm a := by
      have hperm := holds.filter_perm (List.mem_cons_of_mem _ List.mem_cons_self)
      rwa [List.filter_append, rulesField.filter_other (by decide), fallbackField.filter_self,
        List.nil_append] at hperm
    have hrules : (field? "rules" Document.rules? entries).map (·.getD []) = some rules :=
      rulesField.field? hread hrs (fun _ _ h => h.rules?) Eq.symm
    have hfallback : (field? "default" Document.fallback? entries).map (·.getD none) =
        some fallback :=
      fallbackField.field? hread ha (fun _ _ h => h.fallback?) Eq.symm
    obtain ⟨found, hfound, rfl⟩ := Option.map_eq_some_iff.mp hrules
    obtain ⟨found', hfound', rfl⟩ := Option.map_eq_some_iff.mp hfallback
    rw [Document.table?, Document.fields?, hentries, Option.bind_some, hfound, hfound']
    rfl
  | list hrules hfallback =>
    obtain ⟨ds, rfl, hitems⟩ := Document.list_of_value? hd
    obtain ⟨rs, rest, hrs, hrest, rfl⟩ := List.forall₂_cons_right_iff.mp hitems
    obtain ⟨a, rest, ha, hnil, rfl⟩ := List.forall₂_cons_right_iff.mp hrest
    obtain rfl := List.forall₂_nil_right_iff.mp hnil
    rw [Document.table?, hrules.rules? hrs, hfallback.fallback? ha]
    rfl
  | rules hrules nothing =>
    obtain ⟨ds, rfl, hitems⟩ := Document.list_of_value? hd
    obtain ⟨rs, rest, hrs, hnil, rfl⟩ := List.forall₂_cons_right_iff.mp hitems
    obtain rfl := List.forall₂_nil_right_iff.mp hnil
    obtain rfl : fallback = none := nothing
    rw [Document.table?, hrules.rules? hrs]
    rfl
  | empty nothing nothing' =>
    obtain ⟨ds, rfl, hitems⟩ := Document.list_of_value? hd
    obtain rfl := List.forall₂_nil_right_iff.mp hitems
    obtain rfl : rules = [] := nothing
    obtain rfl : fallback = none := nothing'
    rfl

/-- Every text that writes a table and is nested within the limit is accepted, and read as this
table. -/
theorem Table.ofText?_written {t : Table} {j : Json} {d : Document} {text : String}
    (h : t.Written j) (hd : d.value? .strict = some j) (hs : d.SpelledBy text)
    (hh : d.height ≤ Json.maxHeight) : ofText? text = .ok t := by
  rw [← toOption_eq_some, ofText?_spelled hs hh, h.table? hd]

theorem Table.mixed_forms_read :
    ofText? (" \x7b\"note\":[],\"rules\":[[\x7b\"value\":1,\"op\":\"less_than\"\x7d," ++
      "[\"constant\",\x7b\"b\":true,\"a\":null\x7d]]],\"default\":null\x7d") =
    .ok ⟨[⟨.lessThan (.ofInt 1), .constant (.object [("a", .null), ("b", .bool true)])⟩],
      none⟩ := by
  have hcondition : Condition.Written (.lessThan (.ofInt 1))
      (.object [("value", .number (.integer 1)), ("op", .string "less_than")]) :=
    .lessThan (n := .integer 1) rfl (.object ⟨[], by simp, .swap ..⟩)
  have hvalue : Arranged (.object [("a", .null), ("b", .bool true)])
      (.object [("b", .bool true), ("a", .null)]) :=
    .object (.cons (.mk _ (.same _)) (.cons (.mk _ (.same _)) .nil)) (.swap ..)
  have haction : Action.Written (.constant (.object [("a", .null), ("b", .bool true)]))
      (.list [.string "constant", .object [("b", .bool true), ("a", .null)]]) :=
    .constant ⟨by decide, by simp [Json.WellFormedMembers, Json.WellFormed]⟩ hvalue .list
  have hwritten : Written ⟨[⟨.lessThan (.ofInt 1), .constant _⟩], none⟩
      (.object ([("note", .list [])] ++
        ([("rules", .list [.list [_, _]])] ++ [("default", .null)]))) :=
    .object (.present (.list (.cons (.list hcondition haction) .nil))) (.present .absent)
      ⟨[("note", .list [])], by simp, List.perm_append_comm⟩
  have hblank : Blank [] := by decide
  have hone : (Document.token (.number (.ofInt 1))).Spelled _ :=
    .token (.number (.mk (Numeral.ofInt_proper 1) .none))
  have hwhen := Document.Spelled.object
    (.cons hblank (spelledMember_ofString "value" (by decide) hone)
      (.comma hblank hblank (spelledMember_ofString "op" (by decide)
        (Document.spelled_ofString "less_than" (by decide))) (.close hblank)))
  have hmembers := Document.Spelled.object
    (.cons hblank (spelledMember_ofString "b" (by decide) (.token .true))
      (.comma hblank hblank (spelledMember_ofString "a" (by decide) (.token .null))
        (.close hblank)))
  have hthen := Document.Spelled.list
    (.cons hblank (Document.spelled_ofString "constant" (by decide))
      (.comma hblank hblank hmembers (.close hblank)))
  have hrules := Document.Spelled.list (.cons hblank (.list (.cons hblank hwhen
    (.comma hblank hblank hthen (.close hblank)))) (.close hblank))
  have htext := Document.Spelled.object
    (.cons hblank (spelledMember_ofString "note" (by decide) (.list (.empty hblank)))
      (.comma hblank hblank (spelledMember_ofString "rules" (by decide) hrules)
        (.comma hblank hblank (spelledMember_ofString "default" (by decide) (.token .null))
          (.close hblank))))
  have hspace : Blank [' '] := by decide
  exact ofText?_written hwritten rfl
    (.of_toList hspace htext hblank (by decide +kernel)) (by decide)

end FirstMatch
