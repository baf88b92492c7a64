import FirstMatch.Proofs.Table.Form
import FirstMatch.Proofs.Table.Source

/-!
Nothing is lost. A text is accepted only if it is complete at every position, so that no field of a
table is passed over and none is chosen among several; and if it is, nothing else about its fields
can make it refused but their types.
-/

namespace FirstMatch

namespace Document

variable {d : Document} {ms : List (List Piece × Document)}

theorem named_list (ds : List Document) : (list ds).Named := by
  intro ms h
  cases h

theorem isSome_named? : (named? .strict ms).isSome = true ↔ (object ms).Named := by
  rw [named?, isSome_mapM]
  simp [Named]

/-- Two fields can be read if the names can, each stands there at most once, and what stands there
is of their kind. -/
theorem isSome_fields? {β γ : Type} {first second : String} {f : Document → Option β}
    {g : Document → Option γ} : (fields? first second f g ms).isSome = true ↔
      (object ms).Named ∧
      (((object ms).entries first 0).length ≤ 1 ∧
        ∀ e ∈ (object ms).entries first 0, (f e).isSome = true) ∧
      ((object ms).entries second 1).length ≤ 1 ∧
        ∀ e ∈ (object ms).entries second 1, (g e).isSome = true := by
  rw [← isSome_named?, fields?]
  cases hns : named? .strict ms with
  | none => simp
  | some ns =>
    rw [entries_object hns, entries_object hns, ← isSome_field?, ← isSome_field?, Option.bind_some]
    cases field? first f ns <;> simp

theorem exists_fields? {β γ : Type} {first second : String} {f : Document → Option β}
    {g : Document → Option γ} : (∃ x y, fields? first second f g ms = some (some x, some y)) ↔
      (object ms).Named ∧
      (((object ms).entries first 0).length = 1 ∧
        ∀ e ∈ (object ms).entries first 0, (f e).isSome = true) ∧
      ((object ms).entries second 1).length = 1 ∧
        ∀ e ∈ (object ms).entries second 1, (g e).isSome = true := by
  rw [← isSome_named?, fields?]
  cases hns : named? .strict ms with
  | none => simp
  | some ns =>
    rw [entries_object hns, entries_object hns, ← isSome_field?_join, ← isSome_field?_join,
      Option.bind_some]
    cases field? first f ns with
    | none => simp
    | some x =>
      cases field? second g ns with
      | none => simp
      | some y => cases x <;> cases y <;> simp

theorem isSome_rules? : d.rules?.isSome = true ↔
    ∃ rs, d = .list rs ∧ ∀ r ∈ rs, r.rule?.isSome = true := by
  cases d with
  | list rs => simp [rules?, isSome_mapM]
  | token t => simp [rules?]
  | object ms => simp [rules?]

end Document

/-! What a position stands for -/

/-- The document stands for what is due at the position. -/
def Means : Position → Prop
  | (.table, d) => d.table?.isSome = true
  | (.rule, d) => d.rule?.isSome = true
  | (.operand k, d) => k.Means d

theorem Grammar.isSome_direct? {α : Type} (g : Grammar α) (d : Document) :
    ((d.value? .strict).bind g.direct?).isSome = true ↔ g.Means d ∧ d.NamesOperation := by
  rw [Means, Document.NamesOperation]
  cases d.value? .strict with
  | none => simp
  | some j =>
    simp only [Option.bind_some, Option.isSome_iff_exists, g.direct?_eq_some_iff, exists_and_right,
      Option.mem_some_iff, forall_eq']

theorem Document.isSome_condition? (d : Document) :
    d.condition?.isSome = true ↔ Kind.condition.Means d ∧ d.NamesOperation :=
  Condition.grammar.isSome_direct? d

theorem Document.isSome_action? (d : Document) :
    d.action?.isSome = true ↔ Kind.action.Means d ∧ d.NamesOperation :=
  Action.grammar.isSome_direct? d

theorem Document.isSome_fallback? (d : Document) : d.fallback?.isSome = true ↔
    (d ≠ .token .null → Kind.action.Means d) ∧ d.NamesOperation := by
  by_cases hnull : d = .token .null
  · subst hnull
    have hnames : (token .null).NamesOperation := by
      rintro j ⟨⟩
      trivial
    simp [fallback?, hnames]
  · rw [fallback?_eq hnull, Option.isSome_map, d.isSome_action?]
    simp [hnull]

/-! One step down -/

theorem table_parts (d : Document) :
    (Proper (.table, d) ∧ ∀ q, Part (.table, d) q → Means q) ↔
      d.Named ∧ (∀ e ∈ d.entries "rules" 0, e.rules?.isSome = true) ∧
        ∀ e ∈ d.entries "default" 1, e.fallback?.isSome = true := by
  constructor
  · rintro ⟨⟨hnamed, hlists, hnames⟩, hparts⟩
    refine ⟨hnamed, ?_, ?_⟩
    · intro e he
      obtain ⟨rs, rfl⟩ := hlists e he
      exact Document.isSome_rules?.mpr ⟨rs, rfl, fun r hr => hparts _ (.rule he hr)⟩
    · intro e he
      exact e.isSome_fallback?.mpr ⟨fun hnull => hparts _ (.fallback he hnull), hnames e he⟩
  · rintro ⟨hnamed, hrules, hfallback⟩
    refine ⟨⟨hnamed, ?_, ?_⟩, ?_⟩
    · intro e he
      obtain ⟨rs, hrs, -⟩ := Document.isSome_rules?.mp (hrules e he)
      exact ⟨rs, hrs⟩
    · intro e he
      exact (e.isSome_fallback?.mp (hfallback e he)).2
    · intro q hq
      cases hq with
      | rule he hr =>
        obtain ⟨rs, hrs, hall⟩ := Document.isSome_rules?.mp (hrules _ he)
        cases hrs
        exact hall _ hr
      | fallback he hnull => exact (Document.isSome_fallback? _ |>.mp (hfallback _ he)).1 hnull

theorem rule_parts (d : Document) :
    (Proper (.rule, d) ∧ ∀ q, Part (.rule, d) q → Means q) ↔
      d.Named ∧ (∀ e ∈ d.entries "when" 0, e.condition?.isSome = true) ∧
        ∀ e ∈ d.entries "then" 1, e.action?.isSome = true := by
  constructor
  · rintro ⟨⟨hnamed, hwhen, hthen⟩, hparts⟩
    refine ⟨hnamed, ?_, ?_⟩
    · intro e he
      exact e.isSome_condition?.mpr ⟨hparts _ (.condition he), hwhen e he⟩
    · intro e he
      exact e.isSome_action?.mpr ⟨hparts _ (.action he), hthen e he⟩
  · rintro ⟨hnamed, hwhen, hthen⟩
    refine ⟨⟨hnamed, ?_, ?_⟩, ?_⟩
    · intro e he
      exact (e.isSome_condition?.mp (hwhen e he)).2
    · intro e he
      exact (e.isSome_action?.mp (hthen e he)).2
    · intro q hq
      cases hq with
      | condition he => exact (Document.isSome_condition? _ |>.mp (hwhen _ he)).1
      | action he => exact (Document.isSome_action? _ |>.mp (hthen _ he)).1

theorem means_table_iff (d : Document) : Means (.table, d) ↔
    Complete (.table, d) ∧ Proper (.table, d) ∧ ∀ q, Part (.table, d) q → Means q := by
  rw [table_parts, Means]
  cases d with
  | token t =>
    constructor
    · intro h
      cases h
    · rintro ⟨⟨⟩, -⟩
  | object ms =>
    have hcomplete : Complete (.table, .object ms) ↔
        ((Document.object ms).entries "rules" 0).length ≤ 1 ∧
          ((Document.object ms).entries "default" 1).length ≤ 1 := by
      constructor
      · rintro ⟨⟩
        exact ⟨‹_›, ‹_›⟩
      · rintro ⟨hrules, hfallback⟩
        exact .tableObject hrules hfallback
    have htable : (Document.object ms).table?.isSome =
        (Document.fields? "rules" "default" Document.rules? Document.fallback? ms).isSome := by
      rw [Document.table?]
      cases Document.fields? "rules" "default" Document.rules? Document.fallback? ms <;> rfl
    rw [hcomplete, htable, Document.isSome_fields?]
    tauto
  | list ds =>
    have hcomplete : Complete (.table, .list ds) ↔ ds.length ≤ 2 := by
      constructor
      · rintro ⟨⟩
        assumption
      · exact .tableList
    rw [hcomplete]
    rcases ds with _ | ⟨rs, _ | ⟨a, _ | ⟨b, ds⟩⟩⟩
    · simp [Document.table?, Document.entries, Document.named_list]
    · simp [Document.table?, Document.entries, Document.named_list]
    · cases hrs : rs.rules? <;> cases ha : a.fallback? <;>
        simp [Document.table?, Document.entries, Document.named_list, hrs, ha]
    · simp [Document.table?]

theorem means_rule_iff (d : Document) : Means (.rule, d) ↔
    Complete (.rule, d) ∧ Proper (.rule, d) ∧ ∀ q, Part (.rule, d) q → Means q := by
  rw [rule_parts, Means]
  cases d with
  | token t =>
    constructor
    · intro h
      cases h
    · rintro ⟨⟨⟩, -⟩
  | object ms =>
    have hcomplete : Complete (.rule, .object ms) ↔
        ((Document.object ms).entries "when" 0).length = 1 ∧
          ((Document.object ms).entries "then" 1).length = 1 := by
      constructor
      · rintro ⟨⟩
        exact ⟨‹_›, ‹_›⟩
      · rintro ⟨hwhen, hthen⟩
        exact .ruleObject hwhen hthen
    have hrule : (Document.object ms).rule?.isSome = true ↔ ∃ c a, Document.fields? "when" "then"
        Document.condition? Document.action? ms = some (some c, some a) := by
      rw [Document.rule?]
      cases hfields : Document.fields? "when" "then" Document.condition? Document.action? ms with
      | none => simp
      | some found =>
        obtain ⟨c, a⟩ := found
        cases c <;> cases a <;> simp
    rw [hcomplete, hrule, Document.exists_fields?]
    tauto
  | list ds =>
    have hcomplete : Complete (.rule, .list ds) ↔ ds.length = 2 := by
      constructor
      · rintro ⟨⟩
        assumption
      · exact .ruleList
    rw [hcomplete]
    rcases ds with _ | ⟨c, _ | ⟨a, _ | ⟨b, ds⟩⟩⟩
    · simp [Document.rule?]
    · simp [Document.rule?]
    · cases hc : c.condition? <;> cases ha : a.action? <;>
        simp [Document.rule?, Document.entries, Document.named_list, hc, ha]
    · simp [Document.rule?]

theorem means_operand_iff (k : Kind) (d : Document) : Means (.operand k, d) ↔
    Complete (.operand k, d) ∧ Proper (.operand k, d) ∧
      ∀ q, Part (.operand k, d) q → Means q := by
  have hmeans : k.Means d ↔ k.Complete d ∧ k.Proper d ∧ ∀ e, k.Inner d e → k.Means e := by
    cases k with
    | condition => exact Condition.grammar_has.means_iff d
    | action => exact Action.grammar_has.means_iff d
  constructor
  · intro h
    obtain ⟨hcomplete, hproper, hinner⟩ := hmeans.mp h
    refine ⟨.operand hcomplete, hproper, ?_⟩
    intro q hq
    cases hq with
    | operand he => exact hinner _ he
  · rintro ⟨⟨⟩, hproper, hparts⟩
    exact hmeans.mpr ⟨‹_›, hproper, fun e he => hparts _ (.operand he)⟩

theorem means_iff (p : Position) :
    Means p ↔ Complete p ∧ Proper p ∧ ∀ q, Part p q → Means q := by
  obtain ⟨role, d⟩ := p
  cases role with
  | table => exact means_table_iff d
  | rule => exact means_rule_iff d
  | operand k => exact means_operand_iff k d

/-! All the way down -/

theorem Document.height_lt_of_mem_entries {d e : Document} {name : String} {place : Nat}
    (h : e ∈ d.entries name place) : e.height < d.height := by
  cases d with
  | token t => cases h
  | list items =>
    have hmem := List.mem_of_getElem? (Option.mem_toList.mp h)
    exact Nat.lt_succ_of_le (height_le_of_mem_items hmem)
  | object members =>
    obtain ⟨m, hm, rfl⟩ := List.mem_map.mp h
    exact Nat.lt_succ_of_le (height_le_of_mem_members (List.mem_of_mem_filter hm))

theorem Part.height_lt {p q : Position} (h : Part p q) : q.2.height < p.2.height := by
  have hitem : ∀ {e d : Document} {es : List Document} {name place}, e ∈ es →
      .list es ∈ d.entries name place → e.height < d.height := by
    intro e d es name place he hes
    have hle := Document.height_le_of_mem_items he
    have hlt := Document.height_lt_of_mem_entries hes
    rw [Document.height] at hlt
    omega
  cases h with
  | rule rules mem => exact hitem mem rules
  | fallback entry => exact Document.height_lt_of_mem_entries entry
  | condition entry => exact Document.height_lt_of_mem_entries entry
  | action entry => exact Document.height_lt_of_mem_entries entry
  | operand inner =>
    cases inner with
    | one _ _ _ entry => exact Document.height_lt_of_mem_entries entry
    | many _ _ _ entry mem => exact hitem mem entry

/-- What is due at the top is there exactly if everything on the way down is. -/
theorem means_iff_forall {p : Position} : Means p ↔
    ∀ q, Relation.ReflTransGen Part p q → Complete q ∧ Proper q := by
  constructor
  · intro hp q hq
    have hmeans : Means q := by
      induction hq with
      | refl => exact hp
      | tail _ hpart ih => exact ((means_iff _).mp ih).2.2 _ hpart
    obtain ⟨hcomplete, hproper, -⟩ := (means_iff q).mp hmeans
    exact ⟨hcomplete, hproper⟩
  · intro h
    induction hn : p.2.height using Nat.strongRecOn generalizing p with
    | _ n ih =>
      subst hn
      obtain ⟨hcomplete, hproper⟩ := h p .refl
      refine (means_iff p).mpr ⟨hcomplete, hproper, ?_⟩
      intro q hq
      exact ih _ hq.height_lt (fun r hr => h r (.head hq hr)) rfl

theorem Document.isSome_table? {d : Document} :
    d.table?.isSome = true ↔ ∀ p, Stands d p → Complete p ∧ Proper p :=
  means_iff_forall (p := (.table, d))

namespace Table

theorem decode_eq_ok_iff {text : String} {t : Table} :
    decode text = .ok t ↔ ofText? text = .ok t := by
  rw [decode]
  cases ofText? text <;> simp [Except.mapError]

theorem exists_ok_iff {text : String} :
    (∃ t, decode text = .ok t) ↔ (decode text).toOption.isSome = true := by
  simp only [Option.isSome_iff_exists, toOption_eq_some]

theorem decode_eq_error {text : String} (h : ∀ t, decode text ≠ .ok t) :
    ∃ e, decode text = .error (.undecodable e) := by
  rw [decode] at h ⊢
  cases hread : ofText? text with
  | error e => exact ⟨e, rfl⟩
  | ok t =>
    rw [hread] at h
    exact absurd rfl (h t)

/-- A text that is accepted is the text of one document, which stands for the table that is read and
is complete at every position where a table, a rule, a condition or an action stands: nothing known
is there twice, nothing that has to be there is missing, and every sequence has exactly the elements
that it takes. A text whose document falls short of that at any position is refused. Beyond that
only the types of what stands there decide, so that members of other names and the members inside a
JSON value may be repeated. -/
theorem decode_loses_nothing (text : String) :
    (∀ t, decode text = .ok t → (∃! d : Document, d.SpelledBy text) ∧
      ∀ d : Document, d.SpelledBy text → d.table? = some t ∧
        ∀ p, Stands d p → Complete p) ∧
    (∀ d : Document, d.SpelledBy text → ∀ p, Stands d p → ¬ Complete p →
      ∃ e, decode text = .error (.undecodable e)) ∧
    ∀ d : Document, d.SpelledBy text → d.height ≤ Json.maxHeight →
      ((∃ t, decode text = .ok t) ↔ ∀ p, Stands d p → Complete p ∧ Proper p) := by
  have hcomplete : ∀ t, decode text = .ok t → ∀ d : Document, d.SpelledBy text →
      d.table? = some t ∧ ∀ p, Stands d p → Complete p := by
    intro t ht d hd
    have htable := table?_of_ofText? hd (decode_eq_ok_iff.mp ht)
    exact ⟨htable, fun p hp => (Document.isSome_table?.mp (htable ▸ rfl) p hp).1⟩
  refine ⟨?_, ?_, ?_⟩
  · intro t ht
    obtain ⟨d, hd, -⟩ := exists_document (decode_eq_ok_iff.mp ht)
    exact ⟨⟨d, hd, fun e he => he.unique hd⟩, hcomplete t ht⟩
  · intro d hd p hp hincomplete
    refine decode_eq_error fun t ht => ?_
    exact hincomplete ((hcomplete t ht d hd).2 p hp)
  · intro d hd hheight
    rw [← Document.isSome_table?, ← ofText?_spelled hd hheight, Option.isSome_iff_exists]
    simp only [decode_eq_ok_iff, toOption_eq_some]

def repeatedValue : Document :=
  .object [(Piece.ofString "op", .ofString "equals"), (Piece.ofString "value", .token .null),
    (Piece.ofString "value", .token .null)]

def negatedRepetition : Document :=
  .list [.list [.list [.tagged "not" "predicate" repeatedValue, .list [.ofString "null"]]]]

theorem repeatedValue_incomplete : ¬ Complete (.operand .condition, repeatedValue) := by
  intro h
  cases h with
  | operand h =>
    cases h with
    | @object _ tag f op form field =>
      obtain rfl : Document.ofString "equals" = tag := by
        simpa [Document.entries, Piece.string?_ofString] using op
      obtain rfl := Option.some.inj ((Kind.condition.form?_ofString "equals").symm.trans form)
      have hlength := field _ rfl
      simp [Document.entries, Piece.string?_ofString] at hlength

theorem repeatedValue_stands : Stands negatedRepetition (.operand .condition, repeatedValue) := by
  have hop : (Document.tagged "not" "predicate" repeatedValue).entries "op" 0 =
      [.ofString "not"] := by
    simp [Document.tagged, Document.entries, Piece.string?_ofString]
  have hpredicate : (Document.tagged "not" "predicate" repeatedValue).entries "predicate" 1 =
      [repeatedValue] := by
    simp [Document.tagged, Document.entries, Piece.string?_ofString]
  have hinner : Kind.condition.Inner (.tagged "not" "predicate" repeatedValue) repeatedValue :=
    .one (hop ▸ List.mem_singleton_self _) (Kind.condition.form?_ofString "not") rfl
      (hpredicate ▸ List.mem_singleton_self _)
  exact .tail (.tail (.tail .refl (.rule (List.mem_singleton_self _) (List.mem_singleton_self _)))
    (.condition (List.mem_singleton_self _))) (.operand hinner)

theorem negatedRepetition_spelled : negatedRepetition.SpelledBy
    ("[[[\x7b\"op\":\"not\",\"predicate\":\x7b\"op\":\"equals\",\"value\":null," ++
      "\"value\":null\x7d\x7d,[\"null\"]]]]") := by
  have hblank : Blank [] := by decide
  have hnull : (Document.token .null).Spelled _ := .token .null
  have hvalue := spelledMember_ofString "value" (by decide) hnull
  have hrepeated : repeatedValue.Spelled _ :=
    .object (.cons hblank
      (spelledMember_ofString "op" (by decide) (Document.spelled_ofString "equals" (by decide)))
      (.comma hblank hblank hvalue (.comma hblank hblank hvalue (.close hblank))))
  have hnot : (Document.tagged "not" "predicate" repeatedValue).Spelled _ :=
    .object (.cons hblank
      (spelledMember_ofString "op" (by decide) (Document.spelled_ofString "not" (by decide)))
      (.comma hblank hblank (spelledMember_ofString "predicate" (by decide) hrepeated)
        (.close hblank)))
  have haction : (Document.list [.ofString "null"]).Spelled _ :=
    .list (.cons hblank (Document.spelled_ofString "null" (by decide)) (.close hblank))
  have hrule := Document.Spelled.list (.cons hblank hnot
    (.comma hblank hblank haction (.close hblank)))
  exact .mk hblank (.list (.cons hblank (.list (.cons hblank hrule (.close hblank)))
    (.close hblank))) hblank

/-- Members of other names, and members inside a value, are repeated here without harm. The value
of a condition inside another one is not. -/
theorem repeated_value_refused :
    (∃ t, decode ("\x7b\"x\":null,\"rules\":[\x7b\"when\":\x7b\"op\":\"equals\",\"value\":\x7b" ++
      "\"a\":null,\"a\":true\x7d,\"z\":0\x7d,\"then\":[\"null\"]\x7d],\"x\":[]\x7d") = .ok t) ∧
    ∃ e, decode ("[[[\x7b\"op\":\"not\",\"predicate\":\x7b\"op\":\"equals\",\"value\":null," ++
      "\"value\":null\x7d\x7d,[\"null\"]]]]") = .error (.undecodable e) := by
  obtain ⟨-, hrefused, -⟩ := decode_loses_nothing
    ("[[[\x7b\"op\":\"not\",\"predicate\":\x7b\"op\":\"equals\",\"value\":null," ++
      "\"value\":null\x7d\x7d,[\"null\"]]]]")
  refine ⟨?_, ?_⟩
  · rw [exists_ok_iff]
    decide +kernel
  · exact hrefused _ negatedRepetition_spelled _ repeatedValue_stands repeatedValue_incomplete

end Table

end FirstMatch
