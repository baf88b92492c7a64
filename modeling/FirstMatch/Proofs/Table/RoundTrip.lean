import FirstMatch.Proofs.Json.RoundTrip
import FirstMatch.Proofs.Table.Decode
import FirstMatch.Table.Reader

/-!
Reading a table back from its text: it comes back with each float as its numeral is read, if all
of them can be read.
-/

namespace FirstMatch

open Reader

namespace TableReader

variable {α : Type}

/-! Conditions and actions -/

/-- The operation, or a member that waits until the operation is known. -/
def operationStep (v : Vocabulary α) (found : Partial α) (m : String × Json) :
    Except (ReadError Refusal) (Partial α) :=
  if m.1 = "op" then
    match found.1, v.operation m.2 with
    | some _, _ => refuse (.duplicateField "op")
    | none, .ok op => .ok (some op, found.2)
    | none, .error reason => refuse reason
  else (rereadMember found.2 m).map (found.1, ·)

theorem operationMember_op (v : Vocabulary α) (depth : Nat) (found : Partial α) (name : String) :
    Reads (operationMember v depth found "op") (':' :: (Json.string name).chars)
      (operationStep v found ("op", .string name)) := by
  intro rest _
  obtain ⟨op, others⟩ := found
  have hc : (colon (':' :: ((Json.string name).chars ++ rest)) : Except (ReadError Refusal) _) =
      .ok ((), (Json.string name).chars ++ rest) := rfl
  have ho : operation v ((Json.string name).chars ++ rest) = accept (v.named name) rest := by
    simp only [Json.chars, Json.quote, List.cons_append, List.append_assoc, List.nil_append,
      operation, skipBlanks_cons _ (c := '"') (by decide), string_text, bind, Except.bind]
  simp only [List.cons_append, operationMember, if_true]
  cases op with
  | some op => rfl
  | none =>
    simp only [hc, ho, bind, Except.bind, operationStep, if_true, Vocabulary.operation]
    cases v.named name <;> rfl

theorem operationMember_other (v : Vocabulary α) (depth : Nat) (found : Partial α)
    {m : String × Json} (hm : m.1 ≠ "op") (hw : m.2.NumbersFit) (hh : m.2.height ≤ depth) :
    Reads (operationMember v depth found m.1) (':' :: m.2.chars) (operationStep v found m) := by
  intro rest hr
  have hvalue : Reads (value .strict depth : TableReader Json) m.2.chars _ :=
    value_text depth hw hh
  have hv := member_text hvalue found.2 m.1 rest hr
  simp only [operationMember, hm, if_false, hv, operationStep, bind, Except.bind]
  cases (rereadMember found.2 m : Except (ReadError Refusal) _) <;> rfl

theorem foldlM_operationStep (v : Vocabulary α) (op : Option (Operation α))
    {fields : List (String × Json)} (hf : ∀ m ∈ fields, m.1 ≠ "op")
    (before : List (String × Json)) :
    fields.foldlM (operationStep v) (op, before) =
      (fields.foldlM rereadMember before).map (op, ·) := by
  induction fields generalizing before with
  | nil => rfl
  | cons m fields ih =>
    have hm : m.1 ≠ "op" := hf m List.mem_cons_self
    have hrest := ih fun n hn => hf n (List.mem_cons_of_mem m hn)
    simp only [List.foldlM_cons, operationStep, hm, if_false]
    cases (rereadMember before m : Except (ReadError Refusal) _) with
    | error e => rfl
    | ok next => exact hrest next

theorem operand_text (v : Vocabulary α) {j : Json}
    (hj : ∃ name op fields, j = .object (("op", .string name) :: fields) ∧
      v.named name = .ok op ∧ ∀ m ∈ fields, m.1 ≠ "op")
    {depth : Nat} (hw : j.NumbersFit) (hh : j.height ≤ depth) {a : α}
    (ha : v.decode (j.mapFloats Double.reread) = .ok a) :
    Reads (operand v depth) j.chars (ifReadable j.floats a) := by
  intro rest _
  obtain ⟨name, op, fields, rfl, hn, hf⟩ := hj
  simp only [Json.height, Json.heightMembers] at hh
  obtain ⟨depth, rfl⟩ : ∃ d, depth = d + 1 := ⟨depth - 1, by omega⟩
  have hdepth : Json.heightMembers fields ≤ depth := by omega
  have hmapped : ∀ m ∈ Json.mapFloatsMembers Double.reread fields, m.1 ≠ "op" := by
    intro m hm
    obtain ⟨n, hn, hname⟩ := Json.mem_of_mem_mapFloats hm
    rw [← hname]
    exact hf n hn
  have hfields : op.ofMembers (Json.mapFloatsMembers Double.reread fields) = .ok a :=
    (v.decode_tagged hn hmapped).symm.trans ha
  have hstep : ∀ m ∈ ("op", Json.string name) :: fields, ∀ found,
      Reads (operationMember v depth found m.1) (':' :: m.2.chars) (operationStep v found m) := by
    intro m hm found
    rcases List.mem_cons.mp hm with rfl | hm
    · exact operationMember_op v depth found name
    · apply operationMember_other v depth found (hf m hm)
      · exact Json.numbersFit_of_mem_members hw.2 hm
      · exact Nat.le_trans (Json.height_le_of_mem_members hm) hdepth
  have ht := members_text .strict (operationStep v) hstep (none, []) rest
  have hop : operationStep v (none, []) ("op", .string name) = .ok (some op, []) := by
    simp only [operationStep, if_true, Vocabulary.operation, hn]
  rw [List.foldlM_cons, hop] at ht
  simp only [bind, Except.bind, foldlM_operationStep v _ hf, foldlM_rereadMember] at ht
  simp only [Json.chars, List.cons_append, List.append_assoc, List.nil_append, operand,
    skipBlanks_brace, ht, map_ifReadable, List.append_nil, Json.floats, Json.floatsMembers]
  unfold ifReadable
  split
  · simp only [bind, Except.bind, List.reverse_reverse, hfields]
    rfl
  · rfl

end TableReader

namespace Condition

theorem toJson_tagged (inner : Json → Except Refusal Condition) (c : Condition) :
    ∃ name op fields, c.toJson = .object (("op", .string name) :: fields) ∧
      (vocabulary inner).named name = .ok op ∧ ∀ m ∈ fields, m.1 ≠ "op" := by
  cases c with
  | always => exact ⟨_, _, [], rfl, rfl, by simp⟩
  | never => exact ⟨_, _, [], rfl, rfl, by simp⟩
  | isNull => exact ⟨_, _, [], rfl, rfl, by simp⟩
  | isNumber => exact ⟨_, _, [], rfl, rfl, by simp⟩
  | isString => exact ⟨_, _, [], rfl, rfl, by simp⟩
  | equals v => exact ⟨_, _, [("value", v)], rfl, rfl, by simp⟩
  | lessThan x => exact ⟨_, _, [("value", .ofDouble x)], rfl, rfl, by simp⟩
  | greaterThan x => exact ⟨_, _, [("value", .ofDouble x)], rfl, rfl, by simp⟩
  | not c => exact ⟨_, _, [("predicate", c.toJson)], by rw [toJson], rfl, by simp⟩
  | all cs => exact ⟨_, _, [("predicates", .list (toJsonList cs))], by rw [toJson], rfl, by simp⟩
  | any cs => exact ⟨_, _, [("predicates", .list (toJsonList cs))], by rw [toJson], rfl, by simp⟩

mutual

theorem numbersFit_toJson : ∀ {c : Condition}, c.WellFormed → c.toJson.NumbersFit
  | .always, _ | .never, _ | .isNull, _ | .isNumber, _ | .isString, _ => ⟨trivial, trivial⟩
  | .equals v, h => ⟨trivial, Json.WellFormed.numbersFit h, trivial⟩
  | .lessThan x, h | .greaterThan x, h => by
    rw [toJson, Json.ofDouble_eq h]
    exact ⟨trivial, h, trivial⟩
  | .not c, h => ⟨trivial, numbersFit_toJson h, trivial⟩
  | .all cs, h | .any cs, h => ⟨trivial, numbersFit_toJsonList h, trivial⟩

theorem numbersFit_toJsonList :
    ∀ {cs : List Condition}, WellFormedList cs → Json.NumbersFitItems (toJsonList cs)
  | [], _ => trivial
  | _ :: _, h => ⟨numbersFit_toJson h.1, numbersFit_toJsonList h.2⟩

end

theorem reads_text {c : Condition} {depth : Nat} (hw : c.WellFormed)
    (hh : c.toJson.height ≤ depth) :
    Reads (TableReader.condition depth) c.toJson.chars
      (ifReadable c.floats (c.mapFloats Double.reread)) := by
  have hdecode := ofJson_toJson (g := Double.reread) c (h := depth + 1) hw (by omega)
  rw [← floats_toJson c hw]
  exact TableReader.operand_text _ (toJson_tagged _ c) (numbersFit_toJson hw) hh hdecode

end Condition

namespace Action

theorem toJson_tagged (inner : Json → Except Refusal Action) (a : Action) :
    ∃ name op fields, a.toJson = .object (("op", .string name) :: fields) ∧
      (vocabulary inner).named name = .ok op ∧ ∀ m ∈ fields, m.1 ≠ "op" := by
  cases a with
  | identity => exact ⟨_, _, [], rfl, rfl, by simp⟩
  | null => exact ⟨_, _, [], rfl, rfl, by simp⟩
  | constant v => exact ⟨_, _, [("value", v)], rfl, rfl, by simp⟩
  | negate => exact ⟨_, _, [], rfl, rfl, by simp⟩
  | scale x => exact ⟨_, _, [("factor", .ofDouble x)], rfl, rfl, by simp⟩
  | offset x => exact ⟨_, _, [("by", .ofDouble x)], rfl, rfl, by simp⟩
  | stringify => exact ⟨_, _, [], rfl, rfl, by simp⟩
  | chain steps => exact ⟨_, _, [("steps", .list (toJsonList steps))], by rw [toJson], rfl, by simp⟩

mutual

theorem numbersFit_toJson : ∀ {a : Action}, a.WellFormed → a.toJson.NumbersFit
  | .identity, _ | .null, _ | .negate, _ | .stringify, _ => ⟨trivial, trivial⟩
  | .constant v, h => ⟨trivial, Json.WellFormed.numbersFit h, trivial⟩
  | .scale x, h | .offset x, h => by
    rw [toJson, Json.ofDouble_eq h]
    exact ⟨trivial, h, trivial⟩
  | .chain steps, h => ⟨trivial, numbersFit_toJsonList h, trivial⟩

theorem numbersFit_toJsonList :
    ∀ {as : List Action}, WellFormedList as → Json.NumbersFitItems (toJsonList as)
  | [], _ => trivial
  | _ :: _, h => ⟨numbersFit_toJson h.1, numbersFit_toJsonList h.2⟩

end

theorem reads_text {a : Action} {depth : Nat} (hw : a.WellFormed) (hh : a.toJson.height ≤ depth) :
    Reads (TableReader.action depth) a.toJson.chars
      (ifReadable a.floats (a.mapFloats Double.reread)) := by
  have hdecode := ofJson_toJson (g := Double.reread) a (h := depth + 1) hw (by omega)
  rw [← floats_toJson a hw]
  exact TableReader.operand_text _ (toJson_tagged _ a) (numbersFit_toJson hw) hh hdecode

end Action

namespace Rule

def readStep (r : Rule) (found : Option Condition × Option Action) (m : String × Json) :
    Except (ReadError Refusal) (Option Condition × Option Action) :=
  if m.1 = "when" then
    if found.1.isSome then refuse (.duplicateField "when")
    else ifReadable r.condition.floats (some (r.condition.mapFloats Double.reread), found.2)
  else
    if found.2.isSome then refuse (.duplicateField "then")
    else ifReadable r.action.floats (found.1, some (r.action.mapFloats Double.reread))

theorem readStep_text {r : Rule} {depth : Nat} (hw : r.WellFormed)
    (hc : r.condition.toJson.height ≤ depth) (ha : r.action.toJson.height ≤ depth)
    {m : String × Json} (hm : m ∈ [("when", r.condition.toJson), ("then", r.action.toJson)])
    (found : Option Condition × Option Action) :
    Reads (TableReader.ruleMember depth found m.1) (':' :: m.2.chars) (r.readStep found m) := by
  intro rest hr
  have hcondition := reads_colon (Condition.reads_text hw.1 hc) (fun c => (some c, found.2)) rest hr
  have haction := reads_colon (Action.reads_text hw.2 ha) (fun a => (found.1, some a)) rest hr
  simp only [List.mem_cons, List.not_mem_nil, or_false] at hm
  rcases hm with rfl | rfl
  · simp only [TableReader.ruleMember, readStep, if_true]
    by_cases hf : found.1.isSome
    · simp only [hf, if_true]
      rfl
    · simp only [hf]
      exact hcondition
  · have hname : ¬ "then" = "when" := by decide
    simp only [TableReader.ruleMember, readStep, hname, if_true, if_false]
    by_cases hf : found.2.isSome
    · simp only [hf, if_true]
      rfl
    · simp only [hf]
      exact haction

theorem foldlM_readStep (r : Rule) (v w : Json) :
    [("when", v), ("then", w)].foldlM r.readStep (none, none) =
      ifReadable r.floats
        (some (r.condition.mapFloats Double.reread), some (r.action.mapFloats Double.reread)) := by
  have hname : ¬ "then" = "when" := by decide
  simp only [List.foldlM_cons, List.foldlM_nil, readStep, if_true, hname, if_false, bind_pure]
  exact ifReadable_bind rfl

theorem reads_text {r : Rule} {depth : Nat} (hw : r.WellFormed) (hh : r.toJson.height ≤ depth) :
    Reads (TableReader.rule depth) r.toJson.chars
      (ifReadable r.floats (r.mapFloats Double.reread)) := by
  intro rest _
  simp only [toJson, Json.height, Json.heightMembers] at hh
  obtain ⟨depth, rfl⟩ : ∃ d, depth = d + 1 := ⟨depth - 1, by omega⟩
  have hc : r.condition.toJson.height ≤ depth := by omega
  have ha : r.action.toJson.height ≤ depth := by omega
  have ht := members_text .strict r.readStep (fun m hm found => readStep_text hw hc ha hm found)
    (none, none) rest
  simp only [toJson, Json.chars, List.cons_append, List.append_assoc, List.nil_append,
    TableReader.rule, skipBlanks_brace, ht, foldlM_readStep]
  unfold ifReadable
  split <;> rfl

end Rule

namespace Table

theorem rules_text {rules : List Rule} {depth : Nat} (hw : ∀ r ∈ rules, r.WellFormed)
    (hh : (Json.list (rules.map Rule.toJson)).height ≤ depth) :
    Reads (TableReader.rules depth) (Json.list (rules.map Rule.toJson)).chars
      (ifReadable (rules.flatMap Rule.floats) (rules.map (Rule.mapFloats Double.reread))) := by
  intro rest _
  rw [Json.height] at hh
  obtain ⟨depth, rfl⟩ : ∃ d, depth = d + 1 := ⟨depth - 1, by omega⟩
  have hopens : ∀ r ∈ rules, Opens r.toJson.chars := fun r _ => ⟨'{', _, rfl, by decide⟩
  have hrule : ∀ r ∈ rules, Reads (TableReader.rule depth) r.toJson.chars
      (ifReadable r.floats (r.mapFloats Double.reread)) := by
    intro r hr
    have hle := Json.height_le_of_mem_items (List.mem_map_of_mem (f := Rule.toJson) hr)
    exact Rule.reads_text (hw r hr) (by omega)
  have ht := items_text .strict hopens hrule rest
  rw [mapM_ifReadable] at ht
  simp only [Json.chars, List.cons_append, List.append_assoc, List.nil_append, TableReader.rules,
    skipBlanks_bracket, ht]

theorem fallback_text {a : Action} {depth : Nat} (hw : a.WellFormed)
    (hh : a.toJson.height ≤ depth) :
    Reads (TableReader.fallback depth) a.toJson.chars
      (ifReadable a.floats (some (a.mapFloats Double.reread))) := by
  intro rest hr
  have ht := Action.reads_text hw hh rest hr
  obtain ⟨name, op, fields, hj, _⟩ := Action.toJson_tagged (Action.ofJson depth) a
  obtain ⟨tail, htail⟩ : ∃ tail, a.toJson.chars ++ rest = '{' :: tail := by
    rw [hj]
    exact ⟨_, rfl⟩
  rw [htail] at ht ⊢
  rw [TableReader.fallback, skipBlanks_brace]
  split
  · rename_i h
    exact absurd (List.cons.inj h).1 (by decide)
  · simp only [ht, bind, Except.bind, ifReadable]
    by_cases ha : Readable a.floats
    · simp only [ha, if_true]
      rfl
    · simp only [ha, if_false]
      rfl

def readStep (t : Table) (found : Option (List Rule) × Option (Option Action))
    (m : String × Json) :
    Except (ReadError Refusal) (Option (List Rule) × Option (Option Action)) :=
  if m.1 = "rules" then
    if found.1.isSome then refuse (.duplicateField "rules")
    else ifReadable (t.rules.flatMap Rule.floats)
      (some (t.rules.map (Rule.mapFloats Double.reread)), found.2)
  else
    if found.2.isSome then refuse (.duplicateField "default")
    else ifReadable ((t.fallback.map Action.floats).getD [])
      (found.1, some (t.fallback.map (Action.mapFloats Double.reread)))

theorem readStep_rules {t : Table} {depth : Nat} (hw : t.WellFormed)
    (hh : (Json.list (t.rules.map Rule.toJson)).height ≤ depth)
    (found : Option (List Rule) × Option (Option Action)) :
    Reads (TableReader.tableMember depth found "rules")
      (':' :: (Json.list (t.rules.map Rule.toJson)).chars)
      (t.readStep found ("rules", .list (t.rules.map Rule.toJson))) := by
  intro rest hr
  have hrules := reads_colon (rules_text hw.1 hh) (fun rs => (some rs, found.2)) rest hr
  simp only [TableReader.tableMember, readStep, if_true]
  by_cases hf : found.1.isSome
  · simp only [hf, if_true]
    rfl
  · simp only [hf]
    exact hrules

theorem readStep_fallback {t : Table} {depth : Nat} {a : Action} (hw : t.WellFormed)
    (ha : t.fallback = some a) (hh : a.toJson.height ≤ depth)
    (found : Option (List Rule) × Option (Option Action)) :
    Reads (TableReader.tableMember depth found "default") (':' :: a.toJson.chars)
      (t.readStep found ("default", a.toJson)) := by
  intro rest hr
  have hfallback := reads_colon (fallback_text (hw.2 a ha) hh) (fun b => (found.1, some b)) rest hr
  have hname : ¬ "default" = "rules" := by decide
  simp only [TableReader.tableMember, readStep, hname, if_true, if_false, ha, Option.map_some,
    Option.getD_some]
  by_cases hf : found.2.isSome
  · simp only [hf, if_true]
    rfl
  · simp only [hf]
    exact hfallback

theorem table_object {depth : Nat} (members : List (String × Json))
    (step : Option (List Rule) × Option (Option Action) → String × Json →
      Except (ReadError Refusal) (Option (List Rule) × Option (Option Action)))
    (hstep : ∀ m ∈ members, ∀ found,
      Reads (TableReader.tableMember depth found m.1) (':' :: m.2.chars) (step found m)) :
    Reads (TableReader.table (depth + 1)) (Json.object members).chars
      ((members.foldlM step (none, none)).map fun found =>
        ⟨found.1.getD [], found.2.getD none⟩) := by
  intro rest _
  have ht := members_text .strict step hstep (none, none) rest
  simp only [Json.chars, List.cons_append, List.append_assoc, List.nil_append, TableReader.table,
    skipBlanks_brace, ht]
  cases members.foldlM step (none, none) <;> rfl

theorem foldlM_rules (rules : List Rule) (v : Json) :
    [("rules", v)].foldlM (readStep ⟨rules, none⟩) (none, none) =
      ifReadable (rules.flatMap Rule.floats)
        (some (rules.map (Rule.mapFloats Double.reread)), none) := by
  simp only [List.foldlM_cons, List.foldlM_nil, readStep, if_true, Option.isSome_none,
    Bool.false_eq_true, if_false, bind_pure]

theorem foldlM_rules_fallback (rules : List Rule) (a : Action) (v w : Json) :
    [("rules", v), ("default", w)].foldlM (readStep ⟨rules, some a⟩) (none, none) =
      ifReadable (rules.flatMap Rule.floats ++ a.floats)
        (some (rules.map (Rule.mapFloats Double.reread)),
          some (some (a.mapFloats Double.reread))) := by
  have hname : ¬ "default" = "rules" := by decide
  simp only [List.foldlM_cons, List.foldlM_nil, readStep, if_true, hname, if_false, bind_pure]
  exact ifReadable_bind rfl

theorem reads_text {t : Table} {depth : Nat} (hw : t.WellFormed) (hh : t.toJson.height ≤ depth) :
    Reads (TableReader.table depth) t.toJson.chars
      (ifReadable t.floats (t.mapFloats Double.reread)) := by
  obtain ⟨rules, fallback⟩ := t
  obtain ⟨depth, rfl⟩ : ∃ d, depth = d + 1 := ⟨depth - 1, by
    simp only [toJson, Json.height] at hh
    omega⟩
  have hrules : (Json.list (rules.map Rule.toJson)).height ≤ depth := by
    simp only [toJson, Json.height, Json.heightMembers] at hh ⊢
    omega
  cases fallback with
  | none =>
    have hstep : ∀ m ∈ [("rules", Json.list (rules.map Rule.toJson))], ∀ found,
        Reads (TableReader.tableMember depth found m.1) (':' :: m.2.chars)
          (readStep ⟨rules, none⟩ found m) := by
      intro m hm found
      rw [List.mem_singleton.mp hm]
      exact readStep_rules hw hrules found
    have ht := table_object _ _ hstep
    rw [foldlM_rules, map_ifReadable] at ht
    simp only [floats, Option.map_none, Option.getD_none, List.append_nil]
    exact ht
  | some a =>
    have ha : a.toJson.height ≤ depth := by
      simp only [toJson, Json.height, Json.heightMembers] at hh ⊢
      omega
    have hstep : ∀ m ∈ [("rules", Json.list (rules.map Rule.toJson)), ("default", a.toJson)],
        ∀ found, Reads (TableReader.tableMember depth found m.1) (':' :: m.2.chars)
          (readStep ⟨rules, some a⟩ found m) := by
      intro m hm found
      simp only [List.mem_cons, List.not_mem_nil, or_false] at hm
      rcases hm with rfl | rfl
      · exact readStep_rules hw hrules found
      · exact readStep_fallback hw rfl ha found
    have ht := table_object _ _ hstep
    rw [foldlM_rules_fallback, map_ifReadable] at ht
    exact ht

/-- Encoding and decoding: a table is read back with every float as its numeral is read, or not
at all if one of them cannot be read. -/
theorem ofText?_eq {t : Table} (hw : t.WellFormed) (hh : t.toJson.height ≤ Json.maxHeight) :
    ofText? t.text = ifReadable t.floats (t.mapFloats Double.reread) := by
  have ht : t.text.toList = t.toJson.chars := String.toList_ofList
  rw [ofText?, ht]
  exact (reads_text hw hh).all_eq

theorem ofText?_of_reread {t : Table} (hw : t.WellFormed) (hh : t.toJson.height ≤ Json.maxHeight)
    (hx : ∀ x ∈ t.floats, x.reread? = some x) : ofText? t.text = .ok t := by
  have hr : Readable t.floats := by
    intro x hmem
    rw [hx x hmem]
    rfl
  have hself : t.mapFloats Double.reread = t := by
    apply mapFloats_self
    intro x hmem
    rw [Double.reread, hx x hmem, Option.getD_some]
  rw [ofText?_eq hw hh, ifReadable, if_pos hr, hself]

/-- A table comes back from its text with every float as its numeral is read, and unchanged where
all floats are read as they are. -/
theorem text_reads_back {t : Table} (hw : t.WellFormed) (hh : t.toJson.height ≤ Json.maxHeight)
    (hr : Readable t.floats) :
    ofText? t.text = .ok (t.mapFloats Double.reread) ∧
      ((∀ x ∈ t.floats, x.reread? = some x) → ofText? t.text = .ok t) := by
  refine ⟨?_, ofText?_of_reread hw hh⟩
  rw [ofText?_eq hw hh]
  exact if_pos hr

/-- A table with parts inside parts, and with a factor that is not read as it is written. -/
def nestedParts : Table where
  rules :=
    [⟨.all [.isNumber, .not (.lessThan (.ofInt (-3)))],
      .chain [.scale (.ofNat (3 * 10 ^ 23)), .stringify]⟩]
  fallback := some (.constant (.object [("a", .list [.number (.float .zero), Number.ofInt 7]),
    ("b", .string "\n")]))

theorem nestedParts_wellFormed : nestedParts.WellFormed := by
  have hbound : (Double.ofInt (-3)).isFinite = true := by decide +kernel
  have hfactor : (Double.ofNat (3 * 10 ^ 23)).isFinite = true := by decide +kernel
  have hnumber : (Number.integer 7).WellFormed := by decide
  constructor
  · intro r hr
    rw [List.mem_singleton.mp hr]
    exact ⟨⟨trivial, hbound, trivial⟩, hfactor, trivial, trivial⟩
  · intro a ha
    obtain rfl := Option.some.inj ha
    exact ⟨by decide +kernel, ⟨rfl, hnumber, trivial⟩, trivial, trivial⟩

theorem nestedParts_reads_back :
    nestedParts.WellFormed ∧ nestedParts.toJson.height ≤ Json.maxHeight ∧
    Readable nestedParts.floats ∧ nestedParts.floats.map Double.reread ≠ nestedParts.floats ∧
    ofText? nestedParts.text = .ok (nestedParts.mapFloats Double.reread) := by
  have hh : nestedParts.toJson.height ≤ Json.maxHeight := by decide +kernel
  have hr : Readable nestedParts.floats := by decide +kernel
  refine ⟨nestedParts_wellFormed, hh, hr, by decide +kernel, ?_⟩
  exact (text_reads_back nestedParts_wellFormed hh hr).1

end Table

end FirstMatch
