import FirstMatch.Proofs.Json.Spelled
import FirstMatch.Proofs.Table.Bound
import FirstMatch.Table.Reader

/-!
What a document stands for as a table, and in it as a condition or an action. These are read from
every text of the document that is nested within the limit, the operation standing anywhere in them.
-/

namespace FirstMatch

namespace Document

mutual

theorem height_of_value? {mode : Strictness} : ∀ {d : Document} {j : Json},
    d.value? mode = some j → j.height = d.height
  | .token t, j, h => by
    have hscalar : j.height = 0 := by
      cases t with
      | null => obtain rfl := Option.some.inj h; rfl
      | bool b => obtain rfl := Option.some.inj h; rfl
      | number n => obtain ⟨k, -, rfl⟩ := Option.map_eq_some_iff.mp h; rfl
      | string ps => obtain ⟨s, -, rfl⟩ := Option.map_eq_some_iff.mp h; rfl
    exact hscalar
  | .list items, j, h => by
    obtain ⟨js, hjs, rfl⟩ := Option.map_eq_some_iff.mp h
    exact congrArg (· + 1) (heightItems_of_items? hjs)
  | .object members, j, h => by
    obtain ⟨js, hjs, rfl⟩ := Option.map_eq_some_iff.mp h
    exact congrArg (· + 1) (heightMembers_of_members? hjs)

theorem heightItems_of_items? {mode : Strictness} : ∀ {items : List Document} {js : List Json},
    items? mode items = some js → Json.heightItems js = heightItems items
  | [], js, h => by
    obtain rfl := Option.some.inj h
    rfl
  | d :: ds, js, h => by
    obtain ⟨j, hj, h⟩ := Option.bind_eq_some_iff.mp h
    obtain ⟨rest, hrest, h⟩ := Option.bind_eq_some_iff.mp h
    obtain rfl := Option.some.inj h
    rw [Json.heightItems, heightItems, height_of_value? hj, heightItems_of_items? hrest]

theorem heightMembers_of_members? {mode : Strictness} :
    ∀ {members : List (List Piece × Document)} {js : List (String × Json)},
      members? mode members = some js → Json.heightMembers js = heightMembers members
  | [], js, h => by
    obtain rfl := Option.some.inj h
    rfl
  | (name, d) :: ms, js, h => by
    obtain ⟨key, -, h⟩ := Option.bind_eq_some_iff.mp h
    obtain ⟨j, hj, h⟩ := Option.bind_eq_some_iff.mp h
    obtain ⟨rest, hrest, h⟩ := Option.bind_eq_some_iff.mp h
    obtain rfl := Option.some.inj h
    rw [Json.heightMembers, heightMembers, height_of_value? hj, heightMembers_of_members? hrest]

end

/-- The document of a member that is read as this one. -/
def ReadsAs (e : String × Document) (m : String × Json) : Prop :=
  e.1 = m.1 ∧ e.2.value? .strict = some m.2

theorem values_of_list {ds : List Document} {j : Json}
    (h : (list ds).value? .strict = some j) :
    ∃ js, j = .list js ∧ List.Forall₂ (fun d j => d.value? .strict = some j) ds js := by
  obtain ⟨js, hjs, rfl⟩ := Option.map_eq_some_iff.mp h
  rw [items?_eq] at hjs
  exact ⟨js, rfl, mapM_eq_some.mp hjs⟩

theorem list_of_value? {d : Document} {js : List Json} (h : d.value? .strict = some (.list js)) :
    ∃ ds, d = .list ds ∧ List.Forall₂ (fun d j => d.value? .strict = some j) ds js := by
  cases d with
  | token t => exact absurd (height_of_value? h) (Nat.succ_ne_zero _)
  | list ds =>
    obtain ⟨js', hjs, hread⟩ := values_of_list h
    obtain rfl := Json.list.inj hjs
    exact ⟨ds, rfl, hread⟩
  | object ms =>
    obtain ⟨js', -, heq⟩ := Option.map_eq_some_iff.mp h
    cases heq

theorem named?_of_members? {ms : List (List Piece × Document)} {members : List (String × Json)}
    (h : members? .strict ms = some members) :
    ∃ entries, named? .strict ms = some entries ∧ List.Forall₂ ReadsAs entries members := by
  induction ms generalizing members with
  | nil =>
    obtain rfl := Option.some.inj h
    exact ⟨[], rfl, .nil⟩
  | cons m ms ih =>
    obtain ⟨name, d⟩ := m
    obtain ⟨key, hkey, h⟩ := Option.bind_eq_some_iff.mp h
    obtain ⟨j, hj, h⟩ := Option.bind_eq_some_iff.mp h
    obtain ⟨rest, hrest, h⟩ := Option.bind_eq_some_iff.mp h
    obtain rfl := Option.some.inj h
    obtain ⟨entries, hentries, hread⟩ := ih hrest
    refine ⟨(key, d) :: entries, ?_, .cons ⟨rfl, hj⟩ hread⟩
    rw [named?_cons, hkey, hentries]
    rfl

theorem filter_readsAs {entries : List (String × Document)} {members : List (String × Json)}
    (h : List.Forall₂ ReadsAs entries members) (name : String) :
    List.Forall₂ ReadsAs (entries.filter fun e => e.1 == name)
      (members.filter fun m => m.1 == name) := by
  refine List.rel_filter ?_ h
  intro e m he
  simp only [he.1]

/-! What documents stand for. The members of tables and rules with other names may stand for
nothing. -/

def condition? (d : Document) : Option Condition :=
  (d.value? .strict).bind Condition.grammar.direct?

def action? (d : Document) : Option Action := (d.value? .strict).bind Action.grammar.direct?

/-- What the members of two names stand for. -/
def fields? {β γ : Type} (first second : String) (f : Document → Option β)
    (g : Document → Option γ) (ms : List (List Piece × Document)) :
    Option (Option β × Option γ) :=
  (named? .strict ms).bind fun ms =>
    (field? first f ms).bind fun x => (field? second g ms).map fun y => (x, y)

def rule? : Document → Option Rule
  | .list [c, a] => do
    let c ← c.condition?
    let a ← a.action?
    return ⟨c, a⟩
  | .object ms => do
    let (c, a) ← fields? "when" "then" condition? action? ms
    let c ← c
    let a ← a
    return ⟨c, a⟩
  | _ => none

def rules? : Document → Option (List Rule)
  | .list items => items.mapM rule?
  | _ => none

def fallback? : Document → Option (Option Action)
  | .token .null => some none
  | d => d.action?.map some

theorem fallback?_eq {d : Document} (h : d ≠ .token .null) : d.fallback? = d.action?.map some := by
  rw [fallback?]
  exact h

theorem fallback?_of_action? {d : Document} {a : Action} (h : d.action? = some a) :
    d.fallback? = some (some a) := by
  have hnull : d ≠ .token .null := by
    rintro rfl
    cases h
  rw [fallback?_eq hnull, h, Option.map_some]

def table? : Document → Option Table
  | .list [] => some ⟨[], none⟩
  | .list [rs] => rs.rules?.map fun rs => ⟨rs, none⟩
  | .list [rs, a] => do
    let rs ← rs.rules?
    let a ← a.fallback?
    return ⟨rs, a⟩
  | .object ms => do
    let (rs, a) ← fields? "rules" "default" rules? fallback? ms
    return ⟨rs.getD [], a.getD none⟩
  | _ => none

end Document

namespace TableReader

open Reader

variable {α : Type} {d : Document} {text : List Char}

theorem mismatch_none (expected : Expected) (text : List Char) :
    (mismatch expected text : Except (ReadError Refusal) (α × List Char)).toOption = none := by
  unfold mismatch
  split
  · rfl
  · rfl
  · rw [toOption_bind]
    cases (scalar .strict _ : Except (ReadError Refusal) (Json × List Char)) <;> rfl

theorem accept_toOption (result : Except Refusal α) (rest : List Char) :
    (accept result rest).toOption = result.toOption.map (·, rest) := by
  cases result <;> rfl

/-- A reader that goes by the bracket at the start takes up a document if it does so behind each
bracket and accepts nothing else. -/
theorem takes_of_brackets {read : Nat → TableReader α} {f : Document → Option α}
    (hblanks : ∀ depth {blanks}, Blank blanks → ∀ text,
      read depth (blanks ++ text) = read depth text)
    (hscalar : ∀ depth text, OpensScalar text → ∀ rest,
      (read depth (text ++ rest)).toOption = none)
    (htoken : ∀ t, f (.token t) = none)
    (hmembers : ∀ {depth ms text}, SpelledBody (SpelledMember Document.Spelled) '}' ms text →
      Document.heightMembers ms ≤ depth → ∀ rest,
        (read (depth + 1) ('{' :: (text ++ rest))).toOption = (f (.object ms)).map (·, rest))
    (hitems : ∀ {depth ds text}, SpelledBody Document.Spelled ']' ds text →
      (∀ e ∈ ds, e.height ≤ depth) → ∀ rest,
        (read (depth + 1) ('[' :: (text ++ rest))).toOption = (f (.list ds)).map (·, rest))
    {depth : Nat} (h : d.Spelled text) (hh : d.height ≤ depth) :
    Takes (read depth) text (f d) := by
  intro blanks rest hb hr
  rw [hblanks depth hb]
  cases h with
  | token h =>
    rw [hscalar depth _ h.opens, htoken]
    rfl
  | object h =>
    rw [Document.height] at hh
    obtain ⟨depth, rfl⟩ : ∃ k, depth = k + 1 := ⟨depth - 1, by omega⟩
    exact hmembers h (by omega) rest
  | list h =>
    rw [Document.height] at hh
    obtain ⟨depth, rfl⟩ : ∃ k, depth = k + 1 := ⟨depth - 1, by omega⟩
    exact hitems h (fun e he => Nat.le_trans (Document.height_le_of_mem_items he) (by omega)) rest

/-! Conditions and actions -/

theorem operation_other (v : Vocabulary α) {c : Char} {tail : List Char} (hb : isBlank c = false)
    (hc : c ≠ '"') : (operation v (c :: tail)).toOption = none := by
  rw [operation, skipBlanks_cons _ hb]
  split
  · exact absurd (List.cons.inj ‹_›).1 hc
  · exact mismatch_none _ _

/-- The first character of a text tells strings and null from all else. -/
theorem first_char (h : d.Spelled text) :
    ∃ c tail, text = c :: tail ∧ isBlank c = false ∧
      (c = '"' → ∃ ps, d = .token (.string ps)) ∧ (c = 'n' → d = .token .null) := by
  have hneither : ∀ {c : Char} {p q : Prop}, c ≠ '"' ∧ c ≠ 'n' → (c = '"' → p) ∧ (c = 'n' → q) :=
    fun hc => ⟨fun h => absurd h hc.1, fun h => absurd h hc.2⟩
  cases h with
  | list h => exact ⟨'[', _, rfl, by decide, hneither (by decide)⟩
  | object h => exact ⟨'{', _, rfl, by decide, hneither (by decide)⟩
  | token h =>
    cases h with
    | null => exact ⟨'n', _, rfl, by decide, fun hc => absurd hc (by decide), fun _ => rfl⟩
    | true => exact ⟨'t', _, rfl, by decide, hneither (by decide)⟩
    | false => exact ⟨'f', _, rfl, by decide, hneither (by decide)⟩
    | string h =>
      exact ⟨'"', _, rfl, by decide, fun _ => ⟨_, rfl⟩, fun hc => absurd hc (by decide)⟩
    | number h =>
      obtain ⟨c, tail, rfl, hc⟩ := h.opens
      obtain ⟨_, _, ht, hb, -⟩ := h.opens.opensScalar
      obtain ⟨rfl, -⟩ := List.cons.inj ht
      refine ⟨c, tail, rfl, hb, ?_, ?_⟩
      · rintro rfl
        exact absurd hc (by decide)
      · rintro rfl
        exact absurd hc (by decide)

theorem value?_ne_string (hd : ∀ ps, d ≠ .token (.string ps)) (s : String) :
    d.value? .strict ≠ some (.string s) := by
  intro hs
  cases d with
  | token t =>
    cases t with
    | string ps => exact hd ps rfl
    | number n => obtain ⟨k, -, hk⟩ := Option.map_eq_some_iff.mp hs; cases hk
    | null => cases hs
    | bool b => cases hs
  | list items => obtain ⟨js, -, hjs⟩ := Option.map_eq_some_iff.mp hs; cases hjs
  | object members => obtain ⟨js, -, hjs⟩ := Option.map_eq_some_iff.mp hs; cases hjs

theorem operation_takes (v : Vocabulary α) (h : d.Spelled text) :
    Takes (operation v) text ((d.value? .strict).bind v.spoken?) := by
  intro blanks rest hb _
  have hskip : operation v (blanks ++ (text ++ rest)) = operation v (text ++ rest) := by
    simp only [operation, skipBlanks_append hb]
  rw [hskip]
  by_cases hd : ∃ ps, d = .token (.string ps)
  · obtain ⟨ps, rfl⟩ := hd
    cases h with
    | token h =>
      cases h with
      | @string _ text h =>
        have hquote : isBlank '"' = false := by decide
        simp only [List.cons_append, List.append_assoc, List.nil_append, operation,
          skipBlanks_cons _ hquote, toOption_bind, string_spelled .strict h, Document.value?,
          Token.value?]
        cases Piece.string? .strict ps with
        | none => rfl
        | some s => exact accept_toOption (v.named s) rest
  · obtain ⟨c, tail, rfl, hblank, hc, -⟩ := first_char h
    have hnone : (d.value? .strict).bind v.spoken? = none := by
      cases hj : d.value? .strict with
      | none => rfl
      | some j =>
        cases hop : v.spoken? j with
        | none => exact hop
        | some op =>
          obtain ⟨name, rfl⟩ := Vocabulary.exists_string_of_spoken? hop
          exact absurd hj (value?_ne_string (fun ps hps => hd ⟨ps, hps⟩) name)
    rw [hnone]
    exact operation_other v hblank fun hquote => hd (hc hquote)

def partialStep (v : Vocabulary α) (found : Partial α) (m : String × Json) : Option (Partial α) :=
  if m.1 = "op" then
    if found.1.isSome then none else (v.spoken? m.2).map fun op => (some op, found.2)
  else some (found.1, m :: found.2)

/-- The operation may stand anywhere among the members. -/
theorem foldlM_partialStep (v : Vocabulary α) (ms : List (String × Json)) :
    ms.foldlM (partialStep v) (none, []) =
      (field? "op" v.spoken? ms).map fun op => (op, (Vocabulary.others ms).reverse) := by
  induction ms using List.reverseRecOn with
  | nil => rfl
  | append_singleton ms m ih =>
    obtain ⟨name, j⟩ := m
    rw [List.foldlM_append, ih]
    by_cases hname : name = "op"
    · subst hname
      have hothers : Vocabulary.others (ms ++ [("op", j)]) = Vocabulary.others ms := by
        simp [Vocabulary.others]
      rw [field?_concat, hothers]
      cases field? "op" v.spoken? ms with
      | none => rfl
      | some found =>
        cases found <;> cases hj : v.spoken? j <;> simp [partialStep, hj]
    · have hothers :
          Vocabulary.others (ms ++ [(name, j)]) = Vocabulary.others ms ++ [(name, j)] := by
        simp [Vocabulary.others, hname]
      rw [field?_other hname, hothers]
      cases field? "op" v.spoken? ms <;> simp [partialStep, hname]

theorem operationMember_takes (v : Vocabulary α) {depth : Nat} (h : d.Spelled text)
    (hh : d.height ≤ depth) {after : List Char} (ha : Blank after) (found : Partial α)
    (name : String) :
    Takes (operationMember v depth found name) (':' :: (after ++ text))
      (valueStep .strict (partialStep v) found (name, d)) := by
  by_cases hname : name = "op"
  · subst hname
    obtain ⟨op, others⟩ := found
    cases op with
    | some op =>
      intro blanks rest hb hr
      have hnone : valueStep .strict (partialStep v) (some op, others) ("op", d) = none := by
        rw [valueStep]
        cases d.value? .strict <;> rfl
      rw [hnone]
      rfl
    | none =>
      have hop := (operation_takes v h).afterColon ha fun op => (some op, others)
      have hstep : valueStep .strict (partialStep v) (none, others) ("op", d) =
          ((d.value? .strict).bind v.spoken?).map fun op => (some op, others) := by
        rw [valueStep]
        cases d.value? .strict <;> rfl
      rw [hstep]
      exact hop
  · intro blanks rest hb hr
    have hvalue : Takes (value .strict depth : TableReader Json) text (d.value? .strict) :=
      value_takes .strict depth h hh
    have hmember := member_takes hvalue ha found.2 name blanks rest hb hr
    simp only [operationMember, hname, if_false, toOption_bind, hmember, valueStep, addMember]
    cases d.value? .strict with
    | none => rfl
    | some j =>
      simp only [Option.bind_some, Option.map_some, partialStep, hname, if_false]
      rfl

theorem operand_blanks (v : Vocabulary α) (depth : Nat) {blanks : List Char} (hb : Blank blanks)
    (text : List Char) : operand v depth (blanks ++ text) = operand v depth text := by
  cases depth <;> simp only [operand, skipBlanks_append hb]

theorem operand_scalar (v : Vocabulary α) (depth : Nat) (h : OpensScalar text)
    (rest : List Char) : (operand v depth (text ++ rest)).toOption = none := by
  obtain ⟨c, tail, rfl, hb, -, hl, ho⟩ := h
  rw [List.cons_append]
  unfold operand
  dsimp only
  rw [skipBlanks_cons _ hb]
  split
  · exact absurd (List.cons.inj ‹_›).1 hl
  · exact absurd (List.cons.inj ‹_›).1 ho
  · exact absurd (List.cons.inj ‹_›).1 hl
  · exact absurd (List.cons.inj ‹_›).1 ho
  · exact mismatch_none _ _

theorem operand_object (v : Vocabulary α) (depth : Nat) (text : List Char) :
    operand v (depth + 1) ('{' :: text) =
      (members .strict (operationMember v depth) (none, []) text >>= fun found =>
        found.1.1.elim (refuse (.missingField "op")) fun op =>
          accept (op.ofMembers found.1.2.reverse) found.2) := by
  simp only [operand, skipBlanks_brace]
  congr
  funext ⟨⟨op, others⟩, rest⟩
  cases op <;> rfl

theorem operand_empty (v : Vocabulary α) (depth : Nat) {text rest : List Char}
    (h : (firstItem text : Except (ReadError Refusal) _) = .ok (false, rest)) :
    (operand v (depth + 1) ('[' :: text)).toOption = none := by
  simp only [operand, skipBlanks_bracket, h]
  rfl

theorem operand_sequence (v : Vocabulary α) (depth : Nat) {text rest : List Char}
    (h : (firstItem text : Except (ReadError Refusal) _) = .ok (true, rest)) :
    operand v (depth + 1) ('[' :: text) =
      (operation v rest >>= fun op =>
        moreItems .strict (value .strict depth) op.2 op.2 >>= fun items =>
          accept (op.1.ofItems items.1) items.2) := by
  simp only [operand, skipBlanks_bracket, h]
  rfl

theorem operand_members (v : Vocabulary α) {depth : Nat} {ms : List (List Piece × Document)}
    (h : SpelledBody (SpelledMember Document.Spelled) '}' ms text)
    (hh : Document.heightMembers ms ≤ depth) (rest : List Char) :
    (operand v (depth + 1) ('{' :: (text ++ rest))).toOption =
      (((Document.object ms).value? .strict).bind (Vocabulary.decodeBy v.spoken?)).map
        (·, rest) := by
  have hread : TakesMembers (operationMember v depth) (valueStep .strict (partialStep v)) ms := by
    intro m hm t after ht ha found name
    have hle := Document.height_le_of_mem_members hm
    exact operationMember_takes v ht (by omega) ha found name
  rw [operand_object, toOption_bind, members_spelled .strict h hread (none, []) rest,
    foldlM_valueStep, Document.value?]
  cases Document.members? .strict ms with
  | none => rfl
  | some js =>
    simp only [Option.bind_some, Option.map_some, foldlM_partialStep, Vocabulary.decodeBy]
    cases field? "op" v.spoken? js with
    | none => rfl
    | some op =>
      cases op with
      | none => rfl
      | some op =>
        simp only [Option.map_some, Option.bind_some, Option.join_some, List.reverse_reverse,
          Option.elim_some, accept_toOption]

theorem operand_items (v : Vocabulary α) {depth : Nat} {ds : List Document}
    (h : SpelledBody Document.Spelled ']' ds text) (hh : ∀ d ∈ ds, d.height ≤ depth)
    (rest : List Char) :
    (operand v (depth + 1) ('[' :: (text ++ rest))).toOption =
      (((Document.list ds).value? .strict).bind (Vocabulary.decodeBy v.spoken?)).map
        (·, rest) := by
  rw [Document.value?, Document.items?_eq]
  cases h with
  | empty hb =>
    rw [List.append_assoc, List.cons_append, operand_empty v depth (firstItem_close hb _)]
    rfl
  | @cons blanks text tail d ds hb head htail =>
    -- The first item is looked up as it is read; only the others are read as values.
    have hop := (operation_takes v head).read_eq (htail.delimited (by decide) rest)
    have hread : TakesAll (value .strict depth : TableReader Json) Document.Spelled
        (Document.value? .strict) ds := fun e he t ht =>
      ⟨ht.opens, value_takes .strict depth ht (hh e (List.mem_cons_of_mem d he))⟩
    have hfuel : ds.length ≤ (tail ++ rest).length := by
      rw [List.length_append]
      exact Nat.le_trans htail.length_le (Nat.le_add_right _ _)
    have hitems := moreItems_spelled .strict htail hread hfuel rest
    simp only [List.append_assoc]
    rw [operand_sequence v depth (firstItem_blanks hb head.opens _), toOption_bind, hop,
      List.mapM_cons]
    cases d.value? .strict with
    | none => rfl
    | some j =>
      rw [Option.bind_some]
      cases hj : v.spoken? j with
      | none => cases ds.mapM (Document.value? .strict) <;> simp [Vocabulary.decodeBy, hj]
      | some op =>
        simp only [Option.map_some, Option.bind_some, toOption_bind, hitems]
        cases ds.mapM (Document.value? .strict) <;> simp [Vocabulary.decodeBy, hj, accept_toOption]

theorem operand_token (v : Vocabulary α) (t : Token) :
    ((Document.token t).value? .strict).bind (Vocabulary.decodeBy v.spoken?) = none := by
  rw [Document.value?]
  cases t with
  | null => rfl
  | bool b => rfl
  | number n =>
    rw [Token.value?]
    cases n.number? .strict <;> rfl
  | string ps =>
    rw [Token.value?]
    cases Piece.string? .strict ps <;> rfl

theorem operand_takes (v : Vocabulary α) {depth : Nat} (h : d.Spelled text)
    (hh : d.height ≤ depth) :
    Takes (operand v depth) text ((d.value? .strict).bind (Vocabulary.decodeBy v.spoken?)) :=
  takes_of_brackets (f := fun d => (d.value? .strict).bind (Vocabulary.decodeBy v.spoken?))
    (operand_blanks v) (fun depth _ h => operand_scalar v depth h) (operand_token v)
    (operand_members v) (operand_items v) h hh

theorem grammar_takes (g : Grammar α) {depth : Nat} (h : d.Spelled text) (hh : d.height ≤ depth) :
    Takes (operand (g.vocabulary (g.ofJson depth)) depth) text
      ((d.value? .strict).bind g.direct?) := by
  have hsame : (d.value? .strict).bind g.direct? =
      (d.value? .strict).bind (Vocabulary.decodeBy (g.vocabulary (g.ofJson depth)).spoken?) := by
    cases hj : d.value? .strict with
    | none => rfl
    | some j =>
      have hle : j.height ≤ depth := Document.height_of_value? hj ▸ hh
      exact (g.decodeBy_spoken?_eq hle).symm
  rw [hsame]
  exact operand_takes _ h hh

theorem condition_takes {depth : Nat} (h : d.Spelled text) (hh : d.height ≤ depth) :
    Takes (condition depth) text d.condition? :=
  grammar_takes Condition.grammar h hh

theorem action_takes {depth : Nat} (h : d.Spelled text) (hh : d.height ≤ depth) :
    Takes (action depth) text d.action? :=
  grammar_takes Action.grammar h hh

end TableReader

end FirstMatch
