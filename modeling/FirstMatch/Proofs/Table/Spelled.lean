import FirstMatch.Proofs.Table.Accepted
import FirstMatch.Proofs.Table.Document

/-!
Reading rules and tables. From every text of a document the table is read that the document stands
for, and no text of any other document is accepted.
-/

namespace FirstMatch

namespace TableReader

open Reader

variable {d : Document} {text : List Char}

theorem ReadsFields.takesMembers {β γ : Type} {first second : String}
    {read : Option β × Option γ → String → TableReader (Option β × Option γ)}
    {readFirst : TableReader β} {readSecond : TableReader γ} {f : Document → Option β}
    {g : Document → Option γ} {ms : List (List Piece × Document)}
    (h : ReadsFields first second readFirst readSecond read)
    (hf : ∀ m ∈ ms, ∀ text, m.2.Spelled text → Takes readFirst text (f m.2))
    (hg : ∀ m ∈ ms, ∀ text, m.2.Spelled text → Takes readSecond text (g m.2)) :
    TakesMembers read (fieldStep first second f g) ms := by
  intro m hm text after hspelled ha found name
  by_cases h1 : name = first
  · subst h1
    rw [h.first_eq, fieldStep, if_pos rfl]
    by_cases hfound : found.1.isSome = true
    · rw [if_pos hfound, if_pos hfound]
      intro blanks rest _ _
      rfl
    · rw [if_neg hfound, if_neg hfound]
      exact (hf m hm text hspelled).afterColon ha fun x => (some x, found.2)
  · by_cases h2 : name = second
    · subst h2
      rw [h.second_eq, fieldStep, if_neg h.distinct, if_pos rfl]
      by_cases hfound : found.2.isSome = true
      · rw [if_pos hfound, if_pos hfound]
        intro blanks rest _ _
        rfl
      · rw [if_neg hfound, if_neg hfound]
        exact (hg m hm text hspelled).afterColon ha fun y => (found.1, some y)
    · rw [h.other_eq found name h1 h2, fieldStep, if_neg h1, if_neg h2]
      exact (skip_takes hspelled).afterColon ha fun _ => found

theorem foldlM_fields {β γ : Type} {first second : String} (hne : first ≠ second)
    (f : Document → Option β) (g : Document → Option γ) (ms : List (List Piece × Document)) :
    (Document.named? .strict ms).bind (List.foldlM (fieldStep first second f g) (none, none)) =
      Document.fields? first second f g ms := by
  rw [Document.fields?]
  cases Document.named? .strict ms with
  | none => rfl
  | some ms => exact foldlM_fieldStep hne g ms

theorem ruleMember_takes {depth : Nat} {ms : List (List Piece × Document)}
    (hh : Document.heightMembers ms ≤ depth) :
    TakesMembers (ruleMember depth)
      (fieldStep "when" "then" Document.condition? Document.action?) ms := by
  have hle : ∀ m ∈ ms, m.2.height ≤ depth := fun m hm =>
    Nat.le_trans (Document.height_le_of_mem_members hm) hh
  exact (ruleMember_reads depth).takesMembers (fun m hm _ h => condition_takes h (hle m hm))
    fun m hm _ h => action_takes h (hle m hm)

theorem closeSequence_close {blanks : List Char} (hb : Blank blanks) (rest : List Char) :
    closeSequence (blanks ++ ']' :: rest) = .ok ((), rest) := by
  rw [closeSequence, skipBlanks_append hb]
  rfl

theorem closeSequence_comma {blanks : List Char} (hb : Blank blanks) (rest : List Char) :
    (closeSequence (blanks ++ ',' :: rest)).toOption = none := by
  have hcomma : isBlank ',' = false := by decide
  simp only [closeSequence, skipBlanks_append hb, skipBlanks_cons _ hcomma]
  split <;> rfl

/-- The last element of a sequence of fixed length. -/
theorem last_takes {β γ : Type} {read : TableReader β} {found : Option β} {ds : List Document}
    {tail : List Char} (h : Takes read text found)
    (htail : SpelledRest Document.Spelled ']' ds tail) (make : β → γ) (rest : List Char) :
    (read (text ++ (tail ++ rest)) >>= fun x => closeSequence x.2 >>= fun last =>
        (pure (make x.1, last.2) : Except (ReadError Refusal) _)).toOption =
      if ds = [] then found.map fun x => (make x, rest) else none := by
  rw [toOption_bind, h.read_eq (htail.delimited (by decide) rest)]
  cases found with
  | none => simp
  | some x =>
    cases htail with
    | close hb =>
      simp only [Option.map_some, Option.bind_some, List.append_assoc, List.cons_append,
        closeSequence_close hb]
      rfl
    | comma hb =>
      simp only [Option.map_some, Option.bind_some, List.append_assoc, List.cons_append,
        toOption_bind, closeSequence_comma hb]
      rfl

theorem rule_object (depth : Nat) (text : List Char) :
    rule (depth + 1) ('{' :: text) =
      (members .strict (ruleMember depth) (none, none) text >>= fun found =>
        found.1.1.elim (refuse (.missingField "when")) fun c =>
          found.1.2.elim (refuse (.missingField "then")) fun a =>
            pure (⟨c, a⟩, found.2)) := by
  simp only [rule, skipBlanks_brace]
  congr
  funext found
  obtain ⟨⟨c, a⟩, rest⟩ := found
  cases c <;> cases a <;> rfl

theorem rule_empty (depth : Nat) {text rest : List Char}
    (h : (firstItem text : Except (ReadError Refusal) _) = .ok (false, rest)) :
    (rule (depth + 1) ('[' :: text)).toOption = none := by
  simp only [rule, skipBlanks_bracket, h]
  rfl

theorem rule_sequence (depth : Nat) {text rest : List Char}
    (h : (firstItem text : Except (ReadError Refusal) _) = .ok (true, rest)) :
    rule (depth + 1) ('[' :: text) =
      (condition depth rest >>= fun c => nextItem .strict c.2 >>= fun more =>
        if !more.1 then refuse (.wrongLength 1 .rule)
        else action depth more.2 >>= fun a => closeSequence a.2 >>= fun last =>
          pure (⟨c.1, a.1⟩, last.2)) := by
  simp only [rule, skipBlanks_bracket, h]
  rfl

theorem rule_scalar (depth : Nat) (h : OpensScalar text) (rest : List Char) :
    (rule depth (text ++ rest)).toOption = none := by
  obtain ⟨c, tail, rfl, hb, -, hl, ho⟩ := h
  rw [List.cons_append]
  unfold rule
  dsimp only
  rw [skipBlanks_cons _ hb]
  split
  · exact absurd (List.cons.inj ‹_›).1 hl
  · exact absurd (List.cons.inj ‹_›).1 ho
  · exact absurd (List.cons.inj ‹_›).1 hl
  · exact absurd (List.cons.inj ‹_›).1 ho
  · exact mismatch_none _ _

theorem rule_members {depth : Nat} {ms : List (List Piece × Document)}
    (h : SpelledBody (SpelledMember Document.Spelled) '}' ms text)
    (hh : Document.heightMembers ms ≤ depth) (rest : List Char) :
    (rule (depth + 1) ('{' :: (text ++ rest))).toOption =
      (Document.object ms).rule?.map (·, rest) := by
  rw [rule_object, toOption_bind, members_spelled .strict h (ruleMember_takes hh) (none, none) rest,
    foldlM_fields (by decide), Document.rule?]
  cases Document.fields? "when" "then" Document.condition? Document.action? ms with
  | none => rfl
  | some found =>
    obtain ⟨c, a⟩ := found
    cases c <;> cases a <;> rfl

theorem rule_items {depth : Nat} {ds : List Document} (h : SpelledBody Document.Spelled ']' ds text)
    (hh : ∀ d ∈ ds, d.height ≤ depth) (rest : List Char) :
    (rule (depth + 1) ('[' :: (text ++ rest))).toOption =
      (Document.list ds).rule?.map (·, rest) := by
  cases h with
  | empty hb =>
    rw [List.append_assoc, List.cons_append, rule_empty depth (firstItem_close hb _)]
    rfl
  | @cons blanks text tail c ds hb head htail =>
    have hc := (condition_takes head (hh c List.mem_cons_self)).read_eq
      (htail.delimited (by decide) rest)
    simp only [List.append_assoc]
    rw [rule_sequence depth (firstItem_blanks hb head.opens _), toOption_bind, hc]
    cases htail with
    | close hb =>
      cases c.condition? with
      | none => rfl
      | some c =>
        simp only [Option.map_some, Option.bind_some, List.append_assoc, List.cons_append,
          nextItem_close .strict hb]
        rfl
    | @comma before after text tail a ds hb ha head htail =>
      have haction := action_takes head (hh a (List.mem_cons_of_mem c List.mem_cons_self))
      cases hcond : c.condition? with
      | none => cases ds <;> simp [Document.rule?, hcond]
      | some x =>
        simp only [Option.map_some, Option.bind_some, List.append_assoc, List.cons_append,
          nextItem_comma .strict hb ha head.opens, ok_bind, Bool.not_true, Bool.false_eq_true,
          if_false, last_takes haction htail]
        cases ds with
        | nil => cases hact : a.action? <;> simp [Document.rule?, hcond, hact]
        | cons => rfl

theorem rule_blanks (depth : Nat) {blanks : List Char} (hb : Blank blanks) (text : List Char) :
    rule depth (blanks ++ text) = rule depth text := by
  cases depth <;> simp only [rule, skipBlanks_append hb]

theorem rule_takes {depth : Nat} (h : d.Spelled text) (hh : d.height ≤ depth) :
    Takes (rule depth) text d.rule? :=
  takes_of_brackets rule_blanks (fun depth _ h => rule_scalar depth h) (fun _ => rfl)
    rule_members rule_items h hh

theorem rules_sequence (depth : Nat) (text : List Char) :
    rules (depth + 1) ('[' :: text) = items .strict (rule depth) text := by
  simp only [rules, skipBlanks_bracket]

/-- Where no list starts, there are no rules. -/
theorem rules_other (depth : Nat) {c : Char} {tail : List Char} (hb : isBlank c = false)
    (hc : c ≠ '[') : (rules depth (c :: tail)).toOption = none := by
  unfold rules
  rw [skipBlanks_cons _ hb]
  split
  · exact absurd (List.cons.inj ‹_›).1 hc
  · exact absurd (List.cons.inj ‹_›).1 hc
  · exact mismatch_none _ _

theorem rules_blanks (depth : Nat) {blanks : List Char} (hb : Blank blanks) (text : List Char) :
    rules depth (blanks ++ text) = rules depth text := by
  cases depth <;> simp only [rules, skipBlanks_append hb]

theorem rules_scalar (depth : Nat) (h : OpensScalar text) (rest : List Char) :
    (rules depth (text ++ rest)).toOption = none := by
  obtain ⟨c, tail, rfl, hb, -, hl, -⟩ := h
  exact rules_other depth hb hl

theorem rules_items {depth : Nat} {ds : List Document}
    (h : SpelledBody Document.Spelled ']' ds text) (hh : ∀ d ∈ ds, d.height ≤ depth)
    (rest : List Char) :
    (rules (depth + 1) ('[' :: (text ++ rest))).toOption =
      (Document.list ds).rules?.map (·, rest) := by
  have hread : TakesAll (rule depth) Document.Spelled Document.rule? ds := fun e he t ht =>
    ⟨ht.opens, rule_takes ht (hh e he)⟩
  rw [rules_sequence, items_spelled .strict h hread]
  rfl

theorem rules_takes {depth : Nat} (h : d.Spelled text) (hh : d.height ≤ depth) :
    Takes (rules depth) text d.rules? :=
  takes_of_brackets rules_blanks (fun depth _ h => rules_scalar depth h) (fun _ => rfl)
    (fun _ _ _ => rules_other _ (by decide) (by decide)) rules_items h hh

theorem fallback_takes {depth : Nat} (h : d.Spelled text) (hh : d.height ≤ depth) :
    Takes (fallback depth) text d.fallback? := by
  intro blanks rest hb hr
  have hskip : fallback depth (blanks ++ (text ++ rest)) = fallback depth (text ++ rest) := by
    simp only [fallback, skipBlanks_append hb]
  rw [hskip]
  obtain ⟨c, tail, rfl, hblank, -, hnull⟩ := first_char h
  by_cases hc : c = 'n'
  · subst hc
    obtain rfl := hnull rfl
    cases h with
    | token h =>
      cases h with
      | null => rfl
  · have haction := (action_takes h hh).read_eq hr
    have hstep : fallback depth (c :: tail ++ rest) =
        (action depth (c :: tail ++ rest) >>= fun a => pure (some a.1, a.2)) := by
      rw [List.cons_append, fallback, skipBlanks_cons _ hblank]
      split
      · exact absurd (List.cons.inj ‹_›).1 hc
      · rfl
    have hother : d ≠ .token .null := by
      rintro rfl
      cases h with
      | token h =>
        cases h
        exact hc rfl
    rw [hstep, toOption_bind, haction, Document.fallback?_eq hother]
    cases d.action? <;> rfl

theorem tableMember_takes {depth : Nat} {ms : List (List Piece × Document)}
    (hh : Document.heightMembers ms ≤ depth) :
    TakesMembers (tableMember depth)
      (fieldStep "rules" "default" Document.rules? Document.fallback?) ms := by
  have hle : ∀ m ∈ ms, m.2.height ≤ depth := fun m hm =>
    Nat.le_trans (Document.height_le_of_mem_members hm) hh
  exact (tableMember_reads depth).takesMembers (fun m hm _ h => rules_takes h (hle m hm))
    fun m hm _ h => fallback_takes h (hle m hm)

theorem table_object (depth : Nat) (text : List Char) :
    table (depth + 1) ('{' :: text) =
      (members .strict (tableMember depth) (none, none) text >>= fun found =>
        pure (⟨found.1.1.getD [], found.1.2.getD none⟩, found.2)) := by
  simp only [table, skipBlanks_brace]

theorem table_empty (depth : Nat) {text rest : List Char}
    (h : (firstItem text : Except (ReadError Refusal) _) = .ok (false, rest)) :
    table (depth + 1) ('[' :: text) = .ok (⟨[], none⟩, rest) := by
  simp only [table, skipBlanks_bracket, h]
  rfl

theorem table_sequence (depth : Nat) {text rest : List Char}
    (h : (firstItem text : Except (ReadError Refusal) _) = .ok (true, rest)) :
    table (depth + 1) ('[' :: text) =
      (rules depth rest >>= fun rs => nextItem .strict rs.2 >>= fun more =>
        if !more.1 then pure (⟨rs.1, none⟩, more.2)
        else fallback depth more.2 >>= fun a => closeSequence a.2 >>= fun last =>
          pure (⟨rs.1, a.1⟩, last.2)) := by
  simp only [table, skipBlanks_bracket, h]
  rfl

theorem table_scalar (depth : Nat) (h : OpensScalar text) (rest : List Char) :
    (table depth (text ++ rest)).toOption = none := by
  obtain ⟨c, tail, rfl, hb, -, hl, ho⟩ := h
  rw [List.cons_append]
  unfold table
  dsimp only
  rw [skipBlanks_cons _ hb]
  split
  · exact absurd (List.cons.inj ‹_›).1 hl
  · exact absurd (List.cons.inj ‹_›).1 ho
  · exact absurd (List.cons.inj ‹_›).1 hl
  · exact absurd (List.cons.inj ‹_›).1 ho
  · exact mismatch_none _ _

theorem table_members {depth : Nat} {ms : List (List Piece × Document)}
    (h : SpelledBody (SpelledMember Document.Spelled) '}' ms text)
    (hh : Document.heightMembers ms ≤ depth) (rest : List Char) :
    (table (depth + 1) ('{' :: (text ++ rest))).toOption =
      (Document.object ms).table?.map (·, rest) := by
  rw [table_object, toOption_bind,
    members_spelled .strict h (tableMember_takes hh) (none, none) rest,
    foldlM_fields (by decide), Document.table?]
  cases Document.fields? "rules" "default" Document.rules? Document.fallback? ms <;> rfl

theorem table_items {depth : Nat} {ds : List Document}
    (h : SpelledBody Document.Spelled ']' ds text) (hh : ∀ d ∈ ds, d.height ≤ depth)
    (rest : List Char) :
    (table (depth + 1) ('[' :: (text ++ rest))).toOption =
      (Document.list ds).table?.map (·, rest) := by
  cases h with
  | empty hb =>
    rw [List.append_assoc, List.cons_append, table_empty depth (firstItem_close hb _)]
    rfl
  | @cons blanks text tail rs ds hb head htail =>
    have hrules := (rules_takes head (hh rs List.mem_cons_self)).read_eq
      (htail.delimited (by decide) rest)
    simp only [List.append_assoc]
    rw [table_sequence depth (firstItem_blanks hb head.opens _), toOption_bind, hrules]
    cases htail with
    | close hb =>
      cases hrs : rs.rules? with
      | none => simp [Document.table?, hrs]
      | some x =>
        simp only [Option.map_some, Option.bind_some, List.append_assoc, List.cons_append,
          nextItem_close .strict hb, Document.table?, hrs]
        rfl
    | @comma before after text tail a ds hb ha head htail =>
      have haction := fallback_takes head (hh a (List.mem_cons_of_mem rs List.mem_cons_self))
      cases hrs : rs.rules? with
      | none => cases ds <;> simp [Document.table?, hrs]
      | some x =>
        simp only [Option.map_some, Option.bind_some, List.append_assoc, List.cons_append,
          nextItem_comma .strict hb ha head.opens, ok_bind, Bool.not_true, Bool.false_eq_true,
          if_false, last_takes haction htail]
        cases ds with
        | nil => cases hact : a.fallback? <;> simp [Document.table?, hrs, hact]
        | cons => rfl

theorem table_blanks (depth : Nat) {blanks : List Char} (hb : Blank blanks) (text : List Char) :
    table depth (blanks ++ text) = table depth text := by
  cases depth <;> simp only [table, skipBlanks_append hb]

theorem table_takes {depth : Nat} (h : d.Spelled text) (hh : d.height ≤ depth) :
    Takes (table depth) text d.table? :=
  takes_of_brackets table_blanks (fun depth _ h => table_scalar depth h) (fun _ => rfl)
    table_members table_items h hh

end TableReader

/-- A text that is nested within the limit is accepted if and only if its document stands for a
table, and that is the table read. -/
theorem Table.ofText?_spelled {d : Document} {text : String} (h : d.SpelledBy text)
    (hh : d.height ≤ Json.maxHeight) : (ofText? text).toOption = d.table? := by
  obtain @⟨before, text, after, hb, hd, ha⟩ := h
  rw [ofText?, String.toList_ofList]
  exact (TableReader.table_takes hd hh).all hb ha

theorem Condition.ofText?_spelled {d : Document} {text : String} (h : d.SpelledBy text)
    (hh : d.height ≤ Json.maxHeight) : (ofText? text).toOption = d.condition? := by
  obtain @⟨before, text, after, hb, hd, ha⟩ := h
  rw [ofText?, String.toList_ofList]
  exact (TableReader.condition_takes hd hh).all hb ha

end FirstMatch
