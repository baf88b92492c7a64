import FirstMatch.Proofs.Json.Source
import FirstMatch.Proofs.Json.Unambiguous
import FirstMatch.Proofs.Table.Accepted
import FirstMatch.Proofs.Table.Spelled

/-!
Where tables come from. A text from which a table is read is the text of one document, and that
document stands for the table. It may be nested to any depth where members are passed over.
-/

namespace FirstMatch

namespace Document

theorem Within.mono {d : Document} {text : List Char} {k depth : Nat} (h : d.Within k text)
    (hle : k ≤ depth) : d.Within depth text :=
  ⟨h.1, Nat.le_trans h.2 hle⟩

end Document

namespace TableReader

open Reader

variable {α : Type} {text rest : List Char}

theorem accept_source {result : Except Refusal α} {x : α} {tail : List Char}
    (h : accept result tail = .ok (x, rest)) : result.toOption = some x ∧ tail = rest := by
  cases result with
  | error reason => cases h
  | ok y =>
    cases h
    exact ⟨rfl, rfl⟩

/-! Conditions and actions -/

theorem operation_sound (v : Vocabulary α) :
    Sound (operation v) (AfterBlanks (Document.Within 0))
      fun d => (d.value? .strict).bind v.spoken? := by
  intro text op rest h
  unfold operation at h
  split at h
  · next hskip =>
    obtain ⟨⟨name, tail⟩, hname, h⟩ := bind_eq_ok.mp h
    obtain ⟨hop, rfl⟩ := accept_source h
    obtain ⟨blanks, hb, htext⟩ := exists_blanks hskip
    obtain ⟨ps, _, ⟨hps⟩, hused, hresult⟩ := string_sound .strict hname
    refine ⟨.token (.string ps), _, .mk hb ⟨.token (.string hps), Nat.le_refl _⟩, ?_, ?_⟩
    · simp [htext, hused]
    · dsimp only
      rw [Document.value?, Token.value?, hresult]
      exact hop
  · exact absurd h (mismatch_ne_ok _ _ _)

theorem operationMember_sound (v : Vocabulary α) (depth : Nat) :
    SoundMembers (operationMember v depth) (Document.Within depth)
      (valueStep .strict (partialStep v)) := by
  intro found name text next rest h
  obtain ⟨found, others⟩ := found
  unfold operationMember at h
  split at h
  · next hname =>
    subst hname
    cases found with
    | some op => cases h
    | none =>
      obtain ⟨d, _, ⟨hb, ha, hd⟩, htext, hresult⟩ :=
        (operation_sound v).afterColon (fun op => (some op, others)) h
      refine ⟨d, _, .mk hb ha (hd.mono (Nat.zero_le _)), htext, ?_⟩
      obtain ⟨op, hop, rfl⟩ := Option.map_eq_some_iff.mp hresult
      obtain ⟨j, hj, hspoken⟩ := Option.bind_eq_some_iff.mp hop
      simp [valueStep, partialStep, hj, hspoken]
  · next hname =>
    obtain ⟨⟨members, rest⟩, hmembers, h⟩ := bind_eq_ok.mp h
    cases h
    obtain ⟨d, _, ⟨hb, ha, hd⟩, htext, hresult⟩ :=
      member_sound (value_sound .strict depth) others name hmembers
    refine ⟨d, _, .mk hb ha hd, htext, ?_⟩
    obtain ⟨j, hj, hmember⟩ := Option.bind_eq_some_iff.mp hresult
    obtain rfl := Option.some.inj hmember
    simp [valueStep, partialStep, hj, hname]

theorem operand_sound (v : Vocabulary α) (depth : Nat) :
    Sound (operand v depth) (AfterBlanks (Document.Within depth))
      fun d => (d.value? .strict).bind (Vocabulary.decodeBy v.spoken?) := by
  intro text x rest h
  unfold operand at h
  split at h
  split at h
  · cases h
  · cases h
  · next tail depth hskip =>
    obtain ⟨blanks, hb, htext⟩ := exists_blanks hskip
    obtain ⟨⟨more, tail⟩, hmore, h⟩ := bind_eq_ok.mp h
    cases more with
    | false => cases h
    | true =>
      -- the first item gives the operation, the others are kept as values
      obtain ⟨⟨op, tail⟩, hop, h⟩ := bind_eq_ok.mp h
      obtain ⟨⟨items, tail⟩, hitems, h⟩ := bind_eq_ok.mp h
      obtain ⟨hx, hrest⟩ := accept_source h
      obtain ⟨first, hfirst, hopen⟩ := firstItem_source hmore
      obtain ⟨d, _, ⟨hblank, hd⟩, hused, hchosen⟩ := operation_sound v hop
      obtain ⟨ds, used, hds, hmore, hvalues⟩ :=
        moreItems_sound .strict (value_sound .strict depth) _ hitems
      refine ⟨.list (d :: ds), _, .mk hb (Document.within_list (.cons (hfirst.append hblank)
        (hd.mono (Nat.zero_le _)) hds)), ?_, ?_⟩
      · simp [htext, hopen, hused, hmore, hrest]
      · obtain ⟨j, hj, hspoken⟩ := Option.bind_eq_some_iff.mp hchosen
        dsimp only
        rw [Document.value?, Document.items?_eq, List.mapM_cons, hj, hvalues]
        simp [Vocabulary.decodeBy, hspoken, hx]
  · next tail depth hskip =>
    obtain ⟨blanks, hb, htext⟩ := exists_blanks hskip
    obtain ⟨⟨⟨op, others⟩, tail⟩, hfound, h⟩ := bind_eq_ok.mp h
    cases op with
    | none => cases h
    | some op =>
      obtain ⟨hx, hrest⟩ := accept_source h
      obtain ⟨ms, used, hms, hused, hfold⟩ :=
        members_sound .strict (operationMember_sound v depth) (none, []) hfound
      refine ⟨.object ms, _, .mk hb (Document.within_object hms), ?_, ?_⟩
      · simp [htext, hused, hrest]
      -- the members split: the one of the operation, and the values of all the others
      · dsimp only at hfold ⊢
        rw [foldlM_valueStep] at hfold
        obtain ⟨js, hjs, hfold⟩ := Option.bind_eq_some_iff.mp hfold
        rw [foldlM_partialStep] at hfold
        obtain ⟨found, hfield, hfound⟩ := Option.map_eq_some_iff.mp hfold
        obtain ⟨rfl, rfl⟩ := Prod.mk.inj hfound
        rw [List.reverse_reverse] at hx
        simp [Document.value?, hjs, Vocabulary.decodeBy, hfield, hx]
  · exact absurd h (mismatch_ne_ok _ _ _)

theorem grammar_sound (g : Grammar α) (depth : Nat) :
    Sound (operand (g.vocabulary (g.ofJson depth)) depth) (AfterBlanks Document.Spelled)
      fun d => (d.value? .strict).bind g.direct? := by
  intro text x rest h
  obtain ⟨d, _, ⟨hb, hd⟩, htext, hresult⟩ := operand_sound _ depth h
  refine ⟨d, _, .mk hb hd.1, htext, ?_⟩
  obtain ⟨j, hj, hx⟩ := Option.bind_eq_some_iff.mp hresult
  have hle : j.height ≤ depth := Document.height_of_value? hj ▸ hd.2
  dsimp only
  rw [hj, Option.bind_some, ← g.decodeBy_spoken?_eq hle]
  exact hx

theorem condition_sound (depth : Nat) :
    Sound (condition depth) (AfterBlanks Document.Spelled) Document.condition? :=
  grammar_sound Condition.grammar depth

theorem action_sound (depth : Nat) :
    Sound (action depth) (AfterBlanks Document.Spelled) Document.action? :=
  grammar_sound Action.grammar depth

/-! Rules -/

theorem ReadsFields.soundMembers {β γ : Type} {first second : String}
    {read : Option β × Option γ → String → TableReader (Option β × Option γ)}
    {readFirst : TableReader β} {readSecond : TableReader γ} {f : Document → Option β}
    {g : Document → Option γ} (hread : ReadsFields first second readFirst readSecond read)
    (hf : Sound readFirst (AfterBlanks Document.Spelled) f)
    (hg : Sound readSecond (AfterBlanks Document.Spelled) g) :
    SoundMembers read Document.Spelled (fieldStep first second f g) := by
  intro found name text next rest h
  by_cases h1 : name = first
  · subst h1
    rw [hread.first_eq] at h
    by_cases hfound : found.1.isSome = true
    · rw [if_pos hfound] at h
      cases h
    · rw [if_neg hfound] at h
      obtain ⟨d, used, hd, htext, hresult⟩ := hf.afterColon (fun x => (some x, found.2)) h
      refine ⟨d, used, hd, htext, ?_⟩
      dsimp only
      rw [fieldStep, if_pos rfl, if_neg hfound]
      exact hresult
  · by_cases h2 : name = second
    · subst h2
      rw [hread.second_eq] at h
      by_cases hfound : found.2.isSome = true
      · rw [if_pos hfound] at h
        cases h
      · rw [if_neg hfound] at h
        obtain ⟨d, used, hd, htext, hresult⟩ := hg.afterColon (fun y => (found.1, some y)) h
        refine ⟨d, used, hd, htext, ?_⟩
        dsimp only
        rw [fieldStep, if_neg hread.distinct, if_pos rfl, if_neg hfound]
        exact hresult
    · rw [hread.other_eq found name h1 h2] at h
      obtain ⟨d, used, hd, htext, hresult⟩ := Sound.afterColon skip_sound (fun _ => found) h
      refine ⟨d, used, hd, htext, ?_⟩
      dsimp only
      rw [fieldStep, if_neg h1, if_neg h2]
      exact hresult

theorem ReadsFields.soundFields {β γ : Type} {first second : String}
    {read : Option β × Option γ → String → TableReader (Option β × Option γ)}
    {readFirst : TableReader β} {readSecond : TableReader γ} {f : Document → Option β}
    {g : Document → Option γ} (hread : ReadsFields first second readFirst readSecond read)
    (hf : Sound readFirst (AfterBlanks Document.Spelled) f)
    (hg : Sound readSecond (AfterBlanks Document.Spelled) g) :
    Sound (members .strict read (none, none)) (SpelledBody (SpelledMember Document.Spelled) '}')
      (Document.fields? first second f g) := by
  intro text found rest h
  obtain ⟨ms, used, hms, htext, hfold⟩ :=
    members_sound .strict (hread.soundMembers hf hg) (none, none) h
  exact ⟨ms, used, hms, htext, (foldlM_fields hread.distinct.symm f g ms).symm.trans hfold⟩

theorem closeSequence_source {last : Unit} (h : closeSequence text = .ok (last, rest)) :
    ∃ blanks, Blank blanks ∧ text = blanks ++ ']' :: rest := by
  unfold closeSequence at h
  split at h
  · cases h
  · next hskip =>
    cases h
    exact exists_blanks hskip
  · split at h
    · cases h
    · cases h
  · cases h

theorem rule_sound (depth : Nat) :
    Sound (rule depth) (AfterBlanks Document.Spelled) Document.rule? := by
  intro text r rest h
  unfold rule at h
  split at h
  · cases h
  · cases h
  · next tail depth hskip =>
    obtain ⟨blanks, hb, htext⟩ := exists_blanks hskip
    obtain ⟨⟨more, tail⟩, hmore, h⟩ := bind_eq_ok.mp h
    cases more with
    | false => cases h
    | true =>
      obtain ⟨⟨c, tail⟩, hc, h⟩ := bind_eq_ok.mp h
      obtain ⟨⟨more, tail⟩, hcomma, h⟩ := bind_eq_ok.mp h
      cases more with
      | false => cases h
      | true =>
        obtain ⟨⟨a, tail⟩, ha, h⟩ := bind_eq_ok.mp h
        obtain ⟨⟨⟨⟩, tail⟩, hclose, h⟩ := bind_eq_ok.mp h
        cases h
        obtain ⟨first, hfirst, hopen⟩ := firstItem_source hmore
        obtain ⟨d, _, ⟨hblank, hd⟩, hdused, hdc⟩ := condition_sound depth hc
        obtain ⟨before, after, hbefore, hafter, hsep⟩ := nextItem_source hcomma
        obtain ⟨e, _, ⟨hblank', he⟩, heused, hea⟩ := action_sound depth ha
        obtain ⟨last, hlast, hend⟩ := closeSequence_source hclose
        refine ⟨.list [d, e], _, .mk hb (.list (.cons (hfirst.append hblank) hd
          (.comma hbefore (hafter.append hblank') he (.close hlast)))), ?_, ?_⟩
        · simp [htext, hopen, hdused, hsep, heused, hend]
        · simp [Document.rule?, hdc, hea]
  · next tail depth hskip =>
    obtain ⟨blanks, hb, htext⟩ := exists_blanks hskip
    obtain ⟨⟨⟨c, a⟩, tail⟩, hfound, h⟩ := bind_eq_ok.mp h
    obtain ⟨ms, used, hms, hused, hfields⟩ :=
      (ruleMember_reads depth).soundFields (condition_sound depth) (action_sound depth) hfound
    cases c with
    | none => cases h
    | some c =>
      cases a with
      | none => cases h
      | some a =>
        cases h
        refine ⟨.object ms, _, .mk hb (.object hms), by simp [htext, hused], ?_⟩
        simp [Document.rule?, hfields]
  · exact absurd h (mismatch_ne_ok _ _ _)

/-! Tables -/

theorem rules_sound (depth : Nat) :
    Sound (rules depth) (AfterBlanks Document.Spelled) Document.rules? := by
  intro text rs rest h
  unfold rules at h
  split at h
  · cases h
  · next tail depth hskip =>
    obtain ⟨blanks, hb, htext⟩ := exists_blanks hskip
    obtain ⟨ds, used, hds, hused, hresult⟩ := items_sound .strict (rule_sound depth) h
    exact ⟨.list ds, _, .mk hb (.list hds), by simp [htext, hused], hresult⟩
  · exact absurd h (mismatch_ne_ok _ _ _)

theorem fallback_sound (depth : Nat) :
    Sound (fallback depth) (AfterBlanks Document.Spelled) Document.fallback? := by
  intro text found rest h
  obtain ⟨blanks, hb, htext⟩ := leading_blanks text
  unfold fallback at h
  split at h
  · next hskip =>
    obtain ⟨rfl, rfl⟩ := word_source h
    refine ⟨.token .null, _, .mk hb (.token .null), ?_, rfl⟩
    rw [htext, hskip, List.append_assoc]
    rfl
  · next hnull =>
    obtain ⟨⟨a, tail⟩, ha, h⟩ := bind_eq_ok.mp h
    cases h
    obtain ⟨d, _, ⟨hblank, hd⟩, hused, hresult⟩ := action_sound depth ha
    refine ⟨d, _, .mk (hb.append hblank) hd, ?_, Document.fallback?_of_action? hresult⟩
    rw [htext, hused]
    simp

theorem table_sound (depth : Nat) :
    Sound (table depth) (AfterBlanks Document.Spelled) Document.table? := by
  intro text t rest h
  unfold table at h
  split at h
  · cases h
  · cases h
  · next tail depth hskip =>
    obtain ⟨blanks, hb, htext⟩ := exists_blanks hskip
    obtain ⟨⟨more, tail⟩, hmore, h⟩ := bind_eq_ok.mp h
    obtain ⟨first, hfirst, hopen⟩ := firstItem_source hmore
    cases more with
    | false =>
      cases h
      exact ⟨.list [], _, .mk hb (.list (.empty hfirst)), by simp [htext, hopen], rfl⟩
    | true =>
      obtain ⟨⟨rs, tail⟩, hrs, h⟩ := bind_eq_ok.mp h
      obtain ⟨⟨more, tail⟩, hcomma, h⟩ := bind_eq_ok.mp h
      obtain ⟨d, _, ⟨hblank, hd⟩, hdused, hdrs⟩ := rules_sound depth hrs
      obtain ⟨before, after, hbefore, hafter, hsep⟩ := nextItem_source hcomma
      cases more with
      | false =>
        cases h
        refine ⟨.list [d], _, .mk hb (.list (.cons (hfirst.append hblank) hd
          (.close hbefore))), ?_, ?_⟩
        · simp [htext, hopen, hdused, hsep]
        · simp [Document.table?, hdrs]
      | true =>
        obtain ⟨⟨a, tail⟩, ha, h⟩ := bind_eq_ok.mp h
        obtain ⟨⟨⟨⟩, tail⟩, hclose, h⟩ := bind_eq_ok.mp h
        cases h
        obtain ⟨e, _, ⟨hblank', he⟩, heused, hea⟩ := fallback_sound depth ha
        obtain ⟨last, hlast, hend⟩ := closeSequence_source hclose
        refine ⟨.list [d, e], _, .mk hb (.list (.cons (hfirst.append hblank) hd
          (.comma hbefore (hafter.append hblank') he (.close hlast)))), ?_, ?_⟩
        · simp [htext, hopen, hdused, hsep, heused, hend]
        · simp [Document.table?, hdrs, hea]
  · next tail depth hskip =>
    obtain ⟨blanks, hb, htext⟩ := exists_blanks hskip
    obtain ⟨⟨⟨rs, a⟩, tail⟩, hfound, h⟩ := bind_eq_ok.mp h
    cases h
    obtain ⟨ms, used, hms, hused, hfields⟩ :=
      (tableMember_reads depth).soundFields (rules_sound depth) (fallback_sound depth) hfound
    refine ⟨.object ms, _, .mk hb (.object hms), by simp [htext, hused], ?_⟩
    simp [Document.table?, hfields]
  · exact absurd h (mismatch_ne_ok _ _ _)

end TableReader

namespace Table

/-- Whatever text is accepted as a table, it is the text of one document, and that stands for the
table. -/
theorem exists_document {text : String} {t : Table} (h : ofText? text = .ok t) :
    ∃ d : Document, d.SpelledBy text ∧ d.table? = some t := by
  obtain ⟨d, before, used, after, hb, hd, ha, htext, ht⟩ :=
    (TableReader.table_sound Json.maxHeight).all h
  exact ⟨d, .of_toList hb hd ha htext, ht⟩

/-- A text of this document is accepted only as the table that the document stands for. -/
theorem table?_of_ofText? {d : Document} {text : String} (hd : d.SpelledBy text) {t : Table}
    (h : ofText? text = .ok t) : d.table? = some t := by
  obtain ⟨e, he, ht⟩ := exists_document h
  rwa [hd.unique he]

end Table

end FirstMatch
