import FirstMatch.Proofs.Json.Spelled

/-!
No text is spelled in two ways. What a text starts with is settled by what it is spelled as, up to
where the next part begins, so that a whole text is the text of one document at most.
-/

namespace FirstMatch

open Reader

/-- Where this is spelled, nothing else is, and the same text follows. -/
def Settled {β : Type} (spelled : β → List Char → Prop) (x : β) : Prop :=
  ∀ {y : β} {text other rest tail : List Char}, spelled x text → spelled y other →
    Delimited rest → Delimited tail → text ++ rest = other ++ tail → x = y ∧ rest = tail

theorem eq_behind_blanks {before after text other : List Char} (hb : Blank before)
    (ha : Blank after) (ht : skipBlanks text = text) (ho : skipBlanks other = other)
    (h : before ++ text = after ++ other) : text = other := by
  have hskip := congrArg skipBlanks h
  rwa [skipBlanks_append hb, skipBlanks_append ha, ht, ho] at hskip

theorem Blank.delimits {blanks : List Char} (h : Blank blanks) : Delimited blanks := by
  have hnil : Delimited [] := nofun
  simpa using h.delimited hnil

/-! Tokens -/

theorem Piece.Spelled.settled {p q : Piece} {text other rest tail : List Char} (hp : p.Spelled text)
    (hq : q.Spelled other) (h : text ++ rest = other ++ tail) : p = q ∧ rest = tail := by
  cases hp with
  | plain _ _ hplain =>
    cases hq with
    | plain =>
      cases h
      exact ⟨rfl, rfl⟩
    | escape => exact absurd (List.cons.inj h).1 hplain
    | unit => exact absurd (List.cons.inj h).1 hplain
  | escape hletter =>
    cases hq with
    | plain _ _ hplain => exact absurd (List.cons.inj h).1.symm hplain
    | escape hother =>
      cases h
      obtain rfl := Option.some.inj (hletter.symm.trans hother)
      exact ⟨rfl, rfl⟩
    | unit =>
      obtain ⟨rfl, -⟩ := List.cons.inj (List.cons.inj h).2
      cases hletter
  | unit ha hb hc hd =>
    cases hq with
    | plain _ _ hplain => exact absurd (List.cons.inj h).1.symm hplain
    | escape hletter =>
      obtain ⟨rfl, -⟩ := List.cons.inj (List.cons.inj h).2
      cases hletter
    | unit ha' hb' hc' hd' =>
      cases h
      obtain rfl := Option.some.inj (ha.symm.trans ha')
      obtain rfl := Option.some.inj (hb.symm.trans hb')
      obtain rfl := Option.some.inj (hc.symm.trans hc')
      obtain rfl := Option.some.inj (hd.symm.trans hd')
      exact ⟨rfl, rfl⟩

theorem Piece.Spelled.ne_quote {p : Piece} {text : List Char} (h : p.Spelled text)
    (rest tail : List Char) : text ++ rest ≠ '"' :: tail := by
  intro heq
  cases h with
  | plain _ hquote => exact hquote (List.cons.inj heq).1
  | escape => cases heq
  | unit => cases heq

/-- The pieces of a string are settled up to its closing quote. -/
theorem Piece.SpelledAll.settled {ps qs : List Piece} {text other rest tail : List Char}
    (hp : SpelledAll ps text) (hq : SpelledAll qs other)
    (h : text ++ '"' :: rest = other ++ '"' :: tail) : ps = qs ∧ rest = tail := by
  induction hp generalizing qs other with
  | nil =>
    cases hq with
    | nil => exact ⟨rfl, (List.cons.inj h).2⟩
    | cons head =>
      rw [List.append_assoc] at h
      exact absurd h.symm (head.ne_quote _ _)
  | cons head _ ih =>
    cases hq with
    | nil =>
      rw [List.append_assoc] at h
      exact absurd h (head.ne_quote _ _)
    | cons head' htail =>
      rw [List.append_assoc, List.append_assoc] at h
      obtain ⟨rfl, h⟩ := head.settled head' h
      obtain ⟨rfl, hrest⟩ := ih htail h
      exact ⟨rfl, hrest⟩

theorem Numeral.settled (n : Numeral) : Settled Spelled n := by
  intro m text other rest tail hn hm hr ht h
  have hread := numeral_spelled (ε := Empty) .strict hn hr
  rw [h, numeral_spelled .strict hm ht] at hread
  cases hread
  exact ⟨rfl, rfl⟩

theorem Numeral.Spelled.ne_cons {n : Numeral} {text : List Char} (h : n.Spelled text) {c : Char}
    (hc : c ≠ '-' ∧ c.isDigit = false) (rest tail : List Char) : text ++ rest ≠ c :: tail := by
  rintro heq
  obtain ⟨d, text, rfl, hd⟩ := h.opens
  obtain ⟨rfl, -⟩ := List.cons.inj heq
  rcases hd with hd | hd
  · exact hc.1 hd
  · rw [hc.2] at hd
    cases hd

theorem Token.settled (t : Token) : Settled Spelled t := by
  intro u text other rest tail ht hu hr htail h
  cases ht with
  | null =>
    cases hu with
    | null => exact ⟨rfl, List.append_cancel_left h⟩
    | number hn => exact absurd h.symm (hn.ne_cons (by decide) _ _)
    | _ => cases h
  | true =>
    cases hu with
    | true => exact ⟨rfl, List.append_cancel_left h⟩
    | number hn => exact absurd h.symm (hn.ne_cons (by decide) _ _)
    | _ => cases h
  | false =>
    cases hu with
    | false => exact ⟨rfl, List.append_cancel_left h⟩
    | number hn => exact absurd h.symm (hn.ne_cons (by decide) _ _)
    | _ => cases h
  | number hn =>
    cases hu with
    | number hm =>
      obtain ⟨rfl, hrest⟩ := Numeral.settled _ hn hm hr htail h
      exact ⟨rfl, hrest⟩
    | _ => exact absurd h (hn.ne_cons (by decide) _ _)
  | string hp =>
    cases hu with
    | string hq =>
      simp only [List.cons_append, List.append_assoc, List.nil_append, List.cons.injEq,
        true_and] at h
      obtain ⟨rfl, hrest⟩ := hp.settled hq h
      exact ⟨rfl, hrest⟩
    | number hn => exact absurd h.symm (hn.ne_cons (by decide) _ _)
    | _ => cases h

/-! Sequences -/

section Sequences

variable {β : Type} {spelled : β → List Char → Prop} {close : Char} {xs ys : List β}
  {text other rest tail : List Char}

/-- The bracket that closes a sequence cannot be taken for anything else in it. -/
structure Closes (spelled : β → List Char → Prop) (close : Char) : Prop where
  notBlank : isBlank close = false
  notComma : close ≠ ','
  delimits : close.isDigit = false ∧ close ≠ '.' ∧ close ≠ 'e' ∧ close ≠ 'E'
  opens : ∀ {x text}, spelled x text → ∃ c tail, text = c :: tail ∧ isBlank c = false ∧ c ≠ close

theorem Closes.skipBlanks_eq (hc : Closes spelled close) {x : β} (h : spelled x text)
    (rest : List Char) : skipBlanks (text ++ rest) = text ++ rest := by
  obtain ⟨c, tail, rfl, hblank, -⟩ := hc.opens h
  exact skipBlanks_cons _ hblank

theorem SpelledRest.settled (hc : Closes spelled close) (hx : SpelledRest spelled close xs text)
    (hy : SpelledRest spelled close ys other) (hs : ∀ x ∈ xs, Settled spelled x)
    (h : text ++ rest = other ++ tail) : xs = ys ∧ rest = tail := by
  have hclose : ∀ tail, skipBlanks (close :: tail) = close :: tail := fun tail =>
    skipBlanks_cons tail hc.notBlank
  have hcomma : ∀ tail, skipBlanks (',' :: tail) = ',' :: tail := fun tail =>
    skipBlanks_cons tail (by decide)
  -- the first character behind the blanks is the same in both, so both end or both go on
  induction hx generalizing ys other with
  | close hb =>
    rw [List.append_assoc] at h
    cases hy with
    | close hb' =>
      rw [List.append_assoc] at h
      have hsame := eq_behind_blanks hb hb' (hclose _) (hclose _) h
      exact ⟨rfl, (List.cons.inj hsame).2⟩
    | comma hb' =>
      rw [List.append_assoc] at h
      have hsame := eq_behind_blanks hb hb' (hclose _) (hcomma _) h
      exact absurd (List.cons.inj hsame).1 hc.notComma
  | @comma before after part more x xs hb ha head htail ih =>
    rw [List.append_assoc] at h
    cases hy with
    | close hb' =>
      rw [List.append_assoc] at h
      have hsame := eq_behind_blanks hb hb' (hcomma _) (hclose _) h
      exact absurd (List.cons.inj hsame).1.symm hc.notComma
    | comma hb' ha' head' htail' =>
      simp only [List.append_assoc, List.cons_append] at h
      have hbehind := (List.cons.inj (eq_behind_blanks hb hb' (hcomma _) (hcomma _) h)).2
      have hhead := eq_behind_blanks ha ha' (hc.skipBlanks_eq head _) (hc.skipBlanks_eq head' _)
        hbehind
      obtain ⟨rfl, hrest⟩ := hs x List.mem_cons_self head head' (htail.delimited hc.delimits _)
        (htail'.delimited hc.delimits _) hhead
      obtain ⟨rfl, hsame⟩ := ih htail' (fun y hy => hs y (List.mem_cons_of_mem x hy)) hrest
      exact ⟨rfl, hsame⟩

theorem SpelledBody.settled (hc : Closes spelled close) (hx : SpelledBody spelled close xs text)
    (hy : SpelledBody spelled close ys other) (hs : ∀ x ∈ xs, Settled spelled x)
    (h : text ++ rest = other ++ tail) : xs = ys ∧ rest = tail := by
  have hclose : ∀ tail, skipBlanks (close :: tail) = close :: tail := fun tail =>
    skipBlanks_cons tail hc.notBlank
  have hnever : ∀ {x part} more tail, spelled x part → part ++ more ≠ close :: tail := by
    intro x part more tail hpart heq
    obtain ⟨c, part, rfl, -, hne⟩ := hc.opens hpart
    exact hne (List.cons.inj heq).1
  cases hx with
  | empty hb =>
    rw [List.append_assoc] at h
    cases hy with
    | empty hb' =>
      rw [List.append_assoc] at h
      have hsame := eq_behind_blanks hb hb' (hclose _) (hclose _) h
      exact ⟨rfl, (List.cons.inj hsame).2⟩
    | cons hb' head' =>
      simp only [List.append_assoc] at h
      have hsame := eq_behind_blanks hb hb' (hclose _) (hc.skipBlanks_eq head' _) h
      exact absurd hsame.symm (hnever _ _ head')
  | @cons blanks part more x xs hb head htail =>
    simp only [List.append_assoc] at h
    cases hy with
    | empty hb' =>
      rw [List.append_assoc] at h
      have hsame := eq_behind_blanks hb hb' (hc.skipBlanks_eq head _) (hclose _) h
      exact absurd hsame (hnever _ _ head)
    | cons hb' head' htail' =>
      simp only [List.append_assoc] at h
      have hhead := eq_behind_blanks hb hb' (hc.skipBlanks_eq head _) (hc.skipBlanks_eq head' _) h
      obtain ⟨rfl, hrest⟩ := hs x List.mem_cons_self head head' (htail.delimited hc.delimits _)
        (htail'.delimited hc.delimits _) hhead
      obtain ⟨rfl, hsame⟩ := htail.settled hc htail' (fun y hy => hs y (List.mem_cons_of_mem x hy))
        hrest
      exact ⟨rfl, hsame⟩

end Sequences

/-! Documents -/

theorem Document.closes : Closes Document.Spelled ']' where
  notBlank := by decide
  notComma := by decide
  delimits := by decide
  opens h := h.opens

theorem SpelledMember.closes : Closes (SpelledMember Document.Spelled) '}' where
  notBlank := by decide
  notComma := by decide
  delimits := by decide
  opens := by
    rintro x text ⟨⟩
    exact ⟨'"', _, rfl, by decide, by decide⟩

theorem SpelledMember.settled {m : List Piece × Document} (hd : Settled Document.Spelled m.2) :
    Settled (SpelledMember Document.Spelled) m := by
  intro n text other rest tail hm hn hr ht h
  obtain ⟨hname, hb, ha, hvalue⟩ := hm
  obtain ⟨hname', hb', ha', hvalue'⟩ := hn
  have hcolon : ∀ tail, skipBlanks (':' :: tail) = ':' :: tail := fun tail =>
    skipBlanks_cons tail (by decide)
  simp only [List.cons_append, List.append_assoc, List.cons.injEq, true_and] at h
  obtain ⟨rfl, h⟩ := hname.settled hname' h
  have hbehind := (List.cons.inj (eq_behind_blanks hb hb' (hcolon _) (hcolon _) h)).2
  have hsame := eq_behind_blanks ha ha' (Document.closes.skipBlanks_eq hvalue _)
    (Document.closes.skipBlanks_eq hvalue' _) hbehind
  obtain ⟨heq, hrest⟩ := hd hvalue hvalue' hr ht hsame
  exact ⟨by rw [← heq], hrest⟩

namespace Document

theorem settled (d : Document) : Settled Spelled d := by
  -- The grammar nests through sequences, so the induction is on the height.
  induction hn : d.height using Nat.strongRecOn generalizing d with
  | _ n ih =>
    subst hn
    intro e text other rest tail hd he hr ht h
    cases hd with
    | token htoken =>
      obtain ⟨c, more, hopens, -, -, hl, ho⟩ := htoken.opens
      cases he with
      | token htoken' =>
        obtain ⟨rfl, hrest⟩ := Token.settled _ htoken htoken' hr ht h
        exact ⟨rfl, hrest⟩
      | list =>
        rw [hopens] at h
        exact absurd (List.cons.inj h).1 hl
      | object =>
        rw [hopens] at h
        exact absurd (List.cons.inj h).1 ho
    | @list items text hbody =>
      have hs : ∀ x ∈ items, Settled Spelled x := by
        intro x hx
        refine ih x.height ?_ x rfl
        exact Nat.lt_succ_of_le (height_le_of_mem_items hx)
      cases he with
      | token htoken =>
        obtain ⟨c, more, hopens, -, -, hl, -⟩ := htoken.opens
        rw [hopens] at h
        exact absurd (List.cons.inj h).1.symm hl
      | list hbody' =>
        obtain ⟨rfl, hrest⟩ := hbody.settled closes hbody' hs (List.cons.inj h).2
        exact ⟨rfl, hrest⟩
      | object => cases h
    | @object members text hbody =>
      have hs : ∀ m ∈ members, Settled (SpelledMember Spelled) m := by
        intro m hm
        refine SpelledMember.settled (ih m.2.height ?_ m.2 rfl)
        exact Nat.lt_succ_of_le (height_le_of_mem_members hm)
      cases he with
      | token htoken =>
        obtain ⟨c, more, hopens, -, -, -, ho⟩ := htoken.opens
        rw [hopens] at h
        exact absurd (List.cons.inj h).1.symm ho
      | list => cases h
      | object hbody' =>
        obtain ⟨rfl, hrest⟩ := hbody.settled SpelledMember.closes hbody' hs (List.cons.inj h).2
        exact ⟨rfl, hrest⟩

/-- A text is the text of at most one document. -/
theorem SpelledBy.unique {d e : Document} {text : String} (hd : d.SpelledBy text)
    (he : e.SpelledBy text) : d = e := by
  have hparts : ∀ {d : Document}, d.SpelledBy text → ∃ before part after, Blank before ∧
      d.Spelled part ∧ Blank after ∧ text.toList = before ++ (part ++ after) := by
    intro d h
    cases h with
    | mk hb hspelled ha => exact ⟨_, _, _, hb, hspelled, ha, String.toList_ofList⟩
  obtain ⟨before, part, after, hb, hd, ha, htext⟩ := hparts hd
  obtain ⟨before', part', after', hb', he, ha', htext'⟩ := hparts he
  have hsame := eq_behind_blanks hb hb' (closes.skipBlanks_eq hd _) (closes.skipBlanks_eq he _)
    (htext.symm.trans htext')
  exact (d.settled hd he ha.delimits ha'.delimits hsame).1

end Document

end FirstMatch
