import FirstMatch.Proofs.Json.Spelled

/-!
Where values come from. What a reader accepts starts with the text of something that stands for
the value read, so that nothing is accepted that the grammar does not have.
-/

namespace FirstMatch

theorem Blank.append {before after : List Char} (hb : Blank before) (ha : Blank after) :
    Blank (before ++ after) := by
  intro c hc
  rcases List.mem_append.mp hc with hc | hc
  · exact hb c hc
  · exact ha c hc

theorem Piece.SpelledAll.append {ps qs : List Piece} {text tail : List Char}
    (h : Piece.SpelledAll ps text) (ht : Piece.SpelledAll qs tail) :
    Piece.SpelledAll (ps ++ qs) (text ++ tail) := by
  induction h with
  | nil => exact ht
  | cons head _ ih =>
    rw [List.append_assoc]
    exact .cons head ih

section Sequences

variable {β : Type} {spelled wider : β → List Char → Prop} {close : Char} {xs : List β}
  {text : List Char}

theorem SpelledRest.imp (himp : ∀ {x text}, spelled x text → wider x text)
    (h : SpelledRest spelled close xs text) : SpelledRest wider close xs text := by
  induction h with
  | close hb => exact .close hb
  | comma hb ha head _ ih => exact .comma hb ha (himp head) ih

theorem SpelledBody.imp (himp : ∀ {x text}, spelled x text → wider x text)
    (h : SpelledBody spelled close xs text) : SpelledBody wider close xs text := by
  cases h with
  | empty hb => exact .empty hb
  | cons hb head tail => exact .cons hb (himp head) (tail.imp himp)

end Sequences

theorem SpelledMember.imp {spelled wider : Document → List Char → Prop}
    (himp : ∀ {d text}, spelled d text → wider d text) {m : List Piece × Document}
    {text : List Char} (h : SpelledMember spelled m text) : SpelledMember wider m text := by
  obtain ⟨hname, hb, ha, hd⟩ := h
  exact .mk hname hb ha (himp hd)

namespace Document

def Within (depth : Nat) (d : Document) (text : List Char) : Prop :=
  d.Spelled text ∧ d.height ≤ depth

variable {depth : Nat} {text : List Char}

theorem within_list {items : List Document} (h : SpelledBody (Within depth) ']' items text) :
    (list items).Within (depth + 1) ('[' :: text) := by
  refine ⟨.list (h.imp fun hd => hd.1), Nat.succ_le_succ (heightItems_le fun d hd => ?_)⟩
  obtain ⟨part, hpart, -⟩ := h.exists_of_mem hd
  exact hpart.2

theorem within_object {members : List (List Piece × Document)}
    (h : SpelledBody (SpelledMember (Within depth)) '}' members text) :
    (object members).Within (depth + 1) ('{' :: text) := by
  refine ⟨.object (h.imp fun hm => hm.imp fun hd => hd.1), ?_⟩
  refine Nat.succ_le_succ (heightMembers_le fun m hm => ?_)
  obtain ⟨part, hpart, -⟩ := h.exists_of_mem hm
  obtain ⟨-, -, -, hd⟩ := hpart
  exact hd.2

end Document

namespace Reader

variable {ε α β σ : Type}

/-- Whatever is read is what something stands for that is spelled from the start of the text to
where reading stopped. -/
def Sound (read : Reader ε α) (spelled : β → List Char → Prop) (result : β → Option α) : Prop :=
  ∀ ⦃text : List Char⦄ ⦃a : α⦄ ⦃rest : List Char⦄, read text = .ok (a, rest) →
    ∃ b used, spelled b used ∧ text = used ++ rest ∧ result b = some a

inductive AfterBlanks (spelled : β → List Char → Prop) (b : β) : List Char → Prop where
  | mk {blanks used : List Char} (blank : Blank blanks) (value : spelled b used) :
      AfterBlanks spelled b (blanks ++ used)

inductive AfterColon (spelled : β → List Char → Prop) (b : β) : List Char → Prop where
  | mk {before after used : List Char} (blankBefore : Blank before) (blankAfter : Blank after)
      (value : spelled b used) : AfterColon spelled b (before ++ ':' :: (after ++ used))

/-! Blanks and words -/

theorem leading_blanks (text : List Char) :
    ∃ blanks, Blank blanks ∧ text = blanks ++ skipBlanks text := by
  refine ⟨text.takeWhile isBlank, ?_, ?_⟩
  · intro c hc
    exact List.all_eq_true.mp List.all_takeWhile c hc
  · rw [skipBlanks, List.takeWhile_append_dropWhile]

theorem exists_blanks {text rest : List Char} (h : skipBlanks text = rest) :
    ∃ blanks, Blank blanks ∧ text = blanks ++ rest :=
  h ▸ leading_blanks text

theorem word_source {a x : α} {letters text rest : List Char}
    (h : (word a letters text : Except (ReadError ε) _) = .ok (x, rest)) :
    x = a ∧ text = letters ++ rest := by
  induction letters generalizing text with
  | nil =>
    cases h
    exact ⟨rfl, rfl⟩
  | cons c letters ih =>
    cases text with
    | nil => cases h
    | cons d text =>
      rw [word] at h
      split at h
      · next hcd =>
        obtain ⟨hx, rfl⟩ := ih h
        exact ⟨hx, by rw [hcd, List.cons_append]⟩
      · cases h

/-! Numerals -/

theorem digits_source {mode : Strictness} {text ds rest : List Char}
    (h : (digits mode text : Except (ReadError ε) _) = .ok (ds, rest)) :
    IsRun ds ∧ text = ds ++ rest := by
  have hsplit : text = text.takeWhile Char.isDigit ++ text.dropWhile Char.isDigit :=
    List.takeWhile_append_dropWhile.symm
  unfold digits at h
  split at h
  · cases h
  · next c run hrun =>
    cases h
    refine ⟨⟨List.cons_ne_nil c run, ?_⟩, hrun ▸ hsplit⟩
    intro d hd
    rw [← hrun] at hd
    exact List.all_eq_true.mp List.all_takeWhile d hd

theorem whole_source {mode : Strictness} {text ds rest : List Char}
    (h : (whole mode text : Except (ReadError ε) _) = .ok (ds, rest)) :
    IsRun ds ∧ (ds.head? = some '0' → ds = ['0']) ∧ text = ds ++ rest := by
  unfold whole at h
  split at h
  · split at h
    · cases h
    · cases h
      exact ⟨⟨List.cons_ne_nil _ _, List.forall_mem_singleton.mpr rfl⟩, fun _ => rfl, rfl⟩
  · next hzero =>
    obtain ⟨hrun, rfl⟩ := digits_source h
    refine ⟨hrun, ?_, rfl⟩
    intro hhead
    cases ds with
    | nil => cases hhead
    | cons c ds =>
      obtain rfl := Option.some.inj hhead
      exact absurd rfl (hzero (ds ++ rest))

theorem fraction_source {mode : Strictness} {text rest : List Char} {f : Option (List Char)}
    (h : (fraction mode text : Except (ReadError ε) _) = .ok (f, rest)) :
    (∀ ds, f = some ds → IsRun ds) ∧
      ∀ n : Numeral, n.fraction = f → text = n.fractionText ++ rest := by
  unfold fraction at h
  split at h
  · obtain ⟨⟨ds, tail⟩, hdigits, h⟩ := bind_eq_ok.mp h
    cases h
    obtain ⟨hrun, rfl⟩ := digits_source hdigits
    constructor
    · rintro es ⟨⟩
      exact hrun
    · intro n hn
      rw [Numeral.fractionText, hn]
      rfl
  · cases h
    refine ⟨nofun, ?_⟩
    intro n hn
    rw [Numeral.fractionText, hn]
    rfl

theorem exponent_source {mode : Strictness} {text rest : List Char} {e : Option (Bool × List Char)}
    (h : (exponent mode text : Except (ReadError ε) _) = .ok (e, rest)) :
    ∃ tail, Numeral.ExponentSpelled e tail ∧ text = tail ++ rest ∧
      ∀ negative ds, e = some (negative, ds) → IsRun ds := by
  unfold exponent at h
  split at h
  · next c text =>
    split at h
    · next hmark =>
      obtain ⟨⟨ds, tail⟩, hdigits, h⟩ := bind_eq_ok.mp h
      cases h
      obtain ⟨hrun, htail⟩ := digits_source hdigits
      have hexp : ∀ (sign negative : Bool) es,
          some (sign, ds) = some (negative, es) → IsRun es := by
        rintro sign negative es ⟨⟩
        exact hrun
      -- The sign may be written or left out.
      split at htail
      · subst htail
        exact ⟨_, .signed hmark true ds, rfl, hexp _⟩
      · subst htail
        exact ⟨_, .signed hmark false ds, rfl, hexp _⟩
      · subst htail
        exact ⟨_, .unsigned hmark ds, rfl, hexp _⟩
    · cases h
      exact ⟨[], .none, rfl, nofun⟩
  · cases h
    exact ⟨[], .none, rfl, nofun⟩

theorem numeral_sound (mode : Strictness) :
    Sound (numeral mode : Reader ε Numeral) Numeral.Spelled some := by
  intro text n rest h
  obtain ⟨⟨ds, afterWhole⟩, hw, h⟩ := bind_eq_ok.mp h
  obtain ⟨⟨f, afterFraction⟩, hf, h⟩ := bind_eq_ok.mp h
  obtain ⟨⟨e, rest⟩, he, h⟩ := bind_eq_ok.mp h
  cases h
  obtain ⟨hwhole, hlead, htext⟩ := whole_source hw
  obtain ⟨hfraction, hafter⟩ := fraction_source hf
  obtain ⟨tail, hexp, rfl, hexponent⟩ := exponent_source he
  have hspelled : ∀ negative, Numeral.Spelled ⟨negative, ds, f, e⟩ _ := fun negative =>
    .mk ⟨hwhole, hlead, hfraction, hexponent⟩ hexp
  split at htext
  · refine ⟨_, _, hspelled true, (congrArg ('-' :: ·) htext).trans ?_, rfl⟩
    rw [hafter ⟨true, ds, f, e⟩ rfl]
    simp [Numeral.mantissaText]
  · refine ⟨_, _, hspelled false, htext.trans ?_, rfl⟩
    rw [hafter ⟨false, ds, f, e⟩ rfl]
    simp [Numeral.mantissaText]

theorem number_sound (mode : Strictness) :
    Sound (number mode : Reader ε Number) Numeral.Spelled (Numeral.number? mode) := by
  intro text k rest h
  obtain ⟨⟨n, tail⟩, hn, h⟩ := bind_eq_ok.mp h
  obtain ⟨m, used, hspelled, htext, hm⟩ := numeral_sound mode hn
  obtain rfl := Option.some.inj hm
  refine ⟨m, used, hspelled, ?_⟩
  unfold Numeral.number?
  cases hv : m.value? with
  | some l =>
    simp only [hv] at h
    cases h
    exact ⟨htext, rfl⟩
  | none =>
    cases mode with
    | strict =>
      simp only [hv] at h
      cases h
    | lenient =>
      simp only [hv] at h
      cases h
      exact ⟨htext, rfl⟩

/-! Strings -/

inductive Quoted (ps : List Piece) : List Char → Prop where
  | mk {quoted : List Char} (pieces : Piece.SpelledAll ps quoted) : Quoted ps (quoted ++ ['"'])

/-- Hexadecimal digits are one byte each, so that four bytes are four of them. -/
theorem size_of_hexDigits {cs : List Char} {ns : List Nat} (h : cs.mapM hexDigit? = some ns)
    (size : Nat) : cs.foldl (fun n c => n + c.utf8Size) size = size + cs.length := by
  induction cs generalizing ns size with
  | nil => rfl
  | cons c cs ih =>
    rw [List.mapM_cons] at h
    obtain ⟨n, hn, h⟩ := Option.bind_eq_some_iff.mp h
    obtain ⟨ms, hms, -⟩ := Option.bind_eq_some_iff.mp h
    rw [List.foldl_cons, ih hms, utf8Size_hexDigit hn, List.length_cons]
    omega

theorem codeUnit_source {text rest : List Char} {u : Nat}
    (h : (codeUnit text : Except (ReadError ε) _) = .ok (u, rest)) :
    ∃ used, Piece.Spelled (.unit u) ('\\' :: 'u' :: used) ∧ text = used ++ rest := by
  unfold codeUnit at h
  split at h
  · cases h
  · next hsize =>
    split at h
    · next ns hns =>
      cases h
      have hlength : 4 ≤ text.length := by
        rw [size_of_hexDigits hns, List.length_take] at hsize
        omega
      obtain ⟨a, b, c, d, text, rfl⟩ : ∃ a b c d rest, text = a :: b :: c :: d :: rest := by
        rcases text with _ | ⟨a, _ | ⟨b, _ | ⟨c, _ | ⟨d, text⟩⟩⟩⟩
        · exact absurd hlength (by simp)
        · exact absurd hlength (by simp)
        · exact absurd hlength (by simp)
        · exact absurd hlength (by simp)
        · exact ⟨a, b, c, d, text, rfl⟩
      rcases mapM_eq_some.mp hns with _ | ⟨ha, _ | ⟨hb, _ | ⟨hc, _ | ⟨hd, hnil⟩⟩⟩⟩
      cases hnil
      refine ⟨[a, b, c, d], ?_, rfl⟩
      simp only [List.foldl_cons, List.foldl_nil, Nat.zero_mul, Nat.zero_add]
      exact .unit ha hb hc hd
    · cases h

theorem lowSurrogate_source {high : Nat} {text rest : List Char} {c : Char}
    (h : (lowSurrogate high text : Except (ReadError ε) _) = .ok (c, rest)) :
    ∃ low used, isLowSurrogate low = true ∧ c = joinSurrogates high low ∧
      Piece.Spelled (.unit low) used ∧ text = used ++ rest := by
  unfold lowSurrogate at h
  split at h
  · cases h
  · cases h
  · obtain ⟨⟨low, tail⟩, hunit, h⟩ := bind_eq_ok.mp h
    dsimp only at h
    split at h
    · next hlow =>
      obtain ⟨hc, hrest⟩ := Prod.mk.inj (Except.ok.inj h)
      obtain ⟨used, hspelled, htext⟩ := codeUnit_source hunit
      exact ⟨low, _, hlow, hc.symm, hspelled, by rw [htext, ← hrest]; rfl⟩
    · cases h
  · cases h

/-- What stands after a backslash is one piece, or two that are the halves of a pair. -/
theorem escaped_source {mode : Strictness} {text rest : List Char} {c : Char}
    (h : (escaped mode text : Except (ReadError ε) _) = .ok (c, rest)) :
    ∃ ps used, Piece.SpelledAll ps used ∧ '\\' :: text = used ++ rest ∧
      ∀ qs, Piece.text? mode (ps ++ qs) = (Piece.text? mode qs).map (c :: ·) := by
  unfold escaped at h
  split at h
  · cases h
  · next letter text =>
    split at h
    · next d hescape =>
      cases h
      exact ⟨[.char c], _, .cons (.escape hescape) .nil, rfl, fun qs => rfl⟩
    · split at h
      · next hu =>
        obtain ⟨⟨u, tail⟩, hunit, h⟩ := bind_eq_ok.mp h
        obtain ⟨used, hspelled, htext⟩ := codeUnit_source hunit
        cases mode with
        | lenient =>
          cases h
          exact ⟨[.unit u], _, .cons hspelled .nil, by simp [hu, htext], fun qs => rfl⟩
        | strict =>
          dsimp only at h
          split at h
          · cases h
          · next hnotLow =>
            split at h
            · next hhigh =>
              obtain ⟨low, pair, hlow, hc, hpair, htail⟩ := lowSurrogate_source h
              refine ⟨[.unit u, .unit low], _, .cons hspelled (.cons hpair .nil), ?_, ?_⟩
              · simp [hu, htext, htail]
              · intro qs
                rw [hc]
                exact Piece.text?_pair hnotLow hhigh hlow qs
            · next hnotHigh =>
              cases h
              refine ⟨[.unit u], _, .cons hspelled .nil, by simp [hu, htext], ?_⟩
              intro qs
              exact Piece.text?_single hnotLow hnotHigh qs
      · cases h

theorem stringBody_sound (mode : Strictness) (fuel : List Char) :
    Sound (stringBody mode fuel : Reader ε (List Char)) Quoted (Piece.text? mode) := by
  intro text cs rest h
  induction fuel generalizing text cs with
  | nil =>
    unfold stringBody at h
    split at h
    · cases h
    -- without fuel only the quote that closes is read
    · cases h
      exact ⟨[], _, .mk .nil, rfl, rfl⟩
    · cases h
    · cases ‹[] = _ :: _›
    · cases ‹[] = _ :: _›
  | cons f fuel ih =>
    unfold stringBody at h
    split at h
    · cases h
    · cases h
      exact ⟨[], _, .mk .nil, rfl, rfl⟩
    · cases ‹f :: fuel = []›
    · obtain ⟨-, rfl⟩ := List.cons.inj ‹f :: fuel = _ :: _›
      obtain ⟨⟨c, tail⟩, hescaped, h⟩ := bind_eq_ok.mp h
      obtain ⟨⟨ds, rest⟩, hbody, h⟩ := bind_eq_ok.mp h
      cases h
      obtain ⟨ps, used, hps, htext, hresult⟩ := escaped_source hescaped
      obtain ⟨qs, _, ⟨hqs⟩, rfl, hrest⟩ := ih hbody
      refine ⟨ps ++ qs, _, .mk (hps.append hqs), ?_, ?_⟩
      · rw [htext, List.append_assoc, List.append_assoc, List.append_assoc]
      · rw [hresult, hrest, Option.map_some]
    · next d text hquote hbackslash hfuel =>
      obtain ⟨-, rfl⟩ := List.cons.inj hfuel
      split at h
      · cases h
      · next hcontrol =>
        obtain ⟨⟨ds, rest⟩, hbody, h⟩ := bind_eq_ok.mp h
        cases h
        obtain ⟨qs, _, ⟨hqs⟩, rfl, hrest⟩ := ih hbody
        have hplain : Piece.Spelled (.char d) [d] :=
          .plain (Nat.le_of_not_lt hcontrol) hquote hbackslash
        refine ⟨.char d :: qs, _, .mk (.cons hplain hqs), rfl, ?_⟩
        rw [Piece.text?, hrest, Option.map_some]

theorem string_sound (mode : Strictness) :
    Sound (string mode : Reader ε String) Quoted (Piece.string? mode) := by
  intro text s rest h
  obtain ⟨⟨cs, rest⟩, hcs, h⟩ := bind_eq_ok.mp h
  cases h
  obtain ⟨ps, used, hquoted, htext, hps⟩ := stringBody_sound mode text hcs
  refine ⟨ps, used, hquoted, htext, ?_⟩
  rw [Piece.string?, hps, Option.map_some]

theorem scalar_sound (mode : Strictness) :
    Sound (scalar mode : Reader ε Json) Token.Spelled (Token.value? mode) := by
  intro text v rest h
  unfold scalar at h
  split at h
  · cases h
  · obtain ⟨rfl, rfl⟩ := word_source h
    exact ⟨.null, _, .null, rfl, rfl⟩
  · obtain ⟨rfl, rfl⟩ := word_source h
    exact ⟨.bool true, _, .true, rfl, rfl⟩
  · obtain ⟨rfl, rfl⟩ := word_source h
    exact ⟨.bool false, _, .false, rfl, rfl⟩
  · obtain ⟨⟨s, rest⟩, hs, h⟩ := bind_eq_ok.mp h
    cases h
    obtain ⟨ps, _, ⟨hps⟩, rfl, hresult⟩ := string_sound mode hs
    refine ⟨.string ps, _, .string hps, rfl, ?_⟩
    rw [Token.value?, hresult, Option.map_some]
  · split at h
    · obtain ⟨⟨k, rest⟩, hk, h⟩ := bind_eq_ok.mp h
      cases h
      obtain ⟨n, used, hn, htext, hresult⟩ := number_sound mode hk
      refine ⟨.number n, used, .number hn, htext, ?_⟩
      rw [Token.value?, hresult, Option.map_some]
    · cases h

/-! Lists and objects -/

theorem firstItem_source {more : Bool} {text rest : List Char}
    (h : (firstItem text : Except (ReadError ε) _) = .ok (more, rest)) :
    ∃ blanks, Blank blanks ∧ text = blanks ++ if more then rest else ']' :: rest := by
  unfold firstItem at h
  split at h
  · cases h
  · next hskip =>
    cases h
    exact exists_blanks hskip
  · cases h
    exact exists_blanks rfl

theorem nextItem_source {mode : Strictness} {more : Bool} {text rest : List Char}
    (h : (nextItem mode text : Except (ReadError ε) _) = .ok (more, rest)) :
    ∃ before after, Blank before ∧ Blank after ∧
      text = before ++ if more then ',' :: (after ++ rest) else ']' :: rest := by
  unfold nextItem at h
  split at h
  · cases h
  · next hskip =>
    cases h
    obtain ⟨before, hb, rfl⟩ := exists_blanks hskip
    exact ⟨before, [], hb, nofun, rfl⟩
  · next behind hskip =>
    obtain ⟨before, hb, rfl⟩ := exists_blanks hskip
    obtain ⟨after, ha, hbehind⟩ := leading_blanks behind
    split at h
    · cases h
    · cases h
    · cases h
      refine ⟨before, after, hb, ha, ?_⟩
      rw [if_pos rfl, ← hbehind]
  · cases h

theorem firstMember_source {more : Bool} {text rest : List Char}
    (h : (firstMember text : Except (ReadError ε) _) = .ok (more, rest)) :
    ∃ blanks, Blank blanks ∧ text = blanks ++ if more then '"' :: rest else '}' :: rest := by
  unfold firstMember at h
  split at h
  · cases h
  · next hskip =>
    cases h
    exact exists_blanks hskip
  · next hskip =>
    cases h
    exact exists_blanks hskip
  · cases h

theorem nextMember_source {mode : Strictness} {more : Bool} {text rest : List Char}
    (h : (nextMember mode text : Except (ReadError ε) _) = .ok (more, rest)) :
    ∃ before after, Blank before ∧ Blank after ∧
      text = before ++ if more then ',' :: (after ++ '"' :: rest) else '}' :: rest := by
  unfold nextMember at h
  split at h
  · cases h
  · next hskip =>
    cases h
    obtain ⟨before, hb, rfl⟩ := exists_blanks hskip
    exact ⟨before, [], hb, nofun, rfl⟩
  · next hskip =>
    obtain ⟨before, hb, rfl⟩ := exists_blanks hskip
    split at h
    · cases h
    · cases h
    · next hquote =>
      cases h
      obtain ⟨after, ha, rfl⟩ := exists_blanks hquote
      exact ⟨before, after, hb, ha, rfl⟩
    · cases h
  · cases h

theorem colon_source {text rest : List Char}
    (h : (colon text : Except (ReadError ε) _) = .ok ((), rest)) :
    ∃ blanks, Blank blanks ∧ text = blanks ++ ':' :: rest := by
  unfold colon at h
  split at h
  · next hskip =>
    cases h
    exact exists_blanks hskip
  · cases h
  · cases h

section Sequences

variable {read : Reader ε α} {spelled : β → List Char → Prop} {result : β → Option α}

theorem moreItems_sound (mode : Strictness) (h : Sound read (AfterBlanks spelled) result)
    (fuel : List Char) :
    Sound (moreItems mode read fuel) (SpelledRest spelled ']') (List.mapM result) := by
  intro text as rest has
  induction fuel generalizing text as with
  | nil =>
    obtain ⟨⟨more, tail⟩, hmore, has⟩ := bind_eq_ok.mp has
    cases more with
    | true => cases has
    | false =>
      cases has
      obtain ⟨before, after, hb, -, rfl⟩ := nextItem_source hmore
      exact ⟨[], _, .close hb, by simp, rfl⟩
  | cons c fuel ih =>
    obtain ⟨⟨more, tail⟩, hmore, has⟩ := bind_eq_ok.mp has
    obtain ⟨before, after, hb, ha, htext⟩ := nextItem_source hmore
    cases more with
    | false =>
      cases has
      exact ⟨[], _, .close hb, by simp [htext], rfl⟩
    | true =>
      obtain ⟨⟨a, tail⟩, hhead, has⟩ := bind_eq_ok.mp has
      obtain ⟨⟨as, rest⟩, htail, has⟩ := bind_eq_ok.mp has
      cases has
      obtain ⟨b, _, ⟨hblank, hspelled⟩, hused, hresult⟩ := h hhead
      obtain ⟨bs, used, hbs, hmore, hresults⟩ := ih htail
      refine ⟨b :: bs, _, .comma hb (ha.append hblank) hspelled hbs, ?_, ?_⟩
      · simp [htext, hused, hmore]
      · rw [List.mapM_cons, hresult, hresults]
        rfl

theorem items_sound (mode : Strictness) (h : Sound read (AfterBlanks spelled) result) :
    Sound (items mode read) (SpelledBody spelled ']') (List.mapM result) := by
  intro text as rest has
  obtain ⟨⟨more, tail⟩, hmore, has⟩ := bind_eq_ok.mp has
  obtain ⟨blanks, hb, htext⟩ := firstItem_source hmore
  cases more with
  | false =>
    cases has
    exact ⟨[], _, .empty hb, by simp [htext], rfl⟩
  | true =>
    obtain ⟨⟨a, tail⟩, hhead, has⟩ := bind_eq_ok.mp has
    obtain ⟨⟨as, rest⟩, htail, has⟩ := bind_eq_ok.mp has
    cases has
    obtain ⟨b, _, ⟨hblank, hspelled⟩, hused, hresult⟩ := h hhead
    obtain ⟨bs, used, hbs, hmore, hresults⟩ := moreItems_sound mode h _ htail
    refine ⟨b :: bs, _, .cons (hb.append hblank) hspelled hbs, ?_, ?_⟩
    · simp [htext, hused, hmore]
    · rw [List.mapM_cons, hresult, hresults]
      rfl

end Sequences

section Members

variable {spelled : Document → List Char → Prop} {read : σ → String → Reader ε σ}
  {step : σ → String × Document → Option σ}

/-- What is made of a member comes from a document after its colon. -/
def SoundMembers (read : σ → String → Reader ε σ) (spelled : Document → List Char → Prop)
    (step : σ → String × Document → Option σ) : Prop :=
  ∀ state name, Sound (read state name) (AfterColon spelled) fun d => step state (name, d)

theorem member_source {mode : Strictness} (h : SoundMembers read spelled step) {state next : σ}
    {text : List Char} {key : String} {tail rest : List Char}
    (hkey : (string mode text : Except (ReadError ε) _) = .ok (key, tail))
    (hnext : read state key tail = .ok (next, rest)) :
    ∃ m used, SpelledMember spelled m used ∧ '"' :: text = used ++ rest ∧
      ((Piece.string? mode m.1).bind fun key => step state (key, m.2)) = some next := by
  obtain ⟨name, _, ⟨hname⟩, hquoted, hresult⟩ := string_sound mode hkey
  obtain ⟨d, _, ⟨hb, ha, hd⟩, hcolon, hstep⟩ := h state key hnext
  refine ⟨(name, d), _, .mk hname hb ha hd, ?_, ?_⟩
  · simp [hquoted, hcolon]
  · rw [hresult, Option.bind_some]
    exact hstep

theorem moreMembers_sound (mode : Strictness) (h : SoundMembers read spelled step)
    (fuel : List Char) (state : σ) :
    Sound (moreMembers mode read fuel state) (SpelledRest (SpelledMember spelled) '}')
      fun ms => (Document.named? mode ms).bind (List.foldlM step state) := by
  intro text final rest hfinal
  induction fuel generalizing text state with
  | nil =>
    obtain ⟨⟨more, tail⟩, hmore, hfinal⟩ := bind_eq_ok.mp hfinal
    obtain ⟨before, after, hb, -, htext⟩ := nextMember_source hmore
    cases more with
    | true => cases hfinal
    | false =>
      cases hfinal
      exact ⟨[], _, .close hb, by simp [htext], rfl⟩
  | cons c fuel ih =>
    obtain ⟨⟨more, tail⟩, hmore, hfinal⟩ := bind_eq_ok.mp hfinal
    obtain ⟨before, after, hb, ha, htext⟩ := nextMember_source hmore
    cases more with
    | false =>
      cases hfinal
      exact ⟨[], _, .close hb, by simp [htext], rfl⟩
    | true =>
      obtain ⟨⟨key, tail⟩, hkey, hfinal⟩ := bind_eq_ok.mp hfinal
      obtain ⟨⟨next, tail⟩, hnext, hfinal⟩ := bind_eq_ok.mp hfinal
      obtain ⟨m, used, hm, hmember, hstep⟩ := member_source h hkey hnext
      obtain ⟨ms, _, hms, hrest, hsteps⟩ := ih next hfinal
      refine ⟨m :: ms, _, .comma hb ha hm hms, ?_, ?_⟩
      · simp [htext, hmember, hrest]
      · dsimp only
        rw [foldlM_named, hstep]
        exact hsteps

theorem members_sound (mode : Strictness) (h : SoundMembers read spelled step) (init : σ) :
    Sound (members mode read init) (SpelledBody (SpelledMember spelled) '}')
      fun ms => (Document.named? mode ms).bind (List.foldlM step init) := by
  intro text final rest hfinal
  obtain ⟨⟨more, tail⟩, hmore, hfinal⟩ := bind_eq_ok.mp hfinal
  obtain ⟨blanks, hb, htext⟩ := firstMember_source hmore
  cases more with
  | false =>
    cases hfinal
    exact ⟨[], _, .empty hb, by simp [htext], rfl⟩
  | true =>
    obtain ⟨⟨key, tail⟩, hkey, hfinal⟩ := bind_eq_ok.mp hfinal
    obtain ⟨⟨next, tail⟩, hnext, hfinal⟩ := bind_eq_ok.mp hfinal
    obtain ⟨m, used, hm, hmember, hstep⟩ := member_source h hkey hnext
    obtain ⟨ms, _, hms, hrest, hsteps⟩ := moreMembers_sound mode h _ next hfinal
    refine ⟨m :: ms, _, .cons hb hm hms, ?_, ?_⟩
    · simp [htext, hmember, hrest]
    · dsimp only
      rw [foldlM_named, hstep]
      exact hsteps

theorem Sound.afterColon {read : Reader ε α} {spelled : β → List Char → Prop}
    {result : β → Option α} (h : Sound read (AfterBlanks spelled) result) (f : α → σ) :
    Sound (fun text => do
      let ((), rest) ← colon text
      let (a, rest) ← read rest
      return (f a, rest)) (AfterColon spelled) fun b => (result b).map f := by
  intro text x rest hx
  obtain ⟨⟨⟨⟩, tail⟩, hcolon, hx⟩ := bind_eq_ok.mp hx
  obtain ⟨⟨a, rest⟩, ha, hx⟩ := bind_eq_ok.mp hx
  cases hx
  obtain ⟨before, hb, htext⟩ := colon_source hcolon
  obtain ⟨b, _, ⟨hblank, hspelled⟩, hused, hresult⟩ := h ha
  refine ⟨b, _, .mk hb hblank hspelled, ?_, ?_⟩
  · simp [htext, hused]
  · dsimp only
    rw [hresult, Option.map_some]

end Members

/-! Values -/

theorem member_sound {read : Reader ε Json} {mode : Strictness}
    {spelled : Document → List Char → Prop}
    (h : Sound read (AfterBlanks spelled) (Document.value? mode)) :
    SoundMembers (member read) spelled (valueStep mode addMember) := by
  intro before name text ms rest hms
  obtain ⟨d, used, hd, htext, hresult⟩ := h.afterColon (fun v => (name, v) :: before) hms
  exact ⟨d, used, hd, htext, Option.map_eq_bind.symm.trans hresult⟩

theorem scalar_source {mode : Strictness} {text rest : List Char} {v : Json} {depth : Nat}
    (h : (scalar mode (skipBlanks text) : Except (ReadError ε) _) = .ok (v, rest)) :
    ∃ d used, AfterBlanks (Document.Within depth) d used ∧ text = used ++ rest ∧
      d.value? mode = some v := by
  obtain ⟨blanks, hb, htext⟩ := leading_blanks text
  obtain ⟨t, used, ht, hused, hresult⟩ := scalar_sound mode h
  refine ⟨.token t, _, .mk hb ⟨.token ht, Nat.zero_le _⟩, ?_, hresult⟩
  rw [List.append_assoc, ← hused, ← htext]

/-- Whatever is read as a value is a document that stands for it, within as many brackets as are
allowed. -/
theorem value_sound (mode : Strictness) (depth : Nat) :
    Sound (value mode depth : Reader ε Json) (AfterBlanks (Document.Within depth))
      (Document.value? mode) := by
  induction depth with
  | zero =>
    intro text v rest h
    rw [value] at h
    split at h
    · cases h
    · cases h
    · exact scalar_source h
  | succ depth ih =>
    intro text v rest h
    rw [value] at h
    split at h
    · next hskip =>
      obtain ⟨⟨vs, rest⟩, hvs, h⟩ := bind_eq_ok.mp h
      cases h
      obtain ⟨blanks, hb, htext⟩ := exists_blanks hskip
      obtain ⟨ds, used, hds, hused, hresult⟩ := items_sound mode ih hvs
      refine ⟨.list ds, _, .mk hb (Document.within_list hds), by simp [htext, hused], ?_⟩
      rw [Document.value?, Document.items?_eq, hresult, Option.map_some]
    · next hskip =>
      obtain ⟨⟨vs, rest⟩, hvs, h⟩ := bind_eq_ok.mp h
      cases h
      obtain ⟨blanks, hb, htext⟩ := exists_blanks hskip
      obtain ⟨ms, used, hms, hused, hresult⟩ := members_sound mode (member_sound ih) [] hvs
      refine ⟨.object ms, _, .mk hb (Document.within_object hms), by simp [htext, hused], ?_⟩
      dsimp only at hresult
      rw [foldlM_valueStep] at hresult
      obtain ⟨js, hjs, hfold⟩ := Option.bind_eq_some_iff.mp hresult
      rw [foldlM_addMember, List.append_nil] at hfold
      obtain rfl := Option.some.inj hfold
      rw [Document.value?, hjs, Option.map_some, List.reverse_reverse]
    · exact scalar_source h

theorem skip_sound :
    Sound (skip : Reader ε Unit) (AfterBlanks Document.Spelled) fun _ => some () := by
  intro text u rest h
  obtain ⟨⟨v, rest⟩, hv, h⟩ := bind_eq_ok.mp h
  cases h
  obtain ⟨d, _, ⟨hb, hd, -⟩, htext, -⟩ := value_sound .lenient _ hv
  exact ⟨d, _, .mk hb hd, htext, rfl⟩

/-- A whole text that is read is spelled, with any blanks around it. -/
theorem Sound.all {read : Reader ε α} {spelled : β → List Char → Prop} {result : β → Option α}
    (h : Sound read (AfterBlanks spelled) result) {text : List Char} {a : α}
    (ha : Reader.all read text = .ok a) :
    ∃ b before used after, Blank before ∧ spelled b used ∧ Blank after ∧
      text = before ++ (used ++ after) ∧ result b = some a := by
  obtain ⟨⟨x, after⟩, hx, ha⟩ := bind_eq_ok.mp ha
  obtain ⟨⟨⟩, hfinish, ha⟩ := bind_eq_ok.mp ha
  cases ha
  obtain ⟨b, _, ⟨hb, hspelled⟩, rfl, hresult⟩ := h hx
  refine ⟨b, _, _, after, hb, hspelled, ?_, List.append_assoc .., hresult⟩
  unfold finish at hfinish
  split at hfinish
  · next hempty =>
    obtain ⟨blanks, hblanks, hafter⟩ := exists_blanks (List.isEmpty_iff.mp hempty)
    rw [hafter, List.append_nil]
    exact hblanks
  · cases hfinish

end Reader

end FirstMatch
