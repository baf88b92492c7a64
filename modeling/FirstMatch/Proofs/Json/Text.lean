import FirstMatch.Json.Printer
import FirstMatch.Proofs.Json.Numeral

/-!
Strings, lists and objects as the printer writes them: what a reader makes of the text of the
whole, given what it makes of the texts of the parts.
-/

namespace FirstMatch

namespace Reader

variable {ε α σ : Type}

/-! Blanks -/

theorem skipBlanks_cons {c : Char} (text : List Char) (h : isBlank c = false) :
    skipBlanks (c :: text) = c :: text := by
  simp only [skipBlanks, List.dropWhile_cons, h, Bool.false_eq_true, if_false]

theorem skipBlanks_bracket (text : List Char) : skipBlanks ('[' :: text) = '[' :: text :=
  skipBlanks_cons text (by decide)

theorem skipBlanks_brace (text : List Char) : skipBlanks ('{' :: text) = '{' :: text :=
  skipBlanks_cons text (by decide)

/-! Strings -/

theorem hexDigit?_digitChar :
    ∀ n, n < 16 → hexDigit? n.digitChar = some n ∧ n.digitChar.utf8Size = 1 := by
  decide

theorem codeUnit_hex {n : Nat} (hn : n < 32) (rest : List Char) :
    (codeUnit ('0' :: '0' :: (n / 16).digitChar :: (n % 16).digitChar :: rest) :
      Except (ReadError ε) _) = .ok (n, rest) := by
  obtain ⟨hh, hhs⟩ := hexDigit?_digitChar (n / 16) (by omega)
  obtain ⟨hl, hls⟩ := hexDigit?_digitChar (n % 16) (by omega)
  have hz : hexDigit? '0' = some 0 ∧ Char.utf8Size '0' = 1 := by decide
  have hn : n / 16 * 16 + n % 16 = n := by omega
  simp [codeUnit, hh, hl, hhs, hls, hz, hn, List.mapM_cons]

theorem numbered_hex (mode : Strictness) {n : Nat} (hn : n < 32) (rest : List Char) :
    (numbered mode ('0' :: '0' :: (n / 16).digitChar :: (n % 16).digitChar :: rest) :
      Except (ReadError ε) _) = .ok (Char.ofNat n, rest) := by
  have hlow : isLowSurrogate n = false := by simp [isLowSurrogate]; omega
  have hhigh : isHighSurrogate n = false := by simp [isHighSurrogate]; omega
  simp only [numbered, codeUnit_hex hn, bind, Except.bind]
  cases mode
  · simp [hlow, hhigh, pure, Except.pure]
  · rfl

/-- One step through a string, as long as there is fuel. -/
theorem stringBody_escapeChar (mode : Strictness) (c f : Char) (fuel text : List Char) :
    (stringBody mode (f :: fuel) (Json.escapeChar c ++ text) : Except (ReadError ε) _) = (do
      let (cs, rest) ← stringBody mode fuel text
      return (c :: cs, rest)) := by
  unfold Json.escapeChar
  split
  case h_8 hq hb _ _ _ _ _ =>
    by_cases hc : c.toNat < 0x20
    · have hn := numbered_hex (ε := ε) mode hc text
      simp only [hc, if_true, List.cons_append, List.nil_append, stringBody, escaped, escape?, hn,
        Char.ofNat_toNat]
      rfl
    · simp only [hc, if_false, List.cons_append, List.nil_append]
      rw [stringBody]
      · simp only [hc, if_false]
      · rintro rfl
        exact hq rfl
      · rintro rfl
        exact hb rfl
  all_goals rfl

theorem stringBody_text (mode : Strictness) (cs fuel rest : List Char)
    (hf : cs.length ≤ fuel.length) :
    (stringBody mode fuel (cs.flatMap Json.escapeChar ++ '"' :: rest) :
      Except (ReadError ε) _) = .ok (cs, rest) := by
  induction cs generalizing fuel with
  | nil => cases fuel <;> rfl
  | cons c cs ih =>
    cases fuel with
    | nil => exact absurd hf (by simp)
    | cons f fuel =>
      have ht := ih fuel (by simpa using hf)
      simp only [List.flatMap_cons, List.append_assoc, stringBody_escapeChar, ht]
      rfl

theorem length_le_escaped (cs : List Char) : cs.length ≤ (cs.flatMap Json.escapeChar).length := by
  induction cs with
  | nil => simp
  | cons c cs ih =>
    have hc : 0 < (Json.escapeChar c).length := by
      unfold Json.escapeChar
      split
      case h_8 => split <;> simp
      all_goals simp
    simp only [List.flatMap_cons, List.length_append, List.length_cons]
    omega

theorem string_text (mode : Strictness) (s : String) (rest : List Char) :
    (string mode (s.toList.flatMap Json.escapeChar ++ '"' :: rest) : Except (ReadError ε) _) =
      .ok (s, rest) := by
  have hl := length_le_escaped s.toList
  have ht := stringBody_text (ε := ε) mode s.toList
    (s.toList.flatMap Json.escapeChar ++ '"' :: rest) rest (by
      rw [List.length_append]
      omega)
  simp only [string, ht, bind, Except.bind, pure, Except.pure, String.ofList_toList]

/-- The text of a value starts with a character that is no blank and closes no list. -/
def Opens (text : List Char) : Prop := ∃ c rest, text = c :: rest ∧ isBlank c = false ∧ c ≠ ']'

/-- A scalar starts with a character that starts nothing else. -/
def OpensScalar (text : List Char) : Prop :=
  ∃ c rest, text = c :: rest ∧ isBlank c = false ∧ c ≠ ']' ∧ c ≠ '[' ∧ c ≠ '{'

theorem OpensScalar.opens {text : List Char} (h : OpensScalar text) : Opens text := by
  obtain ⟨c, rest, ht, hb, hc, _⟩ := h
  exact ⟨c, rest, ht, hb, hc⟩

theorem value_opensScalar (mode : Strictness) (depth : Nat) {text : List Char}
    (h : OpensScalar text) (rest : List Char) :
    (value mode depth (text ++ rest) : Except (ReadError ε) _) = scalar mode (text ++ rest) := by
  obtain ⟨c, tail, rfl, hb, _, hl, ho⟩ := h
  have hs : skipBlanks (c :: tail ++ rest) = c :: (tail ++ rest) := skipBlanks_cons _ hb
  cases depth with
  | zero =>
    rw [value, hs]
    split
    · rename_i ht
      exact absurd (List.cons.inj ht).1 hl
    · rename_i ht
      exact absurd (List.cons.inj ht).1 ho
    · rfl
  | succ depth =>
    rw [value, hs]
    split
    · rename_i ht
      exact absurd (List.cons.inj ht).1 hl
    · rename_i ht
      exact absurd (List.cons.inj ht).1 ho
    · rfl

/-! Numerals -/

def OpensNumeral (text : List Char) : Prop :=
  ∃ c rest, text = c :: rest ∧ (c = '-' ∨ c.isDigit = true)

theorem opensNumeral_of_proper {n : Numeral} (h : n.Proper) (tail : List Char) :
    OpensNumeral ((if n.negative then ['-'] else []) ++ (n.whole ++ tail)) := by
  obtain ⟨hne, hd⟩ := h.whole
  obtain ⟨negative, ds, fraction, exponent⟩ := n
  cases negative with
  | true => exact ⟨'-', _, rfl, .inl rfl⟩
  | false =>
    cases ds with
    | nil => exact absurd rfl hne
    | cons d ds => exact ⟨d, _, rfl, .inr (hd d List.mem_cons_self)⟩

theorem digit_ne {c d : Char} (hc : c.isDigit = true) (hd : d.isDigit = false) : c ≠ d := by
  rintro rfl
  rw [hc] at hd
  cases hd

namespace OpensNumeral

variable {text : List Char}

theorem append (h : OpensNumeral text) (rest : List Char) : OpensNumeral (text ++ rest) := by
  obtain ⟨c, tail, rfl, hc⟩ := h
  exact ⟨c, tail ++ rest, rfl, hc⟩

theorem opensScalar (h : OpensNumeral text) : OpensScalar text := by
  obtain ⟨c, rest, ht, hc⟩ := h
  refine ⟨c, rest, ht, ?_⟩
  rcases hc with rfl | hc
  · decide
  · have hb : isBlank c = false := by
      simp only [isBlank, Bool.or_eq_false_iff, beq_eq_false_iff_ne]
      refine ⟨⟨⟨?_, ?_⟩, ?_⟩, ?_⟩ <;> exact digit_ne hc (by decide)
    refine ⟨hb, ?_, ?_, ?_⟩ <;> exact digit_ne hc (by decide)

theorem scalar_eq (h : OpensNumeral text) (mode : Strictness) :
    (scalar mode text : Except (ReadError ε) _) =
      (number mode text).map fun k => (.number k.1, k.2) := by
  obtain ⟨c, tail, rfl, hc⟩ := h
  have hne : ∀ d : Char, d.isDigit = false → d ≠ '-' → c ≠ d := by
    intro d hd hm
    rcases hc with rfl | hc
    · exact hm.symm
    · exact digit_ne hc hd
  rw [scalar]
  · simp only [hc, if_true]
    cases (number mode (c :: tail) : Except (ReadError ε) _) <;> rfl
  all_goals
    rintro rfl
    exact hne _ (by decide) (by decide) rfl

end OpensNumeral

/-- A reader takes up this text, as long as what follows does not go on with a numeral. -/
def Reads (read : Reader ε α) (text : List Char) (result : Except (ReadError ε) α) : Prop :=
  ∀ rest, Delimited rest → read (text ++ rest) = result.map (·, rest)

theorem Reads.all_eq {read : Reader ε α} {text : List Char} {result : Except (ReadError ε) α}
    (h : Reads read text result) : all read text = result := by
  have hd : Delimited [] := by rintro c ⟨⟩
  have ht := h [] hd
  rw [List.append_nil] at ht
  simp only [all, ht]
  cases result <;> rfl

/-! Lists -/

theorem firstItem_opens {text : List Char} (h : Opens text) (rest : List Char) :
    (firstItem (text ++ rest) : Except (ReadError ε) _) = .ok (true, text ++ rest) := by
  obtain ⟨c, tail, rfl, hb, hc⟩ := h
  rw [List.cons_append, firstItem, skipBlanks_cons _ hb]
  split
  · contradiction
  · rename_i tail' ht
    exact absurd (List.cons.inj ht).1 hc
  · rfl

theorem nextItem_opens (mode : Strictness) {text : List Char} (h : Opens text)
    (rest : List Char) :
    (nextItem mode (',' :: (text ++ rest)) : Except (ReadError ε) _) =
      .ok (true, text ++ rest) := by
  obtain ⟨c, tail, rfl, hb, hc⟩ := h
  have hcomma : isBlank ',' = false := by decide
  simp only [nextItem, List.cons_append, skipBlanks_cons _ hcomma, skipBlanks_cons _ hb]
  split
  · contradiction
  · rename_i tail' ht
    exact absurd (List.cons.inj ht).1 hc
  · rfl

theorem delimited_tail {β : Type} (xs : List β) (f : β → List Char) {c : Char}
    (hc : c.isDigit = false ∧ c ≠ '.' ∧ c ≠ 'e' ∧ c ≠ 'E') (rest : List Char) :
    Delimited (xs.flatMap (fun x => ',' :: f x) ++ c :: rest) := by
  cases xs with
  | nil => exact delimited_cons rest hc
  | cons x xs => exact delimited_cons _ (by decide)

variable {β : Type}

theorem moreItems_text (mode : Strictness) {read : Reader ε α} {f : β → List Char}
    {g : β → Except (ReadError ε) α} {xs : List β} (ho : ∀ x ∈ xs, Opens (f x))
    (hr : ∀ x ∈ xs, Reads read (f x) (g x)) {fuel : List Char} (hf : xs.length ≤ fuel.length)
    (rest : List Char) :
    moreItems mode read fuel (xs.flatMap (fun x => ',' :: f x) ++ ']' :: rest) =
      (xs.mapM g).map (·, rest) := by
  induction xs generalizing fuel with
  | nil =>
    cases fuel with
    | nil => rw [moreItems]; rfl
    | cons c fuel => rw [moreItems]; rfl
  | cons x xs ih =>
    cases fuel with
    | nil => exact absurd hf (by simp)
    | cons c fuel =>
      have htail : Delimited (xs.flatMap (fun x => ',' :: f x) ++ ']' :: rest) :=
        delimited_tail xs f (by decide) rest
      have hx := hr x List.mem_cons_self _ htail
      have hxs := ih (fun y hy => ho y (List.mem_cons_of_mem x hy))
        (fun y hy => hr y (List.mem_cons_of_mem x hy)) (by simpa using hf)
      have hn := nextItem_opens (ε := ε) mode (ho x List.mem_cons_self)
        (xs.flatMap (fun x => ',' :: f x) ++ ']' :: rest)
      simp only [List.flatMap_cons, List.cons_append, List.append_assoc, moreItems, hn, bind,
        Except.bind, hx, List.mapM_cons, if_true]
      cases g x with
      | error e => rfl
      | ok y =>
        simp only [Except.map, hxs]
        cases xs.mapM g <;> rfl

theorem length_le_tail (xs : List β) (f : β → List Char) (rest : List Char) :
    xs.length ≤ (xs.flatMap (fun x => ',' :: f x) ++ rest).length := by
  induction xs with
  | nil => simp
  | cons x xs ih =>
    simp only [List.flatMap_cons, List.cons_append, List.append_assoc, List.length_cons,
      List.length_append] at ih ⊢
    omega

theorem itemsChars_cons (v : Json) (vs : List Json) :
    Json.itemsChars (v :: vs) = v.chars ++ vs.flatMap fun w => ',' :: w.chars := by
  induction vs generalizing v with
  | nil => simp [Json.itemsChars]
  | cons w vs ih => simp [Json.itemsChars, ih w]

theorem items_text (mode : Strictness) {read : Reader ε α} {j : β → Json}
    {g : β → Except (ReadError ε) α} {xs : List β} (ho : ∀ x ∈ xs, Opens (j x).chars)
    (hr : ∀ x ∈ xs, Reads read (j x).chars (g x)) (rest : List Char) :
    items mode read (Json.itemsChars (xs.map j) ++ ']' :: rest) = (xs.mapM g).map (·, rest) := by
  cases xs with
  | nil => rfl
  | cons x xs =>
    have htail : Delimited (xs.flatMap (fun x => ',' :: (j x).chars) ++ ']' :: rest) :=
      delimited_tail xs _ (by decide) rest
    have hx := hr x List.mem_cons_self _ htail
    have hxs := moreItems_text mode (fun y hy => ho y (List.mem_cons_of_mem x hy))
      (fun y hy => hr y (List.mem_cons_of_mem x hy))
      (length_le_tail xs (fun x => (j x).chars) (']' :: rest)) rest
    have hn := firstItem_opens (ε := ε) (ho x List.mem_cons_self)
      (xs.flatMap (fun x => ',' :: (j x).chars) ++ ']' :: rest)
    simp only [List.map_cons, itemsChars_cons, List.flatMap_map, List.append_assoc, items, hn,
      bind, Except.bind, hx, List.mapM_cons, if_true]
    cases g x with
    | error e => rfl
    | ok y =>
      simp only [Except.map, hxs]
      cases xs.mapM g <;> rfl

/-! Objects -/

theorem firstMember_quote (s : String) (rest : List Char) :
    (firstMember (Json.quote s ++ rest) : Except (ReadError ε) _) =
      .ok (true, s.toList.flatMap Json.escapeChar ++ '"' :: rest) := by
  simp only [Json.quote, List.cons_append, List.append_assoc, List.nil_append]
  rfl

theorem nextMember_quote (mode : Strictness) (s : String) (rest : List Char) :
    (nextMember mode (',' :: (Json.quote s ++ rest)) : Except (ReadError ε) _) =
      .ok (true, s.toList.flatMap Json.escapeChar ++ '"' :: rest) := by
  simp only [Json.quote, List.cons_append, List.append_assoc, List.nil_append]
  rfl

def memberChars (m : String × Json) : List Char := Json.quote m.1 ++ ':' :: m.2.chars

theorem memberChars_append (m : String × Json) (rest : List Char) :
    memberChars m ++ rest = Json.quote m.1 ++ ':' :: (m.2.chars ++ rest) := by
  simp only [memberChars, List.append_assoc, List.cons_append]

theorem membersChars_cons (m : String × Json) (ms : List (String × Json)) :
    Json.membersChars (m :: ms) = memberChars m ++ ms.flatMap fun n => ',' :: memberChars n := by
  induction ms generalizing m with
  | nil => simp [Json.membersChars, memberChars]
  | cons n ms ih =>
    obtain ⟨name, value⟩ := m
    simp [Json.membersChars, memberChars, ih n]

theorem moreMembers_text (mode : Strictness) {read : σ → String → Reader ε σ}
    {step : σ → String × Json → Except (ReadError ε) σ} {ms : List (String × Json)}
    (hr : ∀ m ∈ ms, ∀ s, Reads (read s m.1) (':' :: m.2.chars) (step s m)) {fuel : List Char}
    (hf : ms.length ≤ fuel.length) (state : σ) (rest : List Char) :
    moreMembers mode read fuel state
        (ms.flatMap (fun m => ',' :: memberChars m) ++ '}' :: rest) =
      (ms.foldlM step state).map (·, rest) := by
  induction ms generalizing fuel state with
  | nil =>
    cases fuel with
    | nil => rw [moreMembers]; rfl
    | cons c fuel => rw [moreMembers]; rfl
  | cons m ms ih =>
    cases fuel with
    | nil => exact absurd hf (by simp)
    | cons c fuel =>
      have htail : Delimited (ms.flatMap (fun m => ',' :: memberChars m) ++ '}' :: rest) :=
        delimited_tail ms memberChars (by decide) rest
      have hm := hr m List.mem_cons_self state _ htail
      rw [List.cons_append] at hm
      have hlen : ms.length ≤ fuel.length := by simpa using hf
      have hms := ih (fun n hn => hr n (List.mem_cons_of_mem m hn)) hlen
      simp only [List.flatMap_cons, List.cons_append, List.append_assoc, memberChars_append,
        moreMembers, nextMember_quote, string_text, hm, bind, Except.bind, if_true,
        List.foldlM_cons]
      cases step state m with
      | error e => rfl
      | ok next => exact hms next

theorem members_text (mode : Strictness) {read : σ → String → Reader ε σ}
    (step : σ → String × Json → Except (ReadError ε) σ) {ms : List (String × Json)}
    (hr : ∀ m ∈ ms, ∀ s, Reads (read s m.1) (':' :: m.2.chars) (step s m)) (init : σ)
    (rest : List Char) :
    members mode read init (Json.membersChars ms ++ '}' :: rest) =
      (ms.foldlM step init).map (·, rest) := by
  cases ms with
  | nil => rfl
  | cons m ms =>
    have htail : Delimited (ms.flatMap (fun m => ',' :: memberChars m) ++ '}' :: rest) :=
      delimited_tail ms memberChars (by decide) rest
    have hm := hr m List.mem_cons_self init _ htail
    rw [List.cons_append] at hm
    have hms := moreMembers_text mode (fun n hn => hr n (List.mem_cons_of_mem m hn))
      (length_le_tail ms memberChars ('}' :: rest))
    simp only [membersChars_cons, List.cons_append, List.append_assoc, memberChars_append, members,
      firstMember_quote, string_text, hm, bind, Except.bind, if_true, List.foldlM_cons]
    cases step init m with
    | error e => rfl
    | ok next => exact hms next rest

end Reader

end FirstMatch
