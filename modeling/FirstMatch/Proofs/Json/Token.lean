import FirstMatch.Proofs.Json.Document
import FirstMatch.Proofs.Json.Text
import FirstMatch.Proofs.Outcome

/-!
What readers make of numerals, strings and words, however they are spelled. They take up the text
and no more, and they have a result exactly if the token stands for one.
-/

namespace FirstMatch

/-! Blanks -/

theorem isBlank_delimits {c : Char} (h : Reader.isBlank c = true) :
    c.isDigit = false ∧ c ≠ '.' ∧ c ≠ 'e' ∧ c ≠ 'E' := by
  simp only [Reader.isBlank, Bool.or_eq_true, beq_iff_eq] at h
  rcases h with ((rfl | rfl) | rfl) | rfl <;> decide

theorem Blank.delimited {blanks rest : List Char} (h : Blank blanks) (hr : Delimited rest) :
    Delimited (blanks ++ rest) := by
  cases blanks with
  | nil => exact hr
  | cons c blanks => exact delimited_cons _ (isBlank_delimits (h c List.mem_cons_self))

namespace Reader

variable {ε α β σ : Type}

theorem skipBlanks_append {blanks : List Char} (h : Blank blanks) (text : List Char) :
    skipBlanks (blanks ++ text) = skipBlanks text := List.dropWhile_append_of_pos h

/-! Numerals -/

theorem exponent_spelled (mode : Strictness) {e : Option (Bool × List Char)}
    {tail rest : List Char} (h : Numeral.ExponentSpelled e tail)
    (hp : ∀ negative ds, e = some (negative, ds) → IsRun ds) (hr : Delimited rest) :
    (exponent mode (tail ++ rest) : Except (ReadError ε) _) = .ok (e, rest) := by
  cases h with
  | none => exact exponent_none mode hr
  | @signed e hmark negative ds =>
    have hd := digits_run (ε := ε) mode (hp _ _ rfl) hr.noDigit
    cases negative <;>
      simp [exponent, hmark, hd, bind, Except.bind, pure, Except.pure]
  | @unsigned e hmark ds =>
    have hrun := hp _ _ rfl
    have hd := digits_run (ε := ε) mode hrun hr.noDigit
    obtain ⟨c, ds, rfl⟩ : ∃ c tail, ds = c :: tail := List.exists_cons_of_ne_nil hrun.1
    have hc : c.isDigit = true := hrun.2 c List.mem_cons_self
    simp only [List.cons_append, exponent, hmark, if_true]
    split
    · rename_i ht
      obtain ⟨rfl, -⟩ := List.cons.inj ht
      exact absurd hc (by decide)
    · rename_i ht
      obtain ⟨rfl, -⟩ := List.cons.inj ht
      exact absurd hc (by decide)
    · rw [List.cons_append] at hd
      simp only [hd, bind, Except.bind, pure, Except.pure]

theorem noFraction_spelled {e : Option (Bool × List Char)} {tail rest : List Char}
    (h : Numeral.ExponentSpelled e tail) (hr : Delimited rest) : NoFraction (tail ++ rest) := by
  intro c hc
  cases h with
  | none => exact ⟨(hr c hc).1, (hr c hc).2.1⟩
  | signed hmark =>
    obtain rfl := Option.some.inj hc
    rcases hmark with rfl | rfl <;> decide
  | unsigned hmark =>
    obtain rfl := Option.some.inj hc
    rcases hmark with rfl | rfl <;> decide

theorem numeral_spelled (mode : Strictness) {n : Numeral} {text rest : List Char}
    (h : n.Spelled text) (hr : Delimited rest) :
    (numeral mode (text ++ rest) : Except (ReadError ε) _) = .ok (n, rest) := by
  obtain ⟨proper, htail⟩ := h
  have ht := numeral_parts (ε := ε) mode proper (exponent_spelled mode htail proper.exponent hr)
    (noFraction_spelled htail hr)
  simpa only [Numeral.mantissaText, List.append_assoc] using ht

theorem number_spelled (mode : Strictness) {n : Numeral} {text rest : List Char}
    (h : n.Spelled text) (hr : Delimited rest) :
    (number mode (text ++ rest) : Except (ReadError ε) _).toOption =
      (n.number? mode).map (·, rest) := by
  rw [number, numeral_spelled mode h hr, toOption_bind]
  simp only [Except.toOption, Option.bind_some, Numeral.number?]
  cases n.value? with
  | some k => rfl
  | none => cases mode <;> rfl

/-! Strings -/

theorem utf8Size_hexDigit {c : Char} {n : Nat} (h : hexDigit? c = some n) : c.utf8Size = 1 := by
  have hle : c ≤ 'f' := by
    unfold hexDigit? at h
    split at h
    · rename_i hc
      exact Char.le_trans hc.2 (by decide)
    · split at h
      · rename_i hc
        exact hc.2
      · split at h
        · rename_i hc
          exact Char.le_trans hc.2 (by decide)
        · cases h
  have hval : c.val ≤ 'f'.val := hle
  rw [Char.utf8Size_eq_one_iff]
  exact UInt32.le_trans hval (by decide)

theorem codeUnit_spelled {a b c d : Char} {k l m n : Nat} (ha : hexDigit? a = some k)
    (hb : hexDigit? b = some l) (hc : hexDigit? c = some m) (hd : hexDigit? d = some n)
    (rest : List Char) :
    (codeUnit (a :: b :: c :: d :: rest) : Except (ReadError ε) _) =
      .ok (((k * 16 + l) * 16 + m) * 16 + n, rest) := by
  simp [codeUnit, ha, hb, hc, hd, utf8Size_hexDigit ha, utf8Size_hexDigit hb, utf8Size_hexDigit hc,
    utf8Size_hexDigit hd, List.mapM_cons]

theorem stringBody_backslash (mode : Strictness) (f : Char) (fuel text : List Char) :
    (stringBody mode (f :: fuel) ('\\' :: text) : Except (ReadError ε) _).toOption =
      (escaped mode text : Except (ReadError ε) _).toOption.bind fun head =>
        (stringBody mode fuel head.2 : Except (ReadError ε) _).toOption.map fun tail =>
          (head.1 :: tail.1, tail.2) := by
  rw [stringBody, toOption_bind]
  cases (escaped mode text : Except (ReadError ε) _) with
  | error e => rfl
  | ok head =>
    simp only [Except.toOption, Option.bind_some]
    cases (stringBody mode fuel head.2 : Except (ReadError ε) _) <;> rfl

theorem stringBody_plain (mode : Strictness) (f : Char) (fuel text : List Char) {c : Char}
    (hp : 0x20 ≤ c.toNat) (hq : c ≠ '"') (hb : c ≠ '\\') :
    (stringBody mode (f :: fuel) (c :: text) : Except (ReadError ε) _).toOption =
      (stringBody mode fuel text : Except (ReadError ε) _).toOption.map fun tail =>
        (c :: tail.1, tail.2) := by
  rw [stringBody]
  · rw [if_neg (Nat.not_lt.mpr hp), toOption_bind]
    cases (stringBody mode fuel text : Except (ReadError ε) _) <;> rfl
  · rintro rfl
    exact hq rfl
  · rintro rfl
    exact hb rfl

theorem escaped_letter (mode : Strictness) {c letter : Char} (h : escape? letter = some c)
    (text : List Char) :
    (escaped mode (letter :: text) : Except (ReadError ε) _) = .ok (c, text) := by
  rw [escaped, h]

theorem escaped_unit (mode : Strictness) (text : List Char) :
    (escaped mode ('u' :: text) : Except (ReadError ε) _) = numbered mode text := rfl

theorem lowSurrogate_other (high : Nat) {text : List Char}
    (h : ∀ rest, text ≠ '\\' :: 'u' :: rest) :
    (lowSurrogate high text : Except (ReadError ε) _).toOption = none := by
  unfold lowSurrogate
  split
  · rfl
  · rfl
  · exact absurd rfl (h _)
  · rfl

/-- The first half of a pair needs the second as the next piece. -/
theorem lowSurrogate_spelled (high : Nat) {ps : List Piece} {text : List Char}
    (h : Piece.SpelledAll ps text) (hs : ∀ m qs, ps = .unit m :: qs → isLowSurrogate m = false)
    (rest : List Char) :
    (lowSurrogate high (text ++ '"' :: rest) : Except (ReadError ε) _).toOption = none := by
  cases h with
  | nil => exact lowSurrogate_other high nofun
  | @cons p ps t tail hp htail =>
    cases hp with
    | plain hprintable hq hb =>
      refine lowSurrogate_other high fun rest ht => ?_
      exact hb (List.cons.inj ht).1
    | @escape c letter hl =>
      refine lowSurrogate_other high fun rest ht => ?_
      obtain ⟨rfl, -⟩ := List.cons.inj (List.cons.inj ht).2
      cases hl
    | unit ha hb hc hd =>
      simp only [List.cons_append, List.nil_append, lowSurrogate, codeUnit_spelled ha hb hc hd,
        bind, Except.bind, hs _ _ rfl, Bool.false_eq_true, if_false]
      rfl

theorem numbered_spelled (mode : Strictness) {a b c d : Char} {k l m n : Nat}
    (ha : hexDigit? a = some k) (hb : hexDigit? b = some l) (hc : hexDigit? c = some m)
    (hd : hexDigit? d = some n) (rest : List Char) :
    (numbered mode (a :: b :: c :: d :: rest) : Except (ReadError ε) _) =
      match mode with
      | .lenient => .ok (Char.ofNat (((k * 16 + l) * 16 + m) * 16 + n), rest)
      | .strict =>
        if isLowSurrogate (((k * 16 + l) * 16 + m) * 16 + n) then fail .loneSurrogate
        else if isHighSurrogate (((k * 16 + l) * 16 + m) * 16 + n) then
          lowSurrogate (((k * 16 + l) * 16 + m) * 16 + n) rest
        else .ok (Char.ofNat (((k * 16 + l) * 16 + m) * 16 + n), rest) := by
  simp only [numbered, codeUnit_spelled ha hb hc hd, bind, Except.bind]
  cases mode <;> rfl

theorem lowSurrogate_unit (high : Nat) {a b c d : Char} {k l m n : Nat}
    (ha : hexDigit? a = some k) (hb : hexDigit? b = some l) (hc : hexDigit? c = some m)
    (hd : hexDigit? d = some n) (hl : isLowSurrogate (((k * 16 + l) * 16 + m) * 16 + n) = true)
    (rest : List Char) :
    (lowSurrogate high ('\\' :: 'u' :: a :: b :: c :: d :: rest) : Except (ReadError ε) _) =
      .ok (joinSurrogates high (((k * 16 + l) * 16 + m) * 16 + n), rest) := by
  simp only [lowSurrogate, codeUnit_spelled ha hb hc hd, bind, Except.bind, hl, if_true]
  rfl

/-- A number that is the first half of a pair, given what is made of shorter strings. -/
theorem stringBody_half {u : Nat} (hlow : ¬ isLowSurrogate u = true)
    (hhigh : isHighSurrogate u = true) {ps : List Piece} {text fuel rest : List Char}
    (h : Piece.SpelledAll ps text) (hf : text.length ≤ fuel.length)
    (ih : ∀ qs tail, qs.length < ps.length → Piece.SpelledAll qs tail →
      tail.length ≤ fuel.length →
      (stringBody .strict fuel (tail ++ '"' :: rest) : Except (ReadError ε) _).toOption =
        (Piece.text? .strict qs).map (·, rest)) :
    ((lowSurrogate u (text ++ '"' :: rest) : Except (ReadError ε) _).toOption.bind fun head =>
      (stringBody .strict fuel head.2 : Except (ReadError ε) _).toOption.map fun tail =>
        (head.1 :: tail.1, tail.2)) =
      (Piece.text? .strict (.unit u :: ps)).map (·, rest) := by
  by_cases hpair : ∃ v qs, ps = .unit v :: qs ∧ isLowSurrogate v = true
  · obtain ⟨v, qs, rfl, hv⟩ := hpair
    rw [Piece.text?_pair hlow hhigh hv]
    cases h with
    | @cons _ _ head tail hhead htail =>
      cases hhead with
      | unit ha hb hc hd =>
        simp only [List.length_append, List.length_cons] at hf
        have hqs := ih qs tail (Nat.lt_succ_self _) htail (by omega)
        simp only [List.cons_append, List.nil_append, lowSurrogate_unit u ha hb hc hd hv]
        simp only [Except.toOption, Option.bind_some] at hqs ⊢
        rw [hqs]
        cases Piece.text? .strict qs <;> rfl
  · have hhalf : ∀ v qs, ps = .unit v :: qs → isLowSurrogate v = false := by
      intro v qs hps
      cases hv : isLowSurrogate v with
      | false => rfl
      | true => exact absurd ⟨v, qs, hps, hv⟩ hpair
    rw [lowSurrogate_spelled u h hhalf, Piece.text?_half hhigh hhalf]
    rfl

theorem stringBody_spelled (mode : Strictness) {ps : List Piece} {text : List Char}
    (h : Piece.SpelledAll ps text) {fuel : List Char} (hf : text.length ≤ fuel.length)
    (rest : List Char) :
    (stringBody mode fuel (text ++ '"' :: rest) : Except (ReadError ε) _).toOption =
      (Piece.text? mode ps).map (·, rest) := by
  -- The second half of a pair is a piece of its own, so it takes all shorter strings.
  induction hn : ps.length using Nat.strongRecOn generalizing ps text fuel with
  | _ n ih =>
    subst hn
    cases h with
    | nil => cases fuel <;> rfl
    | @cons p ps head tail hp htail =>
      obtain ⟨f, fuel, rfl⟩ : ∃ f more, fuel = f :: more := by
        refine List.exists_cons_of_length_pos ?_
        cases hp <;> simp only [List.length_append, List.length_cons] at hf <;> omega
      have hlen : tail.length ≤ fuel.length := by
        cases hp <;> simp only [List.length_append, List.length_cons] at hf <;> omega
      have htext : (stringBody mode fuel (tail ++ '"' :: rest) : Except (ReadError ε) _).toOption =
          (Piece.text? mode ps).map (·, rest) := ih ps.length (Nat.lt_succ_self _) htail hlen rfl
      cases hp with
      | @plain c hprintable hq hb =>
        rw [List.cons_append, List.nil_append, List.cons_append,
          stringBody_plain mode f fuel _ hprintable hq hb, htext, Piece.text?]
        cases Piece.text? mode ps <;> rfl
      | @escape c letter hl =>
        simp only [List.cons_append, List.nil_append]
        rw [stringBody_backslash, escaped_letter mode hl]
        simp only [Except.toOption, Option.bind_some] at htext ⊢
        rw [htext, Piece.text?]
        cases Piece.text? mode ps <;> rfl
      | @unit a b c d k l m n ha hb hc hd =>
        simp only [List.cons_append, List.nil_append]
        rw [stringBody_backslash, escaped_unit, numbered_spelled mode ha hb hc hd]
        generalize ((k * 16 + l) * 16 + m) * 16 + n = u at ih ⊢
        cases mode with
        | lenient =>
          simp only [Except.toOption, Option.bind_some] at htext ⊢
          rw [htext, Piece.text?]
          cases Piece.text? .lenient ps <;> rfl
        | strict =>
          dsimp only
          by_cases hlow : isLowSurrogate u = true
          · rw [if_pos hlow, Piece.text?_low hlow]
            rfl
          · by_cases hhigh : isHighSurrogate u = true
            · rw [if_neg hlow, if_pos hhigh]
              refine stringBody_half hlow hhigh htail hlen fun qs t hqs ht hle => ?_
              exact ih qs.length (Nat.lt_succ_of_lt hqs) ht hle rfl
            · rw [if_neg hlow, if_neg hhigh, Piece.text?_single hlow hhigh]
              simp only [Except.toOption, Option.bind_some] at htext ⊢
              rw [htext]
              cases Piece.text? .strict ps <;> rfl

theorem string_spelled (mode : Strictness) {ps : List Piece} {text : List Char}
    (h : Piece.SpelledAll ps text) (rest : List Char) :
    (string mode (text ++ '"' :: rest) : Except (ReadError ε) _).toOption =
      (Piece.string? mode ps).map (·, rest) := by
  have hlen : text.length ≤ (text ++ '"' :: rest).length := by simp
  rw [string, toOption_bind, stringBody_spelled mode h hlen, Piece.string?]
  cases Piece.text? mode ps <;> rfl

end Reader

theorem Numeral.Spelled.opens {n : Numeral} {text : List Char} (h : n.Spelled text) :
    Reader.OpensNumeral text := by
  obtain ⟨proper, -⟩ := h
  rw [Numeral.mantissaText, List.append_assoc, List.append_assoc]
  exact Reader.opensNumeral_of_proper proper _

theorem Token.Spelled.opens {t : Token} {text : List Char} (h : t.Spelled text) :
    Reader.OpensScalar text := by
  cases h with
  | null => exact ⟨'n', _, rfl, by decide⟩
  | true => exact ⟨'t', _, rfl, by decide⟩
  | false => exact ⟨'f', _, rfl, by decide⟩
  | number h => exact h.opens.opensScalar
  | string h => exact ⟨'"', _, rfl, by decide⟩

namespace Reader

variable {ε : Type}

theorem scalar_spelled (mode : Strictness) {t : Token} {text rest : List Char}
    (h : t.Spelled text) (hr : Delimited rest) :
    (scalar mode (text ++ rest) : Except (ReadError ε) _).toOption =
      (t.value? mode).map (·, rest) := by
  cases h with
  | null => rfl
  | true => rfl
  | false => rfl
  | @number n text h =>
    have hn := number_spelled (ε := ε) mode h hr
    rw [(h.opens.append rest).scalar_eq, Token.value?]
    cases hnum : (number mode (text ++ rest) : Except (ReadError ε) _) with
    | error e =>
      rw [hnum] at hn
      cases hv : n.number? mode with
      | none => rfl
      | some k => rw [hv] at hn; cases hn
    | ok k =>
      rw [hnum] at hn
      cases hv : n.number? mode with
      | none => rw [hv] at hn; cases hn
      | some l =>
        rw [hv] at hn
        obtain rfl := Option.some.inj hn
        rfl
  | @string ps text h =>
    simp only [List.cons_append, List.append_assoc, List.nil_append, scalar]
    rw [toOption_bind, string_spelled mode h, Token.value?]
    cases Piece.string? mode ps <;> rfl

end Reader

end FirstMatch
