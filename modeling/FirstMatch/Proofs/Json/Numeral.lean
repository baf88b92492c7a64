import FirstMatch.Proofs.Double.Shortest
import FirstMatch.Json.Reader

/-!
Numerals as the printer writes them: each of their parts is a run of digits, and a reader takes
them up part by part, as long as no character follows that could belong to a numeral.
-/

namespace FirstMatch

def IsRun (ds : List Char) : Prop := ds ≠ [] ∧ ∀ c ∈ ds, c.isDigit = true

theorem head?_append_left {as bs : List Char} (h : as ≠ []) : (as ++ bs).head? = as.head? := by
  cases as with
  | nil => exact absurd rfl h
  | cons a as => rfl

def NoDigit (text : List Char) : Prop := ∀ c, text.head? = some c → c.isDigit = false

/-- The text does not go on with anything that belongs to a numeral. -/
def Delimited (text : List Char) : Prop :=
  ∀ c, text.head? = some c → c.isDigit = false ∧ c ≠ '.' ∧ c ≠ 'e' ∧ c ≠ 'E'

/-- The text does not go on with a digit or with a fraction. -/
def NoFraction (text : List Char) : Prop :=
  ∀ c, text.head? = some c → c.isDigit = false ∧ c ≠ '.'

theorem Delimited.noDigit {text : List Char} (h : Delimited text) : NoDigit text :=
  fun c hc => (h c hc).1

theorem delimited_cons {c : Char} (text : List Char)
    (h : c.isDigit = false ∧ c ≠ '.' ∧ c ≠ 'e' ∧ c ≠ 'E') : Delimited (c :: text) := by
  rintro d hd
  obtain rfl := Option.some.inj hd
  exact h

namespace Reader

variable {ε : Type}

theorem takeWhile_run {ds rest : List Char} (hd : ∀ c ∈ ds, c.isDigit = true)
    (hr : NoDigit rest) : (ds ++ rest).takeWhile Char.isDigit = ds := by
  rw [List.takeWhile_append_of_pos hd]
  cases rest with
  | nil => simp
  | cons c rest => simp [hr c rfl]

theorem dropWhile_run {ds rest : List Char} (hd : ∀ c ∈ ds, c.isDigit = true)
    (hr : NoDigit rest) : (ds ++ rest).dropWhile Char.isDigit = rest := by
  rw [List.dropWhile_append_of_pos hd]
  cases rest with
  | nil => rfl
  | cons c rest => simp [hr c rfl]

theorem digits_run (mode : Strictness) {ds rest : List Char} (hd : IsRun ds)
    (hr : NoDigit rest) : (digits mode (ds ++ rest) : Except (ReadError ε) _) = .ok (ds, rest) := by
  obtain ⟨hne, hall⟩ := hd
  simp only [digits, takeWhile_run hall hr, dropWhile_run hall hr]
  cases ds with
  | nil => exact absurd rfl hne
  | cons c ds => rfl

theorem whole_run (mode : Strictness) {ds rest : List Char} (hd : IsRun ds)
    (hl : ds.head? = some '0' → ds = ['0']) (hr : NoDigit rest) :
    (whole mode (ds ++ rest) : Except (ReadError ε) _) = .ok (ds, rest) := by
  by_cases hz : ds.head? = some '0'
  · rw [hl hz]
    simp only [List.cons_append, List.nil_append, whole]
    cases rest with
    | nil => rfl
    | cons c rest => simp [hr c rfl]
  · rw [whole]
    · exact digits_run mode hd hr
    · intro tail ht
      cases ds with
      | nil => exact hd.1 rfl
      | cons c ds =>
        obtain ⟨rfl, _⟩ := List.cons.inj ht
        exact hz rfl

theorem fraction_some (mode : Strictness) {ds rest : List Char} (hd : IsRun ds)
    (hr : NoDigit rest) :
    (fraction mode ('.' :: (ds ++ rest)) : Except (ReadError ε) _) = .ok (some ds, rest) := by
  simp only [fraction, digits_run mode hd hr]
  rfl

theorem fraction_none (mode : Strictness) {rest : List Char}
    (hr : ∀ c, rest.head? = some c → c ≠ '.') :
    (fraction mode rest : Except (ReadError ε) _) = .ok (none, rest) := by
  rw [fraction]
  rintro tail rfl
  exact hr '.' rfl rfl

theorem exponent_some (mode : Strictness) (negative : Bool) {ds rest : List Char}
    (hd : IsRun ds) (hr : NoDigit rest) :
    (exponent mode ('e' :: (if negative then '-' else '+') :: (ds ++ rest)) :
      Except (ReadError ε) _) = .ok (some (negative, ds), rest) := by
  cases negative <;> simp [exponent, digits_run mode hd hr, bind, Except.bind, pure, Except.pure]

theorem exponent_none (mode : Strictness) {rest : List Char} (hr : Delimited rest) :
    (exponent mode rest : Except (ReadError ε) _) = .ok (none, rest) := by
  cases rest with
  | nil => rfl
  | cons c rest =>
    obtain ⟨_, _, he, hE⟩ := hr c rfl
    simp [exponent, he, hE]

end Reader

namespace Numeral

/-- The shape of a numeral: each part is a run, and a zero leads only if it stands alone. -/
structure Proper (n : Numeral) : Prop where
  whole : IsRun n.whole
  lead : n.whole.head? = some '0' → n.whole = ['0']
  fraction : ∀ ds, n.fraction = some ds → IsRun ds
  exponent : ∀ negative ds, n.exponent = some (negative, ds) → IsRun ds

def fractionText (n : Numeral) : List Char :=
  match n.fraction with
  | none => []
  | some digits => '.' :: digits

def exponentText (n : Numeral) : List Char :=
  match n.exponent with
  | none => []
  | some (negative, digits) => 'e' :: (if negative then '-' else '+') :: digits

theorem text_eq (n : Numeral) :
    n.text = (if n.negative then ['-'] else []) ++ n.whole ++ n.fractionText ++ n.exponentText := by
  rfl

theorem exponent_exponentText {ε : Type} (mode : Strictness) {n : Numeral} (h : n.Proper)
    {rest : List Char} (hr : Delimited rest) :
    (Reader.exponent mode (n.exponentText ++ rest) : Except (ReadError ε) _) =
      .ok (n.exponent, rest) := by
  unfold exponentText
  cases he : n.exponent with
  | none => exact Reader.exponent_none mode hr
  | some e =>
    obtain ⟨negative, ds⟩ := e
    exact Reader.exponent_some mode negative (h.exponent negative ds he) hr.noDigit

theorem noFraction_exponentText {n : Numeral} {rest : List Char} (hr : Delimited rest) :
    NoFraction (n.exponentText ++ rest) := by
  intro c hc
  unfold exponentText at hc
  cases he : n.exponent with
  | none =>
    rw [he] at hc
    exact ⟨(hr c hc).1, (hr c hc).2.1⟩
  | some e =>
    rw [he] at hc
    obtain rfl := Option.some.inj hc
    decide

theorem fraction_fractionText {ε : Type} (mode : Strictness) {n : Numeral} (h : n.Proper)
    {rest : List Char} (hr : NoFraction rest) :
    (Reader.fraction mode (n.fractionText ++ rest) : Except (ReadError ε) _) =
      .ok (n.fraction, rest) := by
  unfold fractionText
  cases hf : n.fraction with
  | none => exact Reader.fraction_none mode fun c hc => (hr c hc).2
  | some ds => exact Reader.fraction_some mode (h.fraction ds hf) fun c hc => (hr c hc).1

theorem noDigit_fractionText {n : Numeral} {rest : List Char} (hr : NoFraction rest) :
    NoDigit (n.fractionText ++ rest) := by
  intro c hc
  unfold fractionText at hc
  cases hf : n.fraction with
  | none =>
    rw [hf] at hc
    exact (hr c hc).1
  | some ds =>
    rw [hf] at hc
    obtain rfl := Option.some.inj hc
    decide

end Numeral

namespace Reader

variable {ε : Type}

/-- A numeral is read if what follows its fraction is read as its exponent. -/
theorem numeral_parts (mode : Strictness) {n : Numeral} (h : n.Proper) {tail rest : List Char}
    (he : (exponent mode tail : Except (ReadError ε) _) = .ok (n.exponent, rest))
    (ht : NoFraction tail) :
    (numeral mode ((if n.negative then ['-'] else []) ++ (n.whole ++ (n.fractionText ++ tail))) :
      Except (ReadError ε) _) = .ok (n, rest) := by
  have hw : (whole mode (n.whole ++ (n.fractionText ++ tail)) : Except (ReadError ε) _) =
      .ok (n.whole, n.fractionText ++ tail) :=
    whole_run mode h.whole h.lead (Numeral.noDigit_fractionText ht)
  have hf := Numeral.fraction_fractionText (ε := ε) mode h ht
  obtain ⟨negative, ds, fraction, exponent⟩ := n
  cases negative with
  | true =>
    simp only [if_true, List.cons_append, List.nil_append, numeral]
    simp only [hw, hf, he, bind, Except.bind]
    rfl
  | false =>
    simp only [Bool.false_eq_true, if_false, List.nil_append, numeral]
    split
    · rename_i tail ht
      cases ds with
      | nil => exact absurd rfl h.whole.1
      | cons d ds =>
        obtain ⟨rfl, _⟩ := List.cons.inj ht
        exact absurd (h.whole.2 '-' List.mem_cons_self) (by decide)
    · simp only [hw, hf, he, bind, Except.bind]
      rfl

theorem numeral_text (mode : Strictness) {n : Numeral} (h : n.Proper) {rest : List Char}
    (hr : Delimited rest) :
    (numeral mode (n.text ++ rest) : Except (ReadError ε) _) = .ok (n, rest) := by
  have ht := numeral_parts (ε := ε) mode h (Numeral.exponent_exponentText mode h hr)
    (Numeral.noFraction_exponentText hr)
  simpa only [Numeral.text_eq, List.append_assoc] using ht

theorem number_text {n : Numeral} (h : n.Proper) {rest : List Char} (hr : Delimited rest) :
    (number .strict (n.text ++ rest) : Except (ReadError ε) _) =
      match n.value? with
      | some k => .ok (k, rest)
      | none => fail .numberOutOfRange := by
  simp only [number, numeral_text .strict h hr, bind, Except.bind]
  cases n.value? <;> rfl

end Reader

theorem isRun_toDigits (n : Nat) : IsRun (Nat.toDigits 10 n) :=
  ⟨Nat.toDigits_ne_nil, fun _ hc => Nat.isDigit_of_mem_toDigits (by decide) (by decide) hc⟩

theorem head?_toDigits_ne {n : Nat} (h : 0 < n) : (Nat.toDigits 10 n).head? ≠ some '0' := by
  induction n using Nat.strongRecOn with
  | _ n ih =>
    rcases Nat.lt_or_ge n 10 with hlt | hge
    · rw [Nat.toDigits_of_lt_base hlt]
      have hall : ∀ m, m < 10 → 0 < m → [m.digitChar].head? ≠ some '0' := by decide
      exact hall n hlt h
    · rw [Nat.toDigits_of_base_le (by decide) hge, head?_append_left Nat.toDigits_ne_nil]
      exact ih (n / 10) (by omega) (by omega)

namespace Decimal

theorem digits_eq_significant (d : Decimal) :
    Nat.toDigits 10 d.digits =
      d.significant ++ ((Nat.toDigits 10 d.digits).reverse.takeWhile (· == '0')).reverse := by
  rw [significant, ← List.reverse_append, List.takeWhile_append_dropWhile, List.reverse_reverse]

theorem significant_ne_nil {d : Decimal} (h : 0 < d.digits) : d.significant ≠ [] := by
  intro hn
  have heq := digits_eq_significant d
  rw [hn, List.nil_append] at heq
  cases hd : Nat.toDigits 10 d.digits with
  | nil => exact Nat.toDigits_ne_nil hd
  | cons c cs =>
    have hc : c ∈ (Nat.toDigits 10 d.digits).reverse.takeWhile (· == '0') := by
      rw [← List.mem_reverse, ← heq, hd]
      exact List.mem_cons_self
    have hz : c = '0' := by simpa using List.all_eq_true.mp List.all_takeWhile c hc
    exact head?_toDigits_ne h (by rw [hd, hz]; rfl)

theorem significant_isRun {d : Decimal} (h : 0 < d.digits) : IsRun d.significant := by
  refine ⟨significant_ne_nil h, fun c hc => ?_⟩
  apply (isRun_toDigits d.digits).2
  rw [digits_eq_significant d]
  exact List.mem_append_left _ hc

theorem head?_significant_ne {d : Decimal} (h : 0 < d.digits) :
    d.significant.head? ≠ some '0' := by
  have hd := head?_toDigits_ne h
  rwa [digits_eq_significant d, head?_append_left (significant_ne_nil h)] at hd

end Decimal

namespace Numeral

theorem ofInt_proper (n : Int) : (ofInt n).Proper where
  whole := isRun_toDigits n.natAbs
  lead := by
    intro hz
    rcases Nat.eq_zero_or_pos n.natAbs with h | h
    · simp only [ofInt, h]
      rfl
    · exact absurd hz (head?_toDigits_ne h)
  fraction := by rintro ds ⟨⟩
  exponent := by rintro negative ds ⟨⟩

/-- A whole number that fits 64 bits is read back as it is. -/
theorem value?_ofInt {n : Int} (h : -2 ^ 63 ≤ n ∧ n < 2 ^ 64) :
    (ofInt n).value? = some (.integer n) := by
  have hi : (ofInt n).integer? = some n := by
    simp only [integer?, ofInt, Nat.ofDigitChars_ten_toDigits]
    by_cases hn : n < 0
    · have hr : 0 < n.natAbs ∧ n.natAbs ≤ 2 ^ 63 := by omega
      simp only [hn, decide_true, if_true, hr, and_self]
      congr
      omega
    · have hr : n.natAbs < 2 ^ 64 := by omega
      simp only [hn, decide_false, Bool.false_eq_true, if_false, hr, if_true]
      congr
      omega
  simp only [value?, hi]

theorem isRun_append {as bs : List Char} (h : IsRun as) (hb : ∀ c ∈ bs, c.isDigit = true) :
    IsRun (as ++ bs) := by
  refine ⟨by simp [h.1], fun c hc => ?_⟩
  rcases List.mem_append.mp hc with hc | hc
  · exact h.2 c hc
  · exact hb c hc

theorem isDigit_replicate (k : Nat) : ∀ c ∈ List.replicate k '0', c.isDigit = true := by
  intro c hc
  rw [List.eq_of_mem_replicate hc]
  decide

theorem isRun_take {ds : List Char} (h : IsRun ds) (k : Nat) : IsRun (ds.take (k + 1)) := by
  refine ⟨?_, fun c hc => h.2 c (List.mem_of_mem_take hc)⟩
  obtain ⟨hne, _⟩ := h
  cases ds with
  | nil => exact absurd rfl hne
  | cons c ds => simp

theorem isRun_fractionDigits {ds : List Char} (h : ∀ c ∈ ds, c.isDigit = true) :
    IsRun (fractionDigits ds) := by
  unfold fractionDigits
  cases ds with
  | nil => exact ⟨by simp, by simp⟩
  | cons c ds => exact ⟨by simp, h⟩

theorem isRun_of_pointed {ds es : List Char} (h : IsRun ds) (he : ofDecimal.pointed ds = some es) :
    IsRun es := by
  unfold ofDecimal.pointed at he
  split at he
  · cases he
  · obtain rfl := Option.some.inj he
    refine ⟨?_, fun c hc => h.2 c (List.mem_of_mem_drop hc)⟩
    intro hn
    have := List.drop_eq_nil_iff.mp hn
    omega

theorem lead_take {ds : List Char} (h : ds.head? ≠ some '0') (hne : ds ≠ []) (k : Nat)
    (bs : List Char) :
    (ds.take (k + 1) ++ bs).head? = some '0' → ds.take (k + 1) ++ bs = ['0'] := by
  intro hz
  cases ds with
  | nil => exact absurd rfl hne
  | cons c ds => exact absurd hz h

theorem ofDecimal_proper (negative : Bool) {d : Decimal} (h : 0 < d.digits) :
    (ofDecimal negative d).Proper := by
  have hs : IsRun d.significant := Decimal.significant_isRun h
  have hz : d.significant.head? ≠ some '0' := Decimal.head?_significant_ne h
  have hlead : (d.significant.take 1).head? = some '0' → d.significant.take 1 = ['0'] := by
    have hl := lead_take hz hs.1 0 []
    rwa [List.append_nil] at hl
  unfold ofDecimal
  rcases d.magnitude with k | k
  · by_cases hk : k ≤ 15
    · simp only [hk, if_true]
      refine ⟨?_, ?_, ?_, by rintro negative ds ⟨⟩⟩
      · exact isRun_append (isRun_take hs k) (isDigit_replicate _)
      · exact lead_take hz hs.1 k _
      · rintro ds ⟨⟩
        exact isRun_fractionDigits fun c hc => hs.2 c (List.mem_of_mem_drop hc)
    · simp only [hk, if_false]
      refine ⟨isRun_take hs 0, hlead, fun ds hds => isRun_of_pointed hs hds, ?_⟩
      rintro negative ds ⟨⟩
      exact isRun_toDigits k
  · by_cases hk : k < 5
    · simp only [hk, if_true]
      refine ⟨⟨by simp, by simp⟩, fun _ => rfl, ?_, by rintro negative ds ⟨⟩⟩
      rintro ds ⟨⟩
      refine ⟨by simp [hs.1], fun c hc => ?_⟩
      rcases List.mem_append.mp hc with hc | hc
      · exact isDigit_replicate k c hc
      · exact hs.2 c hc
    · simp only [hk, if_false]
      refine ⟨isRun_take hs 0, hlead, fun ds hds => isRun_of_pointed hs hds, ?_⟩
      rintro negative ds ⟨⟩
      exact isRun_toDigits (k + 1)

theorem ofMagnitude_proper (negative : Bool) (m : Magnitude) : (ofMagnitude negative m).Proper := by
  unfold ofMagnitude
  by_cases hm : m.isZero
  · simp only [hm, if_true]
    refine ⟨⟨by simp, by simp⟩, fun _ => rfl, ?_, by rintro negative ds ⟨⟩⟩
    rintro ds ⟨⟩
    exact ⟨by simp, by simp⟩
  · simp only [hm]
    exact ofDecimal_proper negative (Magnitude.digits_shortest_pos (by simpa using hm))

/-- A float is written with a fraction or an exponent. -/
theorem integer?_ofDecimal (negative : Bool) (d : Decimal) :
    (ofDecimal negative d).integer? = none := by
  unfold ofDecimal
  rcases d.magnitude with k | k
  · by_cases hk : k ≤ 15
    · simp only [hk, if_true, integer?]
    · simp only [hk, if_false, integer?]
      cases ofDecimal.pointed d.significant <;> rfl
  · by_cases hk : k < 5
    · simp only [hk, if_true, integer?]
    · simp only [hk, if_false, integer?]
      cases ofDecimal.pointed d.significant <;> rfl

/-- So it is a float that is read back. -/
theorem value?_ofMagnitude (negative : Bool) (m : Magnitude) :
    (ofMagnitude negative m).value? = (ofMagnitude negative m).float?.map .float := by
  have hi : (ofMagnitude negative m).integer? = none := by
    unfold ofMagnitude
    by_cases hm : m.isZero
    · simp only [hm, if_true, integer?]
    · simp only [hm]
      exact integer?_ofDecimal negative m.shortest
  simp only [value?, hi]

end Numeral

end FirstMatch
