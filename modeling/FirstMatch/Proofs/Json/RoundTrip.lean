import FirstMatch.Proofs.Json.Canonical
import FirstMatch.Proofs.Json.Floats
import FirstMatch.Proofs.Json.Text

/-!
Reading a value back from its text. Everything comes back as it was, except that a float comes
back as what its numeral is read as, which need not be the same float, and that reading fails if a
numeral is too large to be read.
-/

namespace FirstMatch

namespace Double

/-- What the text of a float is read as. -/
def reread? (x : Double) : Option Double :=
  match Json.ofText? (Json.number (.float x)).text with
  | .ok (.number (.float y)) => some y
  | _ => none

def reread (x : Double) : Double := x.reread?.getD x

end Double

def Readable (xs : List Double) : Prop := ∀ x ∈ xs, x.reread?.isSome = true

instance (xs : List Double) : Decidable (Readable xs) :=
  inferInstanceAs (Decidable (∀ x ∈ xs, x.reread?.isSome = true))

theorem readable_append {xs ys : List Double} :
    Readable (xs ++ ys) ↔ Readable xs ∧ Readable ys := by
  constructor
  · intro h
    constructor
    · intro x hx
      exact h x (List.mem_append_left ys hx)
    · intro x hx
      exact h x (List.mem_append_right xs hx)
  · rintro ⟨hx, hy⟩ x h
    rcases List.mem_append.mp h with h | h
    · exact hx x h
    · exact hy x h

namespace Reader

variable {ε α β : Type}

/-- What is read where these floats stand in the text. -/
def ifReadable (xs : List Double) (a : α) : Except (ReadError ε) α :=
  if Readable xs then .ok a else fail .numberOutOfRange

theorem ifReadable_nil (a : α) : (ifReadable [] a : Except (ReadError ε) α) = .ok a := by
  have h : Readable [] := by
    intro x hx
    cases hx
  simp only [ifReadable, h, if_true]

theorem map_ifReadable (f : α → β) (xs : List Double) (a : α) :
    (ifReadable xs a : Except (ReadError ε) α).map f = ifReadable xs (f a) := by
  unfold ifReadable
  split <;> rfl

theorem ifReadable_bind {xs ys : List Double} {a : α} {b : β} {f : α → Except (ReadError ε) β}
    (h : f a = ifReadable ys b) :
    (ifReadable xs a >>= f) = ifReadable (xs ++ ys) b := by
  by_cases hx : Readable xs
  · have ha : (ifReadable xs a : Except (ReadError ε) α) = .ok a := if_pos hx
    rw [ha]
    change f a = _
    rw [h]
    simp only [ifReadable, readable_append, hx, true_and]
  · simp only [ifReadable, readable_append, hx, false_and, if_false]
    rfl

/-! Scalars -/

theorem opensNumeral_text {n : Numeral} (h : n.Proper) : OpensNumeral n.text := by
  rw [Numeral.text_eq, List.append_assoc, List.append_assoc]
  exact opensNumeral_of_proper h _

theorem opensScalar_numeral {n : Numeral} (h : n.Proper) : OpensScalar n.text :=
  (opensNumeral_text h).opensScalar

theorem scalar_numeral (mode : Strictness) {n : Numeral} (h : n.Proper) (rest : List Char) :
    (scalar mode (n.text ++ rest) : Except (ReadError ε) _) =
      (number mode (n.text ++ rest)).map fun k => (.number k.1, k.2) :=
  ((opensNumeral_text h).append rest).scalar_eq mode

theorem scalar_float (negative : Bool) (m : Magnitude) :
    Reads (scalar .strict : Reader ε Json) (Numeral.ofMagnitude negative m).text
      (match (Numeral.ofMagnitude negative m).float? with
        | some y => .ok (.number (.float y))
        | none => fail .numberOutOfRange) := by
  intro rest hr
  have hp := Numeral.ofMagnitude_proper negative m
  rw [scalar_numeral .strict hp, number_text hp hr, Numeral.value?_ofMagnitude]
  cases (Numeral.ofMagnitude negative m).float? <;> rfl

end Reader

theorem Double.reread?_finite (negative : Bool) (m : Magnitude) :
    (Double.finite negative m).reread? = (Numeral.ofMagnitude negative m).float? := by
  have hp := Numeral.ofMagnitude_proper negative m
  have hv : Reader.Reads (@Reader.value Empty .strict Json.maxHeight)
      (Numeral.ofMagnitude negative m).text
      (match (Numeral.ofMagnitude negative m).float? with
        | some y => .ok (.number (.float y))
        | none => Reader.fail .numberOutOfRange) := by
    intro rest hr
    rw [Reader.value_opensScalar .strict _ (Reader.opensScalar_numeral hp)]
    exact Reader.scalar_float negative m rest hr
  have ht : (Json.number (.float (.finite negative m))).text.toList =
      (Numeral.ofMagnitude negative m).text := String.toList_ofList
  simp only [reread?, Json.ofText?, ht, hv.all_eq]
  cases (Numeral.ofMagnitude negative m).float? <;> rfl

namespace Reader

variable {ε α β : Type}

theorem ifReadable_float (negative : Bool) (m : Magnitude) :
    (ifReadable [.finite negative m] (.number (.float (Double.finite negative m).reread)) :
      Except (ReadError ε) Json) =
      (match (Numeral.ofMagnitude negative m).float? with
        | some y => .ok (.number (.float y))
        | none => fail .numberOutOfRange) := by
  rw [← Double.reread?_finite]
  unfold ifReadable Double.reread
  cases h : (Double.finite negative m).reread? with
  | none =>
    have hn : ¬ Readable [.finite negative m] := by
      intro hx
      have := hx _ List.mem_cons_self
      rw [h] at this
      cases this
    simp only [hn, if_false]
  | some y =>
    have hy : Readable [.finite negative m] := by
      intro x hx
      rw [List.mem_singleton.mp hx, h]
      rfl
    simp only [hy, if_true, Option.getD_some]

theorem opensScalar_chars {v : Json} (hw : v.NumbersFit) (hh : v.height = 0) :
    OpensScalar v.chars := by
  cases v with
  | null => exact ⟨'n', ['u', 'l', 'l'], rfl, by decide⟩
  | bool b =>
    cases b with
    | false => exact ⟨'f', ['a', 'l', 's', 'e'], rfl, by decide⟩
    | true => exact ⟨'t', ['r', 'u', 'e'], rfl, by decide⟩
  | number k =>
    cases k with
    | integer n => exact opensScalar_numeral (Numeral.ofInt_proper n)
    | float x =>
      cases x with
      | finite negative m => exact opensScalar_numeral (Numeral.ofMagnitude_proper negative m)
      | nan => cases hw
      | infinite negative => cases hw
  | string s => exact ⟨'"', _, rfl, by decide⟩
  | list items => cases hh
  | object members => cases hh

theorem opens_chars {v : Json} (hw : v.NumbersFit) : Opens v.chars := by
  cases v with
  | list items => exact ⟨'[', _, rfl, by decide⟩
  | object members => exact ⟨'{', _, rfl, by decide⟩
  | _ => exact (opensScalar_chars hw rfl).opens

theorem scalar_text {v : Json} (hw : v.NumbersFit) (hh : v.height = 0) :
    Reads (scalar .strict : Reader ε Json) v.chars
      (ifReadable v.floats (v.mapFloats Double.reread)) := by
  intro rest hr
  cases v with
  | null => rw [Json.floats, ifReadable_nil]; rfl
  | bool b => cases b <;> rw [Json.floats, ifReadable_nil] <;> rfl
  | number k =>
    cases k with
    | integer n =>
      have hp := Numeral.ofInt_proper n
      rw [Json.floats, ifReadable_nil]
      change scalar .strict ((Numeral.ofInt n).text ++ rest) = _
      rw [scalar_numeral .strict hp, number_text hp hr, Numeral.value?_ofInt hw]
      rfl
    | float x =>
      cases x with
      | finite negative m =>
        rw [Json.floats, Json.mapFloats, ifReadable_float]
        exact scalar_float negative m rest hr
      | nan => cases hw
      | infinite negative => cases hw
  | string s =>
    rw [Json.floats, ifReadable_nil]
    simp only [Json.chars, Json.quote, List.cons_append, List.append_assoc, List.nil_append,
      scalar, string_text]
    rfl
  | list items => cases hh
  | object members => cases hh

/-! Lists and objects -/

theorem mapM_ifReadable (floats : β → List Double) (f : β → α) (xs : List β) :
    (xs.mapM fun x => (ifReadable (floats x) (f x) : Except (ReadError ε) α)) =
      ifReadable (xs.flatMap floats) (xs.map f) := by
  induction xs with
  | nil => exact (ifReadable_nil []).symm
  | cons x xs ih =>
    have hm : ∀ y : α, (do
        let ys ← (ifReadable (xs.flatMap floats) (xs.map f) : Except (ReadError ε) _)
        pure (y :: ys)) = ifReadable (xs.flatMap floats) (y :: xs.map f) :=
      fun y => map_ifReadable (y :: ·) _ _
    rw [List.mapM_cons, ih]
    exact ifReadable_bind (hm (f x))

def rereadMember (before : List (String × Json)) (m : String × Json) :
    Except (ReadError ε) (List (String × Json)) :=
  ifReadable m.2.floats ((m.1, m.2.mapFloats Double.reread) :: before)

theorem foldlM_rereadMember (members before : List (String × Json)) :
    (members.foldlM rereadMember before : Except (ReadError ε) _) =
      ifReadable (Json.floatsMembers members)
        ((Json.mapFloatsMembers Double.reread members).reverse ++ before) := by
  induction members generalizing before with
  | nil => exact (ifReadable_nil before).symm
  | cons m members ih =>
    rw [List.foldlM_cons, Json.floatsMembers, Json.mapFloatsMembers, List.reverse_cons,
      List.append_assoc]
    exact ifReadable_bind (ih _)

/-- A member of an object: a colon, and the value of which something is made. -/
theorem reads_colon {read : Reader ε α} {text : List Char} {xs : List Double} {a : α}
    (h : Reads read text (ifReadable xs a)) (f : α → β) :
    Reads (fun text => do
      let ((), rest) ← colon text
      let (x, rest) ← read rest
      return (f x, rest)) (':' :: text) (ifReadable xs (f a)) := by
  intro rest hr
  have hc : (colon (':' :: (text ++ rest)) : Except (ReadError ε) _) = .ok ((), text ++ rest) :=
    rfl
  simp only [List.cons_append, hc, bind, Except.bind, h rest hr, ifReadable]
  by_cases hx : Readable xs
  · simp only [hx, if_true]
    rfl
  · simp only [hx, if_false]
    rfl

theorem member_text {read : Reader ε Json} {v : Json}
    (hv : Reads read v.chars (ifReadable v.floats (v.mapFloats Double.reread)))
    (before : List (String × Json)) (name : String) :
    Reads (member read before name) (':' :: v.chars) (rereadMember before (name, v)) :=
  reads_colon hv fun w => (name, w) :: before

/-- The text of a value, as long as it is not nested too deep. -/
theorem value_text (depth : Nat) {v : Json} (hw : v.NumbersFit) (hh : v.height ≤ depth) :
    Reads (value .strict depth : Reader ε Json) v.chars
      (ifReadable v.floats (v.mapFloats Double.reread)) := by
  induction depth generalizing v with
  | zero =>
    intro rest hr
    have hz : v.height = 0 := by omega
    rw [value_opensScalar .strict 0 (opensScalar_chars hw hz)]
    exact scalar_text hw hz rest hr
  | succ depth ih =>
    intro rest hr
    cases v with
    | list items =>
      have hi : ∀ v ∈ items, v.NumbersFit ∧ v.height ≤ depth := fun v hv =>
        ⟨Json.numbersFit_of_mem_items hw hv, by
          have := Json.height_le_of_mem_items hv
          rw [Json.height] at hh
          omega⟩
      have ht := items_text .strict (j := id) (fun v hv => opens_chars (hi v hv).1)
        (fun v hv => ih (hi v hv).1 (hi v hv).2) rest
      simp only [List.map_id, id_eq, mapM_ifReadable, ← Json.floatsItems_eq,
        ← Json.mapFloatsItems_eq] at ht
      simp only [Json.chars, List.cons_append, List.append_assoc, List.nil_append, value,
        skipBlanks_bracket, ht, map_ifReadable, Json.floats, Json.mapFloats]
      unfold ifReadable
      split <;> rfl
    | object members =>
      have hm : ∀ m ∈ members, m.2.NumbersFit ∧ m.2.height ≤ depth := fun m hm =>
        ⟨Json.numbersFit_of_mem_members hw hm, by
          have := Json.height_le_of_mem_members hm
          rw [Json.height] at hh
          omega⟩
      have ht := members_text .strict rereadMember
        (fun m hm' before => member_text (ih (hm m hm').1 (hm m hm').2) before m.1) [] rest
      rw [foldlM_rereadMember] at ht
      simp only [Json.chars, List.cons_append, List.append_assoc, List.nil_append, value,
        skipBlanks_brace, ht, map_ifReadable, Json.floats, Json.mapFloats, List.append_nil]
      unfold ifReadable
      split
      · simp [bind, Except.bind, pure, Except.pure]
      · rfl
    | _ =>
      rw [value_opensScalar .strict _ (opensScalar_chars hw rfl)]
      exact scalar_text hw rfl rest hr

end Reader

namespace Json

theorem text_ofInt (k : Int) : (Number.ofInt k).text = toString k := by
  cases k with
  | ofNat n =>
    have hsign : ¬ (n : Int) < 0 := by omega
    simp [Number.ofInt, text, chars, Number.text, Numeral.text, Numeral.ofInt, hsign, toString,
      Int.repr, Nat.repr]
  | negSucc n =>
    simp [Number.ofInt, text, chars, Number.text, Numeral.text, Numeral.ofInt, toString, Int.repr,
      Nat.repr, Int.negSucc_lt_zero]

theorem ofText?_toString {k : Int} (h : -2 ^ 63 ≤ k ∧ k < 2 ^ 64) :
    ofText? (toString k) = .ok (Number.ofInt k) := by
  have hfit : (Number.ofInt k).NumbersFit := h
  have hheight : (Number.ofInt k).height ≤ maxHeight := Nat.zero_le maxHeight
  have hread := (Reader.value_text (ε := Empty) maxHeight hfit hheight).all_eq
  have hchars : (toString k).toList = (Number.ofInt k).chars := by
    rw [← text_ofInt, text, String.toList_ofList]
  rw [ofText?, hchars, hread]
  rfl

end Json

end FirstMatch
