import FirstMatch.CommandLine.Run
import FirstMatch.Proofs.Json.Numeral

/-!
Results take one line each. The compact text of a value holds no control characters, whatever is in
its strings and names, so that the end of a line ends a result.
-/

namespace FirstMatch

/-- No character that ends a line or steers the output in another way. -/
def Printable (text : List Char) : Prop := ∀ c ∈ text, 0x20 ≤ c.toNat

instance (text : List Char) : Decidable (Printable text) :=
  List.decidableBAll (fun c : Char => 0x20 ≤ c.toNat) text

namespace Printable

variable {c : Char} {text rest : List Char}

theorem append (h : Printable text) (hrest : Printable rest) : Printable (text ++ rest) :=
  List.forall_mem_append.mpr ⟨h, hrest⟩

theorem cons (hc : 0x20 ≤ c.toNat) (h : Printable text) : Printable (c :: text) :=
  List.forall_mem_cons.mpr ⟨hc, h⟩

theorem flatMap {α : Type} {f : α → List Char} (h : ∀ x, Printable (f x)) (xs : List α) :
    Printable (xs.flatMap f) := by
  intro c hc
  obtain ⟨x, -, hx⟩ := List.mem_flatMap.mp hc
  exact h x c hx

theorem newline_notMem (h : Printable text) : '\n' ∉ text :=
  fun hn => absurd (h '\n' hn) (by decide)

end Printable

namespace Numeral

theorem printable_of_isRun {ds : List Char} (h : IsRun ds) : Printable ds := by
  intro c hc
  have hzero : '0'.toNat ≤ c.toNat := (Char.isDigit_iff_toNat.mp (h.2 c hc)).1
  exact Nat.le_trans (by decide) hzero

theorem Proper.printable {n : Numeral} (h : n.Proper) : Printable n.text := by
  have hsign : Printable (if n.negative then ['-'] else []) := by
    cases n.negative <;> decide
  have hfraction : Printable n.fractionText := by
    unfold fractionText
    cases hf : n.fraction with
    | none => exact nofun
    | some digits => exact .cons (by decide) (printable_of_isRun (h.fraction digits hf))
  have hexponent : Printable n.exponentText := by
    unfold exponentText
    cases he : n.exponent with
    | none => exact nofun
    | some e =>
      obtain ⟨negative, digits⟩ := e
      have hmark : 0x20 ≤ (if negative then '-' else '+').toNat := by cases negative <;> decide
      exact .cons (by decide) (.cons hmark (printable_of_isRun (h.exponent negative digits he)))
  rw [text_eq]
  exact ((hsign.append (printable_of_isRun h.whole)).append hfraction).append hexponent

end Numeral

namespace Json

theorem printable_number (n : Number) : Printable n.text := by
  cases n with
  | integer n => exact (Numeral.ofInt_proper n).printable
  | float x =>
    cases x with
    | finite negative m => exact (Numeral.ofMagnitude_proper negative m).printable
    | nan | infinite _ =>
      have hnull : Printable "null".toList := by decide
      exact hnull

theorem printable_escapeChar (c : Char) : Printable (escapeChar c) := by
  have hdigit : ∀ k < 16, 0x20 ≤ k.digitChar.toNat := by decide
  unfold escapeChar
  split
  · decide
  · decide
  · decide
  · decide
  · decide
  · decide
  · decide
  · split
    · have hprefix : Printable ['\\', 'u', '0', '0'] := by decide
      have hdigits : Printable [(c.toNat / 16).digitChar, (c.toNat % 16).digitChar] :=
        .cons (hdigit _ (by omega)) (.cons (hdigit _ (by omega)) nofun)
      exact hprefix.append hdigits
    · exact .cons (by omega) nofun

theorem printable_quote (s : String) : Printable (quote s) :=
  (Printable.cons (by decide) (.flatMap printable_escapeChar s.toList)).append (by decide)

mutual

theorem printable_chars : ∀ v : Json, Printable v.chars
  | .null | .bool true | .bool false => by decide
  | .number n => printable_number n
  | .string s => printable_quote s
  | .list items => (Printable.cons (by decide) (printable_itemsChars items)).append (by decide)
  | .object members =>
    (Printable.cons (by decide) (printable_membersChars members)).append (by decide)

theorem printable_itemsChars : ∀ items : List Json, Printable (itemsChars items)
  | [] => nofun
  | [item] => printable_chars item
  | item :: next :: rest =>
    (printable_chars item).append (.cons (by decide) (printable_itemsChars (next :: rest)))

theorem printable_membersChars : ∀ members : List (String × Json), Printable (membersChars members)
  | [] => nofun
  | [(name, value)] => (printable_quote name).append (.cons (by decide) (printable_chars value))
  | (name, value) :: next :: rest =>
    ((printable_quote name).append (.cons (by decide) (printable_chars value))).append
      (.cons (by decide) (printable_membersChars (next :: rest)))

end

end Json

namespace OutputLine

theorem result_newline_notMem (x y : Json) : '\n' ∉ (result x y).text.toList := by
  have hline : (result x y).text.toList = x.chars ++ " -> ".toList ++ y.chars := by
    simp only [text, Json.text, String.toList_append, String.toList_ofList, toString]
  have harrow : Printable " -> ".toList := by decide
  rw [hline]
  exact (((Json.printable_chars x).append harrow).append (Json.printable_chars y)).newline_notMem

end OutputLine

end FirstMatch
