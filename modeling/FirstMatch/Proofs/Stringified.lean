import FirstMatch.CommandLine.Run
import FirstMatch.Proofs.Json.Accepted
import FirstMatch.Proofs.Json.Reread

/-!
Values made strings of and given back as an input. A value comes back from its text if it is one
that reading can give at all and if its floats are read as they are written. For any other value the
input is another value, without a complaint: what cannot be read is taken for a string.
-/

namespace FirstMatch

namespace Json

/-- A value that is what its text is read as. -/
structure Lasting (v : Json) : Prop where
  wellFormed : v.WellFormed
  height_le : v.height ≤ 127
  reread : ∀ x ∈ v.floats, x.reread? = some x

variable {v w : Json}

theorem ofText?_text (hw : v.WellFormed) (hh : v.height ≤ 127) : ofText? v.text =
    if Readable v.floats then .ok (v.mapFloats Double.reread) else .error .numberOutOfRange := by
  have hread := (Reader.value_text (ε := Empty) maxHeight hw.numbersFit hh).all_eq
  have hcanonical : (v.mapFloats Double.reread).canonical = v.mapFloats Double.reread := by
    rw [canonical_mapFloats, canonical_self v hw]
  rw [ofText?, text, String.toList_ofList, hread, Reader.ifReadable]
  by_cases hreadable : Readable v.floats
  · simp only [hreadable, if_true, hcanonical]
  · simp only [hreadable, if_false, Reader.fail]

theorem reread_eq_self_iff {xs : List Double} :
    (Readable xs ∧ ∀ x ∈ xs, x.reread = x) ↔ ∀ x ∈ xs, x.reread? = some x := by
  simp only [Readable, Double.reread, ← forall_and]
  refine forall₂_congr fun x _ => ?_
  cases x.reread? <;> simp

/-- Exactly the values that last are read from their texts as they were. -/
theorem ofText?_text_iff : ofText? v.text = .ok v ↔ v.Lasting := by
  constructor
  · intro h
    obtain ⟨hwell, hheight⟩ := ofText?_wellFormed h
    rw [ofText?_text hwell hheight] at h
    split at h
    · rename_i hreadable
      have hself := mapFloats_eq_self_iff.mp (Except.ok.inj h)
      exact ⟨hwell, hheight, reread_eq_self_iff.mp ⟨hreadable, hself⟩⟩
    · cases h
  · rintro ⟨hwell, hheight, hreread⟩
    obtain ⟨hreadable, hself⟩ := reread_eq_self_iff.mpr hreread
    rw [ofText?_text hwell hheight, if_pos hreadable, mapFloats_eq_self_iff.mpr hself]

theorem Lasting.text_injective (hv : v.Lasting) (hw : w.Lasting) (h : w.text = v.text) : w = v := by
  have hread := ofText?_text_iff.mpr hw
  rw [h, ofText?_text_iff.mpr hv] at hread
  exact (Except.ok.inj hread).symm

theorem lasting_of_exact (hw : v.WellFormed) (hh : v.height ≤ 127)
    (hx : ∀ x ∈ v.floats, x.Exact) : v.Lasting :=
  ⟨hw, hh, fun x hmem => Double.reread?_of_exact (hx x hmem)⟩

end Json

namespace CommandLine

variable {v : Json}

theorem input_eq_iff (h : ∀ s, v ≠ .string s) (argument : String) :
    input argument = v ↔ Json.ofText? argument = .ok v := by
  unfold input
  cases Json.ofText? argument with
  | ok w => simp only [Except.toOption, Option.getD_some, Except.ok.injEq]
  | error e =>
    have hne : Json.string argument ≠ v := fun hs => h argument hs.symm
    simp only [Except.toOption, Option.getD_none, hne, reduceCtorEq]

end CommandLine

namespace Action

variable {v : Json}

theorem compile_stringify (h : ∀ s, v ≠ .string s) :
    stringify.compile v = pure (.string v.text) := by
  cases v with
  | string s => exact absurd rfl (h s)
  | _ => rfl

/-- What is made of a value that is no string is a string, and given as an input this string stands
for the value again if the value lasts, and for another one if not. Hence no two values that last
are made the same string. Whole numbers that fit 64 bits last wherever they stand, and so do strings
and names, which the condition says nothing about. -/
theorem stringify_fed_back (h : ∀ s, v ≠ .string s) :
    ∃ s, stringify.compile v = pure (.string s) ∧
      (CommandLine.input s = v ↔ v.Lasting) ∧
      ∀ w, (∀ s, w ≠ .string s) → v.Lasting → w.Lasting →
        stringify.compile w = pure (.string s) → w = v := by
  have hback : CommandLine.input v.text = v ↔ v.Lasting :=
    (CommandLine.input_eq_iff h v.text).trans Json.ofText?_text_iff
  refine ⟨v.text, compile_stringify h, hback, ?_⟩
  intro w hstring hv hw hsame
  rw [compile_stringify hstring] at hsame
  have hresult : Json.string w.text = Json.string v.text :=
    Except.ok.inj (congrArg Traced.result hsame)
  exact hv.text_injective hw (Json.string.inj hresult)

def tenth : Double := .round false Magnitude.one 10

def assorted : Json := .object
  [("", .list [.null, .bool true, Number.ofInt (-2 ^ 63), Number.ofInt (2 ^ 64 - 1)]),
    ("\x01\n\"\\", .string "\x00\t/\x7f"),
    ("floats", .list [.number (.float tenth), .number (.float (.finite true .zero))])]

theorem assorted_lasting : assorted.Lasting := by
  have hleast : (Number.integer (-2 ^ 63)).WellFormed := by decide
  have hgreatest : (Number.integer (2 ^ 64 - 1)).WellFormed := by decide
  have htenth : tenth.isFinite = true := by decide +kernel
  refine Json.lasting_of_exact ⟨by decide +kernel, ?_⟩ (by decide +kernel) (by decide +kernel)
  exact ⟨⟨trivial, trivial, hleast, hgreatest, trivial⟩, trivial, ⟨htenth, rfl, trivial⟩, trivial⟩

theorem assorted_fed_back :
    (∀ s, assorted ≠ .string s) ∧ assorted.Lasting ∧
    ∃ s, stringify.compile assorted = pure (.string s) ∧ CommandLine.input s = assorted := by
  have hstring : ∀ s, assorted ≠ .string s := fun _ => Json.noConfusion
  obtain ⟨s, hs, hback, -⟩ := stringify_fed_back hstring
  exact ⟨hstring, assorted_lasting, s, hs, hback.mpr assorted_lasting⟩

end Action

end FirstMatch
