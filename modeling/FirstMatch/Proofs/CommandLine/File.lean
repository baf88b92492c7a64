import FirstMatch.Proofs.CommandLine.Agreement

/-!
Tables in files. The bytes of a file are taken for the UTF-8 encoding of a text, and a run is
decided by what is stored at the one path that its arguments name.
-/

namespace FirstMatch

namespace Table

variable {bytes : ByteArray} {t : Table}

theorem ofBytes_toUTF8 (text : String) : ofBytes text.toUTF8 = decode text := by
  have h : String.fromUTF8? text.toUTF8 = some text := dif_pos text.isValidUTF8
  rw [ofBytes, h]

theorem ofBytes_of_not_utf8 (h : ∀ text : String, bytes ≠ text.toUTF8) :
    ofBytes bytes = .error (.unreadable .notUtf8) := by
  have hnone : String.fromUTF8? bytes = none := dif_neg fun hvalid => h ⟨bytes, hvalid⟩ rfl
  rw [ofBytes, hnone]

theorem ofBytes_eq_ok_iff :
    ofBytes bytes = .ok t ↔ ∃ text : String, bytes = text.toUTF8 ∧ decode text = .ok t := by
  constructor
  · intro h
    by_cases hutf8 : ∃ text : String, bytes = text.toUTF8
    · obtain ⟨text, rfl⟩ := hutf8
      exact ⟨text, rfl, (ofBytes_toUTF8 text).symm.trans h⟩
    · rw [ofBytes_of_not_utf8 (not_exists.mp hutf8)] at h
      cases h
  · rintro ⟨text, rfl, h⟩
    rw [ofBytes_toUTF8, h]

theorem ofFile_eq_ok_iff {contents : Except FileFault ByteArray} :
    ofFile contents = .ok t ↔
      ∃ text : String, contents = .ok text.toUTF8 ∧ decode text = .ok t := by
  cases contents with
  | error fault => simp only [ofFile, reduceCtorEq, false_and, exists_false]
  | ok bytes => simp only [ofFile, ofBytes_eq_ok_iff, Except.ok.injEq]

end Table

namespace CommandLine

variable {stored : String → Except FileFault ByteArray} {setting : Option String}
  {filter : LogFilter} {arguments inputs : List String} {path : String}

/-- A run of a table from a file succeeds, with an answer for each input, if the file holds a text
in UTF-8 that is decoded as a table which compiles. It fails without any answer if the file cannot
be read, is not in UTF-8, does not hold a table or holds one that does not compile. -/
theorem run_of_file (hsetting : LogFilter.ofSetting? setting = some filter)
    (hparse : Invocation.parse arguments = .ok (.run (some path) inputs)) (hpath : path ≠ "-") :
    (∀ (text : String) t d, stored path = .ok text.toUTF8 → Table.decode text = .ok t →
      t.compile.result = .ok d → ∃ xs ys, MeanAll inputs xs ∧ Answers d xs ys ∧
        (run (fun p => Table.ofFile (stored p)) setting arguments).Shows xs ys) ∧
    ((∀ (text : String) t d, stored path = .ok text.toUTF8 → Table.decode text = .ok t →
      t.compile.result ≠ .ok d) →
        (run (fun p => Table.ofFile (stored p)) setting arguments).Fails) := by
  have hloaded :
      Loaded (fun p => Table.ofFile (stored p)) (some path) (Table.ofFile (stored path)) :=
    .file hpath
  constructor
  · intro text t d hstored hdecode hcompile
    have htable : Table.ofFile (stored path) = .ok t :=
      Table.ofFile_eq_ok_iff.mpr ⟨text, hstored, hdecode⟩
    have hbuilt := Built.compiled (htable ▸ hloaded)
    rw [hcompile] at hbuilt
    obtain ⟨xs, ys, hmeans, hanswers, hshows, -⟩ := run_of_built hsetting hparse hbuilt
    exact ⟨xs, ys, hmeans, hanswers, hshows⟩
  · intro hnone
    cases htable : Table.ofFile (stored path) with
    | error e => exact run_of_not_built hsetting hparse (.unloaded (htable ▸ hloaded))
    | ok t =>
      obtain ⟨text, hstored, hdecode⟩ := Table.ofFile_eq_ok_iff.mp htable
      have hbuilt := Built.compiled (htable ▸ hloaded)
      cases hcompile : t.compile.result with
      | error e =>
        rw [hcompile] at hbuilt
        exact run_of_not_built hsetting hparse hbuilt
      | ok d => exact absurd hcompile (hnone text t d hstored hdecode)

end CommandLine

end FirstMatch
