import FirstMatch.CommandLine.Run
import FirstMatch.Proofs.Json.Accepted
import FirstMatch.Proofs.Json.Source
import FirstMatch.Proofs.Json.Unambiguous

/-!
What the arguments of the program stand for, said apart from any reader: which of them are operands,
which table is meant, and for every input the value that it stands for.
-/

namespace FirstMatch

namespace Json

variable {text : String} {v : Json}

/-- The texts that are read are those of the documents that stand for a value and are nested within
the limit. -/
theorem ofText?_eq_ok_iff : ofText? text = .ok v ↔
    ∃ d : Document, d.SpelledBy text ∧ d.height ≤ 127 ∧
      (d.value? .strict).map canonical = some v := by
  rw [← toOption_eq_some, toOption_ofText?]
  constructor
  · intro h
    obtain ⟨w, hw, rfl⟩ := Option.map_eq_some_iff.mp h
    obtain ⟨d, before, used, after, hb, ⟨hd, hheight⟩, ha, htext, hvalue⟩ :=
      (Reader.value_sound .strict maxHeight).all (toOption_eq_some.mp hw)
    exact ⟨d, .of_toList hb hd ha htext, hheight, by rw [hvalue, Option.map_some]⟩
  · rintro ⟨d, ⟨hb, hd, ha⟩, hheight, hvalue⟩
    have htakes := Reader.value_takes (ε := Empty) .strict maxHeight hd hheight
    rw [String.toList_ofList, htakes.all hb ha, hvalue]

end Json

namespace CommandLine

/-- What an argument stands for as an input: the value if it is the text of one, and otherwise the
string itself. It is no such text if it is not of that form from its first to its last character, if
it is nested too deep, or if a number in it is too large or half of a surrogate pair is missing. -/
inductive Means (argument : String) : Json → Prop where
  | value {d : Document} {v : Json} (spelled : d.SpelledBy argument) (shallow : d.height ≤ 127)
      (stands : d.value? .strict = some v) : Means argument v.canonical
  | unspelled (never : ∀ d : Document, ¬ d.SpelledBy argument) : Means argument (.string argument)
  | tooDeep {d : Document} (spelled : d.SpelledBy argument) (deep : 127 < d.height) :
      Means argument (.string argument)
  | nothing {d : Document} (spelled : d.SpelledBy argument) (stands : d.value? .strict = none) :
      Means argument (.string argument)

variable {argument : String} {v : Json}

theorem input_of_ok (h : Json.ofText? argument = .ok v) : input argument = v := by
  rw [input, h]
  rfl

theorem input_of_not_ok (h : ∀ v, Json.ofText? argument ≠ .ok v) :
    input argument = .string argument := by
  unfold input
  cases hread : Json.ofText? argument with
  | ok v => exact absurd hread (h v)
  | error e => rfl

theorem Means.eq_input (h : Means argument v) : v = input argument := by
  cases h with
  | @value d v hd hheight hvalue =>
    have hmap : (d.value? .strict).map Json.canonical = some v.canonical := by
      rw [hvalue, Option.map_some]
    exact (input_of_ok (Json.ofText?_eq_ok_iff.mpr ⟨d, hd, hheight, hmap⟩)).symm
  | unspelled hnever =>
    refine (input_of_not_ok fun v h => ?_).symm
    obtain ⟨d, hd, -⟩ := Json.ofText?_eq_ok_iff.mp h
    exact hnever d hd
  | tooDeep hd hdeep =>
    refine (input_of_not_ok fun v h => ?_).symm
    obtain ⟨e, he, hheight, -⟩ := Json.ofText?_eq_ok_iff.mp h
    rw [hd.unique he] at hdeep
    omega
  | nothing hd hvalue =>
    refine (input_of_not_ok fun v h => ?_).symm
    obtain ⟨e, he, -, hmap⟩ := Json.ofText?_eq_ok_iff.mp h
    rw [← hd.unique he, hvalue] at hmap
    cases hmap

theorem exists_means (argument : String) : ∃ v, Means argument v := by
  by_cases hspelled : ∃ d : Document, d.SpelledBy argument
  · obtain ⟨d, hd⟩ := hspelled
    by_cases hheight : d.height ≤ 127
    · cases hvalue : d.value? .strict with
      | some v => exact ⟨_, .value hd hheight hvalue⟩
      | none => exact ⟨_, .nothing hd hvalue⟩
    · exact ⟨_, .tooDeep hd (by omega)⟩
  · exact ⟨_, .unspelled fun d hd => hspelled ⟨d, hd⟩⟩

theorem means_iff : Means argument v ↔ v = input argument := by
  constructor
  · exact Means.eq_input
  · rintro rfl
    obtain ⟨v, hv⟩ := exists_means argument
    rwa [hv.eq_input] at hv

inductive Loaded (files : String → Except TableError Table) :
    Option String → Except TableError Table → Prop where
  | absent : Loaded files none (.ok .sample)
  | dash : Loaded files (some "-") (.ok .sample)
  | file {path : String} (named : path ≠ "-") : Loaded files (some path) (files path)

theorem path?_of_ne {path : String} (h : path ≠ "-") : path? (some path) = some path := by
  unfold path?
  split
  · rename_i hdash
    exact absurd (Option.some.inj hdash) h
  · rfl

theorem loaded_iff {files : String → Except TableError Table} {table : Option String}
    {loaded : Except TableError Table} : Loaded files table loaded ↔ loaded = load files table := by
  constructor
  · intro h
    cases h with
    | absent | dash => rfl
    | file named => rw [load, path?_of_ne named]
  · rintro rfl
    cases table with
    | none => exact .absent
    | some path =>
      by_cases hdash : path = "-"
      · subst hdash
        exact .dash
      · rw [load, path?_of_ne hdash]
        exact .file hdash

end CommandLine

namespace Invocation

variable {table table' : Option String} {inputs inputs' operands arguments : List String}

theorem ofOperands_run (hinputs : table = none → inputs = [])
    (h : ofOperands table inputs operands = .ok (.run table' inputs')) :
    table'.toList ++ inputs' = table.toList ++ inputs ++ operands := by
  unfold ofOperands at h
  obtain ⟨⟨⟩, -, h⟩ := bind_eq_ok.mp h
  cases table with
  | some path =>
    cases h
    exact (List.append_assoc ..).symm
  | none =>
    rw [hinputs rfl] at h ⊢
    cases operands with
    | nil =>
      cases h
      rfl
    | cons first rest =>
      cases h
      rfl

theorem erase_cons_of_ne {argument : String} {rest : List String} (h : argument ≠ "--") :
    (argument :: rest).erase "--" = argument :: rest.erase "--" :=
  List.erase_cons_tail (by simpa using h)

theorem ofArguments_run (hinputs : table = none → inputs = [])
    (h : ofArguments table inputs arguments = .ok (.run table' inputs')) :
    table'.toList ++ inputs' = table.toList ++ inputs ++ arguments.erase "--" := by
  fun_induction ofArguments table inputs arguments with
  | case1 table inputs => exact ofOperands_run hinputs h
  | case2 table inputs rest =>
    rw [List.erase_cons_head]
    exact ofOperands_run hinputs h
  | case3 table inputs argument rest _ error hword =>
    rw [hword] at h
    cases h
  | case4 inputs argument rest _ table hword | case5 inputs argument rest _ table hword =>
    rw [hword] at h
    obtain ⟨⟨⟩, -, h⟩ := bind_eq_ok.mp h
    cases h
  | case6 inputs argument rest hdashes hword ih =>
    rw [hword] at h
    rw [ih nofun h, hinputs rfl, erase_cons_of_ne hdashes]
    rfl
  | case7 inputs argument rest hdashes path hword ih =>
    rw [hword] at h
    obtain ⟨⟨⟩, -, h⟩ := bind_eq_ok.mp h
    rw [ih nofun h, erase_cons_of_ne hdashes]
    simp only [List.append_assoc, List.singleton_append]

/-- All arguments but the first `--` are operands: the table, if there is one, and after it the
inputs. -/
theorem operands_of_run (h : parse arguments = .ok (.run table inputs)) :
    table.toList ++ inputs = arguments.erase "--" :=
  ofArguments_run (fun _ => rfl) h

end Invocation

end FirstMatch
