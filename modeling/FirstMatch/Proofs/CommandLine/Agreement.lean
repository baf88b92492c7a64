import FirstMatch.Proofs.CommandLine.Input
import FirstMatch.Proofs.CommandLine.Line
import FirstMatch.Proofs.CommandLine.Tasks
import FirstMatch.Proofs.Dispatch.Log

/-!
What the program prints for a table and inputs. It prints an answer for every input or for none, and
the answers are those of the dispatcher that the table compiles to.
-/

namespace FirstMatch

namespace RunResult

def lines (r : RunResult) : List String := (CommandLine.results r.printed).map OutputLine.text

/-- One line for each of the inputs, in their order, with the input and the answer to it. -/
structure Shows (r : RunResult) (inputs answers : List Json) : Prop where
  status : r.status = 0
  complaint : r.complaint = none
  lines : r.lines = List.zipWith (fun x y => x.text ++ " -> " ++ y.text) inputs answers
  whole : ∀ line ∈ r.lines, '\n' ∉ line.toList

structure Fails (r : RunResult) : Prop where
  status : r.status = 1
  complaint : r.complaint = none
  lines : r.lines = []

end RunResult

namespace CommandLine

/-- What all inputs stand for, or what there is if none is given. -/
inductive MeanAll : List String → List Json → Prop where
  | sample : MeanAll [] [Number.ofInt (-5), Number.ofInt 0, Number.ofInt 7]
  | given {arguments : List String} {values : List Json} (nonempty : arguments ≠ [])
      (means : List.Forall₂ Means arguments values) : MeanAll arguments values

theorem meanAll_iff {arguments : List String} {values : List Json} : MeanAll arguments values ↔
    values = if arguments.isEmpty then sampleInputs else arguments.map input := by
  have hmeans : List.Forall₂ Means arguments values ↔ arguments.map input = values := by
    have hinput : Means = fun a v => input a = v := by
      funext a v
      exact propext (means_iff.trans eq_comm)
    rw [hinput, ← List.forall₂_eq_eq_eq, List.forall₂_map_left_iff]
  cases arguments with
  | nil =>
    constructor
    · intro h
      cases h with
      | sample => rfl
      | given hne => exact absurd rfl hne
    · rintro rfl
      exact .sample
  | cons argument rest =>
    constructor
    · intro h
      cases h with
      | given _ h => exact (hmeans.mp h).symm
    · rintro rfl
      exact .given nofun (hmeans.mpr rfl)

variable {files : String → Except TableError Table} {setting : Option String} {filter : LogFilter}
  {arguments inputs : List String} {table : Option String} {t : Table} {e : TableError}
  {d : Dispatcher (Predicate Json) (Transformer Json Json)}

/-! The parts of a run -/

theorem run_of_error (hsetting : LogFilter.ofSetting? setting = some filter)
    (hparse : Invocation.parse arguments = .ok (.run table inputs))
    (hload : load files table = .error e) : run files setting arguments =
      ⟨1, logged filter [errorRecord "failed to load switch spec" e], none⟩ := by
  simp only [run, hsetting, runFiltered, hparse, hload]

theorem run_of_ok (hsetting : LogFilter.ofSetting? setting = some filter)
    (hparse : Invocation.parse arguments = .ok (.run table inputs))
    (hload : load files table = .ok t) : run files setting arguments =
      runTable filter t (if inputs.isEmpty then sampleInputs else inputs.map input) := by
  simp only [run, hsetting, runFiltered, hparse, hload]

theorem Logs.fails {printed : List OutputLine} (h : Logs printed) :
    RunResult.Fails ⟨1, printed, none⟩ := by
  refine ⟨rfl, rfl, ?_⟩
  rw [RunResult.lines, h.results_eq, List.map_nil]

theorem runTable_fails (filter : LogFilter) (h : t.compile.result = .error e)
    (values : List Json) : (runTable filter t values).Fails := by
  simp only [runTable, h]
  exact (Logs.append (logs_logged filter _) (logs_logged filter _)).fails

theorem dispatcher_of_compile (h : t.compile.result = .ok d) : d = t.dispatcher := by
  cases hvalid : t.validate with
  | error e =>
    rw [Table.compile_of_invalid hvalid] at h
    cases h
  | ok _ =>
    rw [Table.result_compile hvalid] at h
    exact (Except.ok.inj h).symm

theorem answers_output (t : Table) (values : List Json) :
    Answers t.dispatcher values (values.map t.output) := by
  rw [Answers, List.forall₂_map_right_iff, List.forall₂_same]
  exact fun x _ => t.result_transform_dispatcher x

theorem runTable_of_ok (filter : LogFilter) (h : t.compile.result = .ok d) (values : List Json) :
    ∃ log, Logs log ∧ runTable filter t values =
      { transformAll filter d values with
        printed := log ++ (transformAll filter d values).printed } := by
  simp only [runTable, h]
  exact ⟨_, Logs.append (logs_logged filter _) (logs_logged filter _), rfl⟩

theorem newline_notMem_of_results {xs ys : List Json} :
    ∀ line ∈ (List.zipWith OutputLine.result xs ys).map OutputLine.text, '\n' ∉ line.toList := by
  intro line hline
  obtain ⟨_, hresult, rfl⟩ := List.mem_map.mp hline
  rw [← List.map_uncurry_zip_eq_zipWith] at hresult
  obtain ⟨⟨x, y⟩, -, rfl⟩ := List.mem_map.mp hresult
  exact OutputLine.result_newline_notMem x y

theorem runTable_shows (filter : LogFilter) (h : t.compile.result = .ok d) {xs ys : List Json}
    (hanswers : Answers d xs ys) : (runTable filter t xs).Shows xs ys ∧
      ∃ log printed, (runTable filter t xs).printed = log ++ printed ∧ Logs log ∧
        Scheduled filter d xs ys printed := by
  obtain ⟨log, hlog, hrun⟩ := runTable_of_ok filter h xs
  have hscheduled := scheduled_transformAll filter hanswers
  have hresults := (hscheduled.same _ _ hscheduled.taken rfl).2
  have hlines : (runTable filter t xs).lines =
      (List.zipWith OutputLine.result xs ys).map OutputLine.text := by
    rw [RunResult.lines, hrun]
    simp only [results_append, hlog.results_eq, List.nil_append, hresults]
  refine ⟨⟨?_, ?_, ?_, ?_⟩, log, _, by rw [hrun], hlog, hscheduled⟩
  · rw [hrun, transformAll_eq filter hanswers]
  · rw [hrun, transformAll_eq filter hanswers]
  · rw [hlines, List.map_zipWith]
    simp only [OutputLine.text, toString]
  · rw [hlines]
    exact newline_notMem_of_results

inductive Built (files : String → Except TableError Table) (table : Option String) :
    Except TableError (Dispatcher (Predicate Json) (Transformer Json Json)) → Prop where
  | unloaded {e : TableError} (loaded : Loaded files table (.error e)) :
      Built files table (.error e)
  | compiled {t : Table} (loaded : Loaded files table (.ok t)) : Built files table t.compile.result

theorem Built.exists_compiled (h : Built files table (.ok d)) :
    ∃ t, load files table = .ok t ∧ t.compile.result = .ok d := by
  generalize hb : Except.ok d = b at h
  cases h with
  | unloaded => cases hb
  | @compiled t loaded => exact ⟨t, (loaded_iff.mp loaded).symm, rfl⟩

theorem Built.not_compiled (h : Built files table (.error e)) :
    load files table = .error e ∨ ∃ t, load files table = .ok t ∧ t.compile.result = .error e := by
  generalize hb : Except.error e = b at h
  cases h with
  | unloaded loaded =>
    obtain rfl := Except.error.inj hb
    exact .inl (loaded_iff.mp loaded).symm
  | @compiled t loaded => exact .inr ⟨t, (loaded_iff.mp loaded).symm, rfl⟩

theorem run_of_built (hsetting : LogFilter.ofSetting? setting = some filter)
    (hparse : Invocation.parse arguments = .ok (.run table inputs))
    (hbuilt : Built files table (.ok d)) : ∃ xs ys, MeanAll inputs xs ∧ Answers d xs ys ∧
      (run files setting arguments).Shows xs ys ∧
      ∃ log printed, (run files setting arguments).printed = log ++ printed ∧ Logs log ∧
        Scheduled filter d xs ys printed := by
  obtain ⟨t, hload, hcompile⟩ := hbuilt.exists_compiled
  obtain ⟨xs, hxs⟩ : ∃ xs, xs = if inputs.isEmpty then sampleInputs else inputs.map input :=
    ⟨_, rfl⟩
  have hanswers := answers_output t xs
  rw [← dispatcher_of_compile hcompile] at hanswers
  rw [run_of_ok hsetting hparse hload, ← hxs]
  exact ⟨xs, _, meanAll_iff.mpr hxs, hanswers, runTable_shows filter hcompile hanswers⟩

theorem run_of_not_built (hsetting : LogFilter.ofSetting? setting = some filter)
    (hparse : Invocation.parse arguments = .ok (.run table inputs))
    (hbuilt : Built files table (.error e)) : (run files setting arguments).Fails := by
  rcases hbuilt.not_compiled with hload | ⟨t, hload, hcompile⟩
  · rw [run_of_error hsetting hparse hload]
    exact (logs_logged filter _).fails
  · rw [run_of_ok hsetting hparse hload]
    exact runTable_fails filter hcompile _

/-- When the arguments name a table and inputs, they name them in their order and leave nothing out.
If the table can be loaded and compiled, the program succeeds and prints, the log aside, one line
for each input, in which the dispatcher that the table compiles to has answered the value that the
input stands for. Every schedule of the tasks prints these lines, and the program takes one of the
schedules. If the table cannot be loaded or compiled, the program fails and prints no such line.
None of this depends on the setting of the log, unless that ends the program before it looks at its
arguments. -/
theorem run_all_or_nothing (files : String → Except TableError Table) (setting : Option String)
    (parsed : Invocation.parse arguments = .ok (.run table inputs)) :
    table.toList ++ inputs = arguments.erase "--" ∧
    (∀ filter, LogFilter.ofSetting? setting = some filter →
      (∀ d, Built files table (.ok d) →
        ∃ xs ys, MeanAll inputs xs ∧ Answers d xs ys ∧
          (run files setting arguments).Shows xs ys ∧
          ∃ log printed, (run files setting arguments).printed = log ++ printed ∧ Logs log ∧
            Scheduled filter d xs ys printed) ∧
      ∀ e, Built files table (.error e) → (run files setting arguments).Fails) ∧
    (LogFilter.ofSetting? setting = none → run files setting arguments = broken) := by
  refine ⟨Invocation.operands_of_run parsed, ?_, ?_⟩
  · intro filter hsetting
    exact ⟨fun d hbuilt => run_of_built hsetting parsed hbuilt,
      fun e hbuilt => run_of_not_built hsetting parsed hbuilt⟩
  · intro hsetting
    simp only [run, hsetting]

def noFiles : String → Except TableError Table := fun _ => .error (.unreadable .missing)

/-- A run of the sample table, with inputs that are no JSON texts or look like flags, and a run in
which the table is missing. -/
theorem run_without_files :
    Invocation.parse ["-", "-5", "1e400", "7 8", "--", "-h"] =
      .ok (.run (some "-") ["-5", "1e400", "7 8", "-h"]) ∧
    (∃ xs ys, MeanAll ["-5", "1e400", "7 8", "-h"] xs ∧ Answers Table.sample.dispatcher xs ys ∧
      (run noFiles none ["-", "-5", "1e400", "7 8", "--", "-h"]).Shows xs ys) ∧
    Invocation.parse ["absent", "7"] = .ok (.run (some "absent") ["7"]) ∧
    (run noFiles none ["absent", "7"]).Fails := by
  have hsample : Invocation.parse ["-", "-5", "1e400", "7 8", "--", "-h"] =
      .ok (.run (some "-") ["-5", "1e400", "7 8", "-h"]) := by decide
  have habsent : Invocation.parse ["absent", "7"] = .ok (.run (some "absent") ["7"]) := by decide
  have hcompiled : Built noFiles (some "-") (.ok Table.sample.dispatcher) := .compiled .dash
  have hunloaded : Built noFiles (some "absent") (.error (.unreadable .missing)) :=
    .unloaded (.file (by decide))
  obtain ⟨-, hshown, -⟩ := run_all_or_nothing noFiles none hsample
  obtain ⟨xs, ys, hmeans, hanswers, hshows, -⟩ := (hshown _ rfl).1 _ hcompiled
  obtain ⟨-, hfailed, -⟩ := run_all_or_nothing noFiles none habsent
  exact ⟨hsample, ⟨xs, ys, hmeans, hanswers, hshows⟩, habsent, (hfailed _ rfl).2 _ hunloaded⟩

example : (run noFiles none ["-", "-5", "1e400", " [] ", "7 8"]).lines =
    ["-5 -> 10", "\"1e400\" -> \"1e400\"", "[] -> []", "\"7 8\" -> \"7 8\""] := by
  decide +kernel

end CommandLine

end FirstMatch
