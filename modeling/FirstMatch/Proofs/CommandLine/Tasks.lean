import FirstMatch.CommandLine.Run
import FirstMatch.Proofs.Outcome
import Mathlib.Logic.Relation
import Mathlib.Order.WellFounded

/-!
The inputs of a run as tasks that share one dispatcher. A task is started for every input, the tasks
log and end in any order, and once all are started their answers are awaited and printed in the
order of the inputs. Whatever the schedule, the results are those of the inputs one after the other,
up to the first input for which the dispatcher has no answer. No schedule gets stuck or goes on for
ever.
-/

namespace FirstMatch

namespace OutputLine

def isLog : OutputLine → Bool
  | .log _ => true
  | _ => false

end OutputLine

namespace CommandLine

def Logs (printed : List OutputLine) : Prop := ∀ line ∈ printed, line.isLog = true

def results (printed : List OutputLine) : List OutputLine := printed.filter fun line => !line.isLog

/-- A task has lines of the log to print before it ends. -/
inductive InputTask where
  | running (input : Json) (lines : List OutputLine)
  | ended (input : Json) (outcome : Except Failure Json)

def InputTask.input : InputTask → Json
  | .running input _ => input
  | .ended input _ => input

/-- The inputs without a task, the tasks not awaited yet in the order of their inputs, what is
printed so far, and the exit status at the end. -/
structure Session where
  waiting : List Json
  tasks : List InputTask
  printed : List OutputLine
  status : Option Nat

def Session.start (inputs : List Json) : Session := ⟨inputs, [], [], none⟩

variable (filter : LogFilter) (d : Dispatcher (Predicate Json) (Transformer Json Json))

def taskLines (x : Json) : List OutputLine :=
  logged filter ((d.transform x).events.map Event.record)

/-- A step of the program or of one of its tasks. That a task failed is logged, and ends the run. -/
inductive Step : Session → Session → Prop where
  | spawn (x waiting tasks printed) : Step ⟨x :: waiting, tasks, printed, none⟩
      ⟨waiting, tasks ++ [.running x (taskLines filter d x)], printed, none⟩
  | log (x line lines waiting before after printed) :
      Step ⟨waiting, before ++ .running x (line :: lines) :: after, printed, none⟩
        ⟨waiting, before ++ .running x lines :: after, printed ++ [line], none⟩
  | finish (x waiting before after printed) :
      Step ⟨waiting, before ++ .running x [] :: after, printed, none⟩
        ⟨waiting, before ++ .ended x (d.transform x).result :: after, printed, none⟩
  | print (x y tasks printed) : Step ⟨[], .ended x (.ok y) :: tasks, printed, none⟩
      ⟨[], tasks, printed ++ [.result x y], none⟩
  | fail (x e tasks printed log) (logs : Logs log) :
      Step ⟨[], .ended x (.error e) :: tasks, printed, none⟩
        ⟨[], .ended x (.error e) :: tasks, printed ++ log, some 1⟩
  | leave (printed) : Step ⟨[], [], printed, none⟩ ⟨[], [], printed, some 0⟩

abbrev Reaches : Session → Session → Prop := Relation.ReflTransGen (Step filter d)

abbrev Answers : List Json → List Json → Prop :=
  List.Forall₂ fun x y => (d.transform x).result = .ok y

def InputTask.Sound : InputTask → Prop
  | .running _ lines => Logs lines
  | .ended x outcome => outcome = (d.transform x).result

/-- The run after the answers to some of the inputs are printed. The others are still to come, in
their order. -/
structure Printed (inputs : List Json) (s : Session) (before answers : List Json) : Prop where
  split : before ++ (s.tasks.map InputTask.input ++ s.waiting) = inputs
  answered : Answers d before answers
  results : results s.printed = List.zipWith .result before answers
  sound : ∀ task ∈ s.tasks, task.Sound d
  left : ∀ status, s.status = some status →
    status = 0 ∧ s.tasks = [] ∧ s.waiting = [] ∨
      status = 1 ∧ ∃ x e tasks, s.tasks = .ended x (.error e) :: tasks

theorem forall_mem_middle {α : Type} {P : α → Prop} {front back : List α} {x : α} :
    (∀ a ∈ front ++ x :: back, P a) ↔ (∀ a ∈ front, P a) ∧ P x ∧ ∀ a ∈ back, P a := by
  rw [List.forall_mem_append, List.forall_mem_cons]

section Results

variable {printed log : List OutputLine}

theorem results_append (printed log : List OutputLine) :
    results (printed ++ log) = results printed ++ results log := List.filter_append ..

theorem Logs.append (h : Logs printed) (hlog : Logs log) : Logs (printed ++ log) :=
  List.forall_mem_append.mpr ⟨h, hlog⟩

theorem Logs.results_eq (h : Logs log) : results log = [] := by
  rw [results, List.filter_eq_nil_iff]
  intro line hline
  simp only [h line hline, Bool.not_true, Bool.false_eq_true, not_false_iff]

theorem results_append_logs (printed : List OutputLine) (h : Logs log) :
    results (printed ++ log) = results printed := by
  rw [results_append, h.results_eq, List.append_nil]

theorem logs_logged (filter : LogFilter) (records : List LogRecord) :
    Logs (logged filter records) := by
  intro line hline
  obtain ⟨text, -, rfl⟩ := List.mem_map.mp hline
  rfl

end Results

variable {filter d} {inputs before answers : List Json} {s t : Session}

theorem Printed.start (inputs : List Json) : Printed d inputs (.start inputs) [] [] where
  split := rfl
  answered := .nil
  results := rfl
  sound := nofun
  left := nofun

theorem Step.printed (hstep : Step filter d s t) (h : Printed d inputs s before answers) :
    ∃ before answers, Printed d inputs t before answers := by
  obtain ⟨hsplit, hanswered, hresults, hsound, -⟩ := h
  cases hstep with
  | spawn x waiting tasks printed =>
    have htask : (InputTask.running x (taskLines filter d x)).Sound d := logs_logged filter _
    exact ⟨before, answers, by simpa [InputTask.input] using hsplit, hanswered, hresults,
      List.forall_mem_append.mpr ⟨hsound, List.forall_mem_singleton.mpr htask⟩, nofun⟩
  | log x line lines waiting front back printed =>
    obtain ⟨hfront, hhere, hback⟩ := forall_mem_middle.mp hsound
    obtain ⟨hline, hlines⟩ := List.forall_mem_cons.mp hhere
    refine ⟨before, answers, by simpa [InputTask.input] using hsplit, hanswered, ?_,
      forall_mem_middle.mpr ⟨hfront, hlines, hback⟩, nofun⟩
    rw [results_append_logs printed (List.forall_mem_singleton.mpr hline)]
    exact hresults
  | finish x waiting front back printed =>
    obtain ⟨hfront, -, hback⟩ := forall_mem_middle.mp hsound
    exact ⟨before, answers, by simpa [InputTask.input] using hsplit, hanswered, hresults,
      forall_mem_middle.mpr ⟨hfront, rfl, hback⟩, nofun⟩
  | print x y tasks printed =>
    obtain ⟨hhere, htasks⟩ := List.forall_mem_cons.mp hsound
    have hanswer : (d.transform x).result = .ok y := hhere.symm
    refine ⟨before ++ [x], answers ++ [y], by simpa [InputTask.input] using hsplit,
      List.rel_append hanswered (.cons hanswer .nil), ?_, htasks, nofun⟩
    rw [results_append, hresults, List.zipWith_append hanswered.length_eq]
    rfl
  | fail x e tasks printed log logs =>
    refine ⟨before, answers, hsplit, hanswered, ?_, hsound, ?_⟩
    · rw [results_append_logs printed logs]
      exact hresults
    · intro status hstatus
      exact .inr ⟨(Option.some.inj hstatus).symm, x, e, tasks, rfl⟩
  | leave printed =>
    refine ⟨before, answers, hsplit, hanswered, hresults, hsound, ?_⟩
    intro status hstatus
    exact .inl ⟨(Option.some.inj hstatus).symm, rfl, rfl⟩

theorem Reaches.printed (h : Reaches filter d (.start inputs) s) :
    ∃ before answers, Printed d inputs s before answers := by
  induction h with
  | refl => exact ⟨[], [], .start inputs⟩
  | tail _ hstep ih =>
    obtain ⟨before, answers, hprinted⟩ := ih
    exact hstep.printed hprinted

/-- How a run ends: with all answers, or with a failure at the first input without an answer. -/
inductive Finished (d : Dispatcher (Predicate Json) (Transformer Json Json)) (inputs : List Json)
    (printed : List OutputLine) : Nat → Prop where
  | all {answers : List Json} (answered : Answers d inputs answers)
      (results : results printed = List.zipWith .result inputs answers) :
      Finished d inputs printed 0
  | failed {before answers after : List Json} {x : Json} {e : Failure}
      (split : inputs = before ++ x :: after) (answered : Answers d before answers)
      (unanswered : (d.transform x).result = .error e)
      (results : results printed = List.zipWith .result before answers) :
      Finished d inputs printed 1

theorem Reaches.finished (h : Reaches filter d (.start inputs) s) {status : Nat}
    (hstatus : s.status = some status) : Finished d inputs s.printed status := by
  obtain ⟨before, answers, hsplit, hanswered, hresults, hsound, hleft⟩ := h.printed
  rcases hleft status hstatus with ⟨rfl, htasks, hwaiting⟩ | ⟨rfl, x, e, tasks, htasks⟩
  · rw [htasks, hwaiting, List.map_nil, List.nil_append, List.append_nil] at hsplit
    subst hsplit
    exact .all hanswered hresults
  · rw [htasks] at hsplit hsound
    have hfailed : (d.transform x).result = .error e := (hsound _ List.mem_cons_self).symm
    exact .failed hsplit.symm hanswered hfailed hresults

/-! Every schedule comes to an end -/

def InputTask.work : InputTask → Nat
  | .running _ lines => lines.length + 2
  | .ended _ _ => 1

def tasksWork : List InputTask → Nat
  | [] => 0
  | task :: tasks => task.work + tasksWork tasks

theorem tasksWork_append (tasks others : List InputTask) :
    tasksWork (tasks ++ others) = tasksWork tasks + tasksWork others := by
  induction tasks with
  | nil => exact (Nat.zero_add _).symm
  | cons task tasks ih => rw [List.cons_append, tasksWork, tasksWork, ih, Nat.add_assoc]

def waitingWork (filter : LogFilter) (d : Dispatcher (Predicate Json) (Transformer Json Json)) :
    List Json → Nat
  | [] => 0
  | x :: waiting => (taskLines filter d x).length + 3 + waitingWork filter d waiting

def Session.work (filter : LogFilter) (d : Dispatcher (Predicate Json) (Transformer Json Json))
    (s : Session) : Nat :=
  waitingWork filter d s.waiting + tasksWork s.tasks + s.status.elim 1 fun _ => 0

theorem Step.work_lt (h : Step filter d s t) : t.work filter d < s.work filter d := by
  cases h <;>
    simp only [Session.work, waitingWork, tasksWork_append, tasksWork, InputTask.work,
      List.length_cons, List.length_nil, Option.elim_none, Option.elim_some] <;>
    omega

/-- A session that is not at its end goes on, whatever its tasks have done. -/
theorem exists_step (h : s.status = none) : ∃ t, Step filter d s t := by
  obtain ⟨waiting, tasks, printed, status⟩ := s
  obtain rfl : status = none := h
  cases waiting with
  | cons x waiting => exact ⟨_, .spawn x waiting tasks printed⟩
  | nil =>
    cases tasks with
    | nil => exact ⟨_, .leave printed⟩
    | cons task tasks =>
      cases task with
      | running x lines =>
        cases lines with
        | nil => exact ⟨_, .finish x [] [] tasks printed⟩
        | cons line lines => exact ⟨_, .log x line lines [] [] tasks printed⟩
      | ended x outcome =>
        cases outcome with
        | ok y => exact ⟨_, .print x y tasks printed⟩
        | error e => exact ⟨_, .fail x e tasks printed [] nofun⟩

theorem schedules_end (filter : LogFilter)
    (d : Dispatcher (Predicate Json) (Transformer Json Json)) :
    ¬ ∃ run : Nat → Session, ∀ n, Step filter d (run n) (run (n + 1)) := by
  rintro ⟨run, hrun⟩
  obtain ⟨n, hn⟩ :=
    WellFounded.not_rel_apply_succ (r := (· < ·)) fun n => (run n).work filter d
  exact hn (hrun n).work_lt

/-! The schedule in which all tasks end one after the other before the first answer is printed -/

section Schedule

variable (filter d)

theorem reaches_spawned (inputs : List Json) (tasks : List InputTask) (printed : List OutputLine) :
    Reaches filter d ⟨inputs, tasks, printed, none⟩
      ⟨[], tasks ++ inputs.map fun x => .running x (taskLines filter d x), printed, none⟩ := by
  induction inputs generalizing tasks with
  | nil =>
    rw [List.map_nil, List.append_nil]
  | cons x inputs ih =>
    have hrest := ih (tasks ++ [.running x (taskLines filter d x)])
    rw [List.append_assoc, List.singleton_append] at hrest
    exact .head (.spawn x inputs tasks printed) hrest

theorem reaches_logged (x : Json) (lines : List OutputLine) (before after : List InputTask)
    (printed : List OutputLine) :
    Reaches filter d ⟨[], before ++ .running x lines :: after, printed, none⟩
      ⟨[], before ++ .ended x (d.transform x).result :: after, printed ++ lines, none⟩ := by
  induction lines generalizing printed with
  | nil =>
    rw [List.append_nil]
    exact .single (.finish x [] before after printed)
  | cons line lines ih =>
    have hrest := ih (printed ++ [line])
    rw [List.append_assoc, List.singleton_append] at hrest
    exact .head (.log x line lines [] before after printed) hrest

theorem reaches_ended (inputs : List Json) (before : List InputTask) (printed : List OutputLine) :
    Reaches filter d
      ⟨[], before ++ inputs.map fun x => .running x (taskLines filter d x), printed, none⟩
      ⟨[], before ++ inputs.map fun x => .ended x (d.transform x).result,
        printed ++ inputs.flatMap (taskLines filter d), none⟩ := by
  induction inputs generalizing before printed with
  | nil =>
    rw [List.flatMap_nil, List.append_nil]
    exact .refl
  | cons x inputs ih =>
    have hhead := reaches_logged filter d x (taskLines filter d x) before
      (inputs.map fun x => .running x (taskLines filter d x)) printed
    have hrest := ih (before ++ [.ended x (d.transform x).result])
      (printed ++ taskLines filter d x)
    rw [List.append_assoc, List.append_assoc, List.append_assoc, List.singleton_append] at hrest
    exact hhead.trans hrest

theorem reaches_printed (h : Answers d inputs answers) (printed : List OutputLine) :
    Reaches filter d ⟨[], inputs.map fun x => .ended x (d.transform x).result, printed, none⟩
      ⟨[], [], printed ++ List.zipWith .result inputs answers, none⟩ := by
  induction h generalizing printed with
  | nil =>
    rw [List.zipWith_nil_left, List.append_nil]
    exact .refl
  | @cons x y inputs answers hanswer _ ih =>
    have hrest := ih (printed ++ [.result x y])
    rw [List.append_assoc, List.singleton_append] at hrest
    rw [List.map_cons, hanswer]
    exact .head (.print x y _ printed) hrest

end Schedule

theorem logged_flatMap (filter : LogFilter) (records : Json → List LogRecord)
    (inputs : List Json) :
    logged filter (inputs.flatMap records) = inputs.flatMap fun x => logged filter (records x) := by
  simp only [logged, LogFilter.lines, List.filter_flatMap, List.map_flatMap]

theorem transformAll_eq (filter : LogFilter) (h : Answers d inputs answers) :
    transformAll filter d inputs =
      ⟨0, inputs.flatMap (taskLines filter d) ++ List.zipWith .result inputs answers, none⟩ := by
  have hresults : ((inputs.map fun x => (x, d.transform x)).mapM fun p =>
      p.2.result.toOption.map (OutputLine.result p.1)) =
        some (List.zipWith .result inputs answers) := by
    rw [mapM_eq_some, List.forall₂_map_left_iff]
    induction h with
    | nil => exact .nil
    | cons hanswer _ ih =>
      refine .cons ?_ ih
      simp only [hanswer, Except.toOption, Option.map_some]
  have hlog : logged filter ((inputs.map fun x => (x, d.transform x)).flatMap fun p =>
      p.2.events.map Event.record) = inputs.flatMap (taskLines filter d) := by
    rw [List.flatMap_map, logged_flatMap]
    rfl
  unfold transformAll
  dsimp only
  split
  · rename_i results heq
    obtain rfl := Option.some.inj (hresults.symm.trans heq)
    exact congrArg (fun log => (⟨0, log ++ _, none⟩ : RunResult)) hlog
  · rename_i heq
    cases hresults.symm.trans heq

theorem reaches_transformAll (filter : LogFilter) (h : Answers d inputs answers) :
    Reaches filter d (.start inputs) ⟨[], [], (transformAll filter d inputs).printed,
      some (transformAll filter d inputs).status⟩ := by
  have hspawned := reaches_spawned filter d inputs [] []
  have hended := reaches_ended filter d inputs [] []
  have hprinted := reaches_printed filter d h (inputs.flatMap (taskLines filter d))
  rw [transformAll_eq filter h]
  exact ((hspawned.trans hended).trans hprinted).tail (.leave _)

/-! Where the dispatcher answers all inputs -/

theorem Answers.exists_of_mem (h : Answers d inputs answers) {x : Json} (hx : x ∈ inputs) :
    ∃ y, (d.transform x).result = .ok y := by
  induction h with
  | nil => cases hx
  | @cons z y _ _ hanswer _ ih =>
    rcases List.mem_cons.mp hx with rfl | hx
    · exact ⟨y, hanswer⟩
    · exact ih hx

theorem Answers.unique {others : List Json} (h : Answers d inputs answers)
    (hothers : Answers d inputs others) : answers = others := by
  refine List.right_unique_forall₂' ?_ h hothers
  intro x y z hy hz
  rw [hy] at hz
  exact Except.ok.inj hz

/-- All schedules of these inputs come to an end, without getting stuck, and with the same results:
the answers in the order of the inputs. One of them prints these lines. -/
structure Scheduled (filter : LogFilter) (d : Dispatcher (Predicate Json) (Transformer Json Json))
    (inputs answers : List Json) (printed : List OutputLine) : Prop where
  ends : ¬ ∃ run : Nat → Session, ∀ n, Step filter d (run n) (run (n + 1))
  goesOn : ∀ s, s.status = none → ∃ t, Step filter d s t
  same : ∀ s status, Reaches filter d (.start inputs) s → s.status = some status →
    status = 0 ∧ results s.printed = List.zipWith .result inputs answers
  taken : Reaches filter d (.start inputs) ⟨[], [], printed, some 0⟩

theorem scheduled_transformAll (filter : LogFilter) (h : Answers d inputs answers) :
    Scheduled filter d inputs answers (transformAll filter d inputs).printed where
  ends := schedules_end filter d
  goesOn := fun _ hstatus => exists_step hstatus
  same := by
    intro s status hreaches hstatus
    cases hreaches.finished hstatus with
    | all hanswers hresults =>
      rw [h.unique hanswers]
      exact ⟨rfl, hresults⟩
    | @failed before _ after x e hsplit _ hfailed _ =>
      have hx : x ∈ inputs := hsplit ▸ List.mem_append_right before List.mem_cons_self
      obtain ⟨y, hy⟩ := h.exists_of_mem hx
      rw [hfailed] at hy
      cases hy
  taken := by
    have htaken := reaches_transformAll filter h
    have hstatus : (transformAll filter d inputs).status = 0 := by rw [transformAll_eq filter h]
    rwa [hstatus] at htaken

end CommandLine

end FirstMatch
