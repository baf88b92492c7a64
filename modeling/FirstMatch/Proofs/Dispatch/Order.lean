import FirstMatch.Dispatch.Switch

/-!
What happens when a switch is applied, step by step. The predicates are asked in order up to the
first that does not reject. If it accepts, the choice is logged and one transformer is applied; if
it fails, that is all. What stands after it is never run, so nothing is assumed of it. A switch
inside a switch goes on where the outer one ends.
-/

namespace FirstMatch

variable {I O : Type}

namespace Predicate

def Accepts (p : Predicate I) (x : I) : Prop := (p x).result = .ok true

def Rejects (p : Predicate I) (x : I) : Prop := (p x).result = .ok false

end Predicate

def Returns {α : Type} (f : I → Traced Failure α) (x : I) : Prop := ∃ a, (f x).result = .ok a

open Predicate

/-- The first predicate that accepts is the one at this position. -/
structure FirstAccepting (ps : List (Predicate I)) (x : I) (i : Nat) : Prop where
  here : ∃ p, ps[i]? = some p ∧ Accepts p x
  before : ∀ j < i, ∀ p, ps[j]? = some p → Rejects p x

/-- The predicate at this position fails, and those before it reject. -/
structure FirstFailing (ps : List (Predicate I)) (x : I) (i : Nat) (e : Failure) : Prop where
  here : ∃ p, ps[i]? = some p ∧ (p x).result = .error e
  before : ∀ j < i, ∀ p, ps[j]? = some p → Rejects p x

/-- What is left in the trace when each of these predicates is asked once, in their order. -/
def asked (x : I) (ps : List (Predicate I)) : List Signal := ps.flatMap fun p => (p x).signals

section Search

variable {ps : List (Predicate I)} {p : Predicate I} {x : I} {i : Nat} {e : Failure}

theorem Predicate.Accepts.not_rejects (h : Accepts p x) : ¬ Rejects p x := by
  intro hr
  rw [Rejects, h] at hr
  cases hr

theorem not_rejects_of_error (h : (p x).result = .error e) : ¬ Rejects p x := by
  intro hr
  rw [Rejects, h] at hr
  cases hr

theorem Returns.accepts (h : Returns p x) (hr : ¬ Rejects p x) : Accepts p x := by
  obtain ⟨verdict, hv⟩ := h
  cases verdict with
  | true => exact hv
  | false => exact absurd hv hr

theorem rejects_before_cons (hp : Rejects p x)
    (h : ∀ j < i, ∀ q, ps[j]? = some q → Rejects q x) :
    ∀ j < i + 1, ∀ q, (p :: ps)[j]? = some q → Rejects q x := by
  intro j hj q hq
  cases j with
  | zero =>
    obtain rfl := Option.some.inj hq
    exact hp
  | succ j => exact h j (Nat.lt_of_succ_lt_succ hj) q hq

theorem FirstAccepting.cons (h : FirstAccepting ps x i) (hp : Rejects p x) :
    FirstAccepting (p :: ps) x (i + 1) := ⟨h.here, rejects_before_cons hp h.before⟩

theorem FirstFailing.cons (h : FirstFailing ps x i e) (hp : Rejects p x) :
    FirstFailing (p :: ps) x (i + 1) e := ⟨h.here, rejects_before_cons hp h.before⟩

theorem FirstAccepting.lt_length (h : FirstAccepting ps x i) : i < ps.length := by
  obtain ⟨⟨p, hp, -⟩, -⟩ := h
  exact (List.getElem?_eq_some_iff.mp hp).1

theorem search_cases (ps : List (Predicate I)) (x : I) :
    (∀ p ∈ ps, Rejects p x) ∨ (∃ i, FirstAccepting ps x i) ∨ ∃ i e, FirstFailing ps x i e := by
  induction ps with
  | nil => exact .inl nofun
  | cons p ps ih =>
    cases hp : (p x).result with
    | error e => exact .inr (.inr ⟨0, e, ⟨p, rfl, hp⟩, nofun⟩)
    | ok verdict =>
      cases verdict with
      | true => exact .inr (.inl ⟨0, ⟨p, rfl, hp⟩, nofun⟩)
      | false =>
        rcases ih with hall | ⟨i, hi⟩ | ⟨i, e, hi⟩
        · exact .inl (List.forall_mem_cons.mpr ⟨hp, hall⟩)
        · exact .inr (.inl ⟨i + 1, hi.cons hp⟩)
        · exact .inr (.inr ⟨i + 1, e, hi.cons hp⟩)

theorem rejects_or_firstAccepting (h : ∀ p ∈ ps, Returns p x) :
    (∀ p ∈ ps, Rejects p x) ∨ ∃ i, FirstAccepting ps x i := by
  rcases search_cases ps x with hall | hi | ⟨i, e, ⟨p, hp, he⟩, -⟩
  · exact .inl hall
  · exact .inr hi
  · obtain ⟨verdict, hv⟩ := h p (List.mem_of_getElem? hp)
    rw [he] at hv
    cases hv

end Search

namespace Switch

variable {ps : List (Predicate I)} {p : Predicate I} {x : I} {i : Nat} {e : Failure}

theorem select_cons_of_rejects (start : Nat) (hp : Rejects p x) (ps : List (Predicate I)) :
    select x start (p :: ps) =
      ⟨(p x).signals ++ (select x (start + 1) ps).signals, (select x (start + 1) ps).result⟩ := by
  have hp : (p x).result = .ok false := hp
  simp only [select, Bind.bind, Traced.bind, hp, Bool.false_eq_true, if_false]

theorem select_of_rejects (start : Nat) (h : ∀ q ∈ ps, Rejects q x) :
    select x start ps = ⟨asked x ps, .ok none⟩ := by
  induction ps generalizing start with
  | nil => rfl
  | cons q ps ih =>
    obtain ⟨hq, hps⟩ := List.forall_mem_cons.mp h
    rw [select_cons_of_rejects start hq, ih (start + 1) hps]
    rfl

/-- At the first predicate that does not reject, its verdict or failure decides. -/
theorem select_of_before (start : Nat) (hp : ps[i]? = some p)
    (hb : ∀ j < i, ∀ q, ps[j]? = some q → Rejects q x) (hn : ¬ Rejects p x) :
    select x start ps =
      ⟨asked x (ps.take (i + 1)), (p x).result.map fun _ => some (start + i)⟩ := by
  induction ps generalizing start i with
  | nil => cases hp
  | cons q ps ih =>
    cases i with
    | zero =>
      obtain rfl := Option.some.inj hp
      have hasked : asked x ((q :: ps).take (0 + 1)) = (q x).signals := List.append_nil _
      rw [hasked]
      simp only [select, Bind.bind, Traced.bind]
      cases hr : (q x).result with
      | error e => rfl
      | ok verdict =>
        cases verdict with
        | true => simp [pure, Except.map]
        | false => exact absurd hr hn
    | succ i =>
      have hq : Rejects q x := hb 0 (Nat.succ_pos i) q rfl
      have hbefore : ∀ j < i, ∀ r, ps[j]? = some r → Rejects r x := fun j hj r hr =>
        hb (j + 1) (Nat.succ_lt_succ hj) r hr
      rw [select_cons_of_rejects start hq, ih (start + 1) hp hbefore, Nat.add_right_comm]
      rfl

theorem select_of_first (h : FirstAccepting ps x i) :
    select x 0 ps = ⟨asked x (ps.take (i + 1)), .ok (some i)⟩ := by
  obtain ⟨⟨p, hp, hacc⟩, hbefore⟩ := h
  have hverdict : (p x).result = .ok true := hacc
  rw [select_of_before 0 hp hbefore hacc.not_rejects, hverdict, Nat.zero_add]
  rfl

theorem select_of_failing (h : FirstFailing ps x i e) :
    select x 0 ps = ⟨asked x (ps.take (i + 1)), .error e⟩ := by
  obtain ⟨⟨p, hp, he⟩, hbefore⟩ := h
  rw [select_of_before 0 hp hbefore (not_rejects_of_error he), he]
  rfl

variable [Inhabited O] {s : Switch (Predicate I) (Transformer I O)}

theorem transform_of_first (h : FirstAccepting s.predicates x i) {t : Transformer I O}
    (ht : s.transformers[i]? = some t) :
    s.transform x = ⟨asked x (s.predicates.take (i + 1)) ++ .event (.ruleMatched i) ::
      (t x).signals, (t x).result⟩ := by
  simp only [transform, select_of_first h, Bind.bind, Traced.bind, Traced.emit, ht,
    List.cons_append, List.nil_append]

theorem transform_of_missing (h : FirstAccepting s.predicates x i)
    (hm : s.transformers.length ≤ i) :
    s.transform x = ⟨asked x (s.predicates.take (i + 1)) ++ [.event (.ruleMatched i)],
      .error (.missingTransformer i)⟩ := by
  have hnone : s.transformers[i]? = none := List.getElem?_eq_none hm
  simp only [transform, select_of_first h, Bind.bind, Traced.bind, Traced.emit, hnone, Traced.fail,
    List.append_nil]

theorem transform_of_rejects (h : ∀ p ∈ s.predicates, Rejects p x) :
    s.transform x = ⟨asked x s.predicates ++ .event .noRuleMatched ::
      (s.fallbackTransformer x).signals, (s.fallbackTransformer x).result⟩ := by
  simp only [transform, select_of_rejects 0 h, Bind.bind, Traced.bind, Traced.emit,
    List.cons_append, List.nil_append]

theorem transform_of_failing (h : FirstFailing s.predicates x i e) :
    s.transform x = ⟨asked x (s.predicates.take (i + 1)), .error e⟩ := by
  simp only [transform, select_of_failing h, Bind.bind, Traced.bind]

end Switch

/-! Watched functors -/

def watch {α : Type} (name : String) (f : I → Traced Failure α) : I → Traced Failure α :=
  fun x => do
    Traced.call name
    f x

structure Labels where
  predicate : Nat → String
  transformer : Nat → String
  fallback : String

/-- As `asked`, each predicate leaving the name of its position first. -/
def askedByName (name : Nat → String) (x : I) (ps : List (Predicate I)) : List Signal :=
  (ps.mapIdx fun i p => .called (name i) :: (p x).signals).flatten

theorem asked_watched (name : Nat → String) (x : I) (ps : List (Predicate I)) :
    asked x (ps.mapIdx fun i p => watch (name i) p) = askedByName name x ps := by
  have hnamed : ps.mapIdx (fun i p => .called (name i) :: (p x).signals) =
      (ps.mapIdx fun i p => watch (name i) p).map fun p => (p x).signals := by
    rw [List.mapIdx_eq_iff]
    intro i
    rw [List.getElem?_map, List.getElem?_mapIdx, Option.map_map]
    rfl
  rw [asked, List.flatMap_def, askedByName, hnamed]

theorem take_mapIdx {α β : Type} (f : Nat → α → β) (xs : List α) (n : Nat) :
    (xs.mapIdx f).take n = (xs.take n).mapIdx f := by
  apply List.ext_getElem?
  intro i
  simp only [List.getElem?_take, List.getElem?_mapIdx]
  split <;> rfl

namespace Switch

variable [Inhabited O] {s : Switch (Predicate I) (Transformer I O)} {x : I} {i : Nat} {e : Failure}

def watched (l : Labels) (s : Switch (Predicate I) (Transformer I O)) :
    Switch (Predicate I) (Transformer I O) :=
  ⟨s.predicates.mapIdx fun i p => watch (l.predicate i) p,
    s.transformers.mapIdx fun i t => watch (l.transformer i) t,
    some (watch l.fallback s.fallbackTransformer)⟩

theorem asked_take_watched (l : Labels) (n : Nat) :
    asked x ((s.watched l).predicates.take n) =
      askedByName l.predicate x (s.predicates.take n) := by
  rw [← asked_watched, ← take_mapIdx]
  rfl

theorem rejects_before_watched (l : Labels)
    (h : ∀ j < i, ∀ p, s.predicates[j]? = some p → Rejects p x) :
    ∀ j < i, ∀ p, (s.watched l).predicates[j]? = some p → Rejects p x := by
  intro j hj q hq
  simp only [watched, List.getElem?_mapIdx, Option.map_eq_some_iff] at hq
  obtain ⟨p, hp, rfl⟩ := hq
  exact h j hj p hp

theorem transform_watched_of_first (l : Labels) (h : FirstAccepting s.predicates x i)
    {t : Transformer I O} (ht : s.transformers[i]? = some t) :
    (s.watched l).transform x =
      ⟨askedByName l.predicate x (s.predicates.take (i + 1)) ++ .event (.ruleMatched i) ::
        .called (l.transformer i) :: (t x).signals, (t x).result⟩ := by
  obtain ⟨⟨p, hp, hacc⟩, hbefore⟩ := h
  have hfirst : FirstAccepting (s.watched l).predicates x i :=
    ⟨⟨watch (l.predicate i) p, by simp [watched, hp], hacc⟩, rejects_before_watched l hbefore⟩
  have htw : (s.watched l).transformers[i]? = some (watch (l.transformer i) t) := by
    simp [watched, ht]
  rw [transform_of_first hfirst htw, asked_take_watched]
  rfl

theorem transform_watched_of_rejects (l : Labels) (h : ∀ p ∈ s.predicates, Rejects p x) :
    (s.watched l).transform x =
      ⟨askedByName l.predicate x s.predicates ++ .event .noRuleMatched ::
        .called l.fallback :: (s.fallbackTransformer x).signals,
        (s.fallbackTransformer x).result⟩ := by
  have hall : ∀ p ∈ (s.watched l).predicates, Rejects p x := by
    intro q hq
    obtain ⟨i, hi, rfl⟩ := List.mem_mapIdx.mp hq
    exact h s.predicates[i] (List.getElem_mem hi)
  rw [transform_of_rejects hall, ← asked_watched]
  rfl

theorem transform_watched_of_failing (l : Labels) (h : FirstFailing s.predicates x i e) :
    (s.watched l).transform x =
      ⟨askedByName l.predicate x (s.predicates.take (i + 1)), .error e⟩ := by
  obtain ⟨⟨p, hp, he⟩, hbefore⟩ := h
  have hfirst : FirstFailing (s.watched l).predicates x i e :=
    ⟨⟨watch (l.predicate i) p, by simp [watched, hp], he⟩, rejects_before_watched l hbefore⟩
  rw [transform_of_failing hfirst, asked_take_watched]

end Switch

/-! Switches inside switches -/

/-- Switches to any depth, as transformers of rules and as fallbacks. -/
inductive Nest (I O : Type) where
  | leaf (transformer : Transformer I O)
  | switch (predicates : List (Predicate I)) (transformers : List (Nest I O))
      (fallback : Option (Nest I O))

structure Choice (I : Type) where
  predicates : List (Predicate I)
  event : Event

def Choice.signals (x : I) (c : Choice I) : List Signal := asked x c.predicates ++ [.event c.event]

def eventsIn (signals : List Signal) : List Event :=
  (⟨signals, .ok ()⟩ : Traced Failure Unit).events

theorem Traced.events_eq {α : Type} (x : Traced Failure α) : x.events = eventsIn x.signals := rfl

theorem eventsIn_append (signals rest : List Signal) :
    eventsIn (signals ++ rest) = eventsIn signals ++ eventsIn rest := List.filterMap_append

theorem eventsIn_asked {x : I} {ps : List (Predicate I)} (h : ∀ p ∈ ps, (p x).events = []) :
    eventsIn (asked x ps) = [] := by
  induction ps with
  | nil => rfl
  | cons p ps ih =>
    obtain ⟨hp, hps⟩ := List.forall_mem_cons.mp h
    have hp : eventsIn (p x).signals = [] := hp
    have hrest := ih hps
    rw [asked] at hrest
    rw [asked, List.flatMap_cons, eventsIn_append, hp, hrest, List.nil_append]

theorem Choice.eventsIn_signals {x : I} {choices : List (Choice I)}
    (h : ∀ c ∈ choices, ∀ p ∈ c.predicates, (p x).events = []) :
    eventsIn (choices.flatMap (Choice.signals x)) = choices.map Choice.event := by
  induction choices with
  | nil => rfl
  | cons c choices ih =>
    obtain ⟨hc, hchoices⟩ := List.forall_mem_cons.mp h
    rw [List.flatMap_cons, signals, eventsIn_append, eventsIn_append, eventsIn_asked hc,
      ih hchoices]
    rfl

namespace Nest

mutual

def run [Inhabited O] : Nest I O → Transformer I O
  | .leaf t => t
  | .switch ps ts none => Switch.transform ⟨ps, runAll ts, none⟩
  | .switch ps ts (some d) => Switch.transform ⟨ps, runAll ts, some d.run⟩

def runAll [Inhabited O] : List (Nest I O) → List (Transformer I O)
  | [] => []
  | n :: ns => n.run :: runAll ns

end

/-- The way down by the choices on it, and the work it ends in: a transformer which is no switch is
applied, or a predicate fails, or there is no transformer for the rule that was taken. Branches to
the side of the way play no part. -/
inductive Descends (x : I) [Inhabited O] :
    Nest I O → List (Choice I) → Traced Failure O → Prop where
  | leaf (t : Transformer I O) : Descends x (.leaf t) [] (t x)
  | rule {ps : List (Predicate I)} {ts : List (Nest I O)} {d : Option (Nest I O)} {i : Nat}
      {n : Nest I O} {choices : List (Choice I)} {work : Traced Failure O}
      (first : FirstAccepting ps x i) (taken : ts[i]? = some n)
      (below : Descends x n choices work) :
      Descends x (.switch ps ts d) (⟨ps.take (i + 1), .ruleMatched i⟩ :: choices) work
  | missing {ps : List (Predicate I)} {ts : List (Nest I O)} {d : Option (Nest I O)} {i : Nat}
      (first : FirstAccepting ps x i) (absent : ts.length ≤ i) :
      Descends x (.switch ps ts d) [⟨ps.take (i + 1), .ruleMatched i⟩]
        (Traced.fail (.missingTransformer i))
  | fallback {ps : List (Predicate I)} {ts : List (Nest I O)} {n : Nest I O}
      {choices : List (Choice I)} {work : Traced Failure O} (rejects : ∀ p ∈ ps, Rejects p x)
      (below : Descends x n choices work) :
      Descends x (.switch ps ts (some n)) (⟨ps, .noRuleMatched⟩ :: choices) work
  | null {ps : List (Predicate I)} {ts : List (Nest I O)} (rejects : ∀ p ∈ ps, Rejects p x) :
      Descends x (.switch ps ts none) [⟨ps, .noRuleMatched⟩] (nullTransformer x)
  | failing {ps : List (Predicate I)} {ts : List (Nest I O)} {d : Option (Nest I O)} {i : Nat}
      {e : Failure} (first : FirstFailing ps x i e) :
      Descends x (.switch ps ts d) [] ⟨asked x (ps.take (i + 1)), .error e⟩

variable [Inhabited O] {x : I} {n : Nest I O} {choices : List (Choice I)} {work : Traced Failure O}

theorem runAll_eq (ns : List (Nest I O)) : runAll ns = ns.map run := by
  induction ns with
  | nil => rfl
  | cons n ns ih => rw [runAll, ih, List.map_cons]

theorem run_switch (ps : List (Predicate I)) (ts : List (Nest I O)) (d : Option (Nest I O)) :
    (Nest.switch ps ts d).run = Switch.transform ⟨ps, ts.map run, d.map run⟩ := by
  cases d <;> rw [run, runAll_eq] <;> rfl

/-- The whole trace is that of the choices on the way down and then that of the work, whose result
comes back as it is. -/
theorem Descends.run_eq (h : n.Descends x choices work) :
    n.run x = ⟨choices.flatMap (Choice.signals x) ++ work.signals, work.result⟩ := by
  induction h with
  | leaf t => rfl
  | @rule ps ts d i n choices work first taken _ ih =>
    have htaken : (ts.map run)[i]? = some n.run := by
      rw [List.getElem?_map, taken, Option.map_some]
    rw [run_switch, Switch.transform_of_first first htaken, ih, List.flatMap_cons, Choice.signals]
    simp only [List.append_assoc, List.cons_append, List.nil_append]
  | @missing ps ts d i first absent =>
    have habsent : (ts.map run).length ≤ i := by rwa [List.length_map]
    rw [run_switch, Switch.transform_of_missing first habsent, List.flatMap_singleton,
      Traced.fail, List.append_nil]
    rfl
  | fallback rejects _ ih =>
    rw [run_switch, Switch.transform_of_rejects rejects, List.flatMap_cons, Choice.signals]
    simp only [Switch.fallbackTransformer, Option.map_some, Option.getD_some, ih,
      List.append_assoc, List.cons_append, List.nil_append]
  | null rejects =>
    rw [run_switch, Switch.transform_of_rejects rejects, List.flatMap_singleton, Choice.signals,
      List.append_assoc]
    rfl
  | failing first => rw [run_switch, Switch.transform_of_failing first]; rfl

theorem exists_descends_of_first {ps : List (Predicate I)} {ts : List (Nest I O)} {i : Nat}
    (first : FirstAccepting ps x i) (d : Option (Nest I O))
    (each : ∀ n ∈ ts, ∃ choices work, n.Descends x choices work) :
    ∃ choices work, (Nest.switch ps ts d).Descends x choices work := by
  cases ht : ts[i]? with
  | none => exact ⟨_, _, .missing first (List.getElem?_eq_none_iff.mp ht)⟩
  | some n =>
    obtain ⟨choices, work, hbelow⟩ := each n (List.mem_of_getElem? ht)
    exact ⟨_, work, .rule first ht hbelow⟩

mutual

theorem exists_descends (x : I) : ∀ n : Nest I O, ∃ choices work, n.Descends x choices work
  | .leaf t => ⟨[], t x, .leaf t⟩
  | .switch ps ts none => by
    -- which branch is taken is known only at `x`, so all of them have to come to an end
    rcases search_cases ps x with hall | ⟨i, hi⟩ | ⟨i, e, hi⟩
    · exact ⟨_, _, .null hall⟩
    · exact exists_descends_of_first hi none (exists_descends_of_mem x ts)
    · exact ⟨_, _, .failing hi⟩
  | .switch ps ts (some d) => by
    rcases search_cases ps x with hall | ⟨i, hi⟩ | ⟨i, e, hi⟩
    · obtain ⟨choices, work, hbelow⟩ := exists_descends x d
      exact ⟨_, work, .fallback hall hbelow⟩
    · exact exists_descends_of_first hi (some d) (exists_descends_of_mem x ts)
    · exact ⟨_, _, .failing hi⟩

theorem exists_descends_of_mem (x : I) :
    ∀ ts : List (Nest I O), ∀ n ∈ ts, ∃ choices work, n.Descends x choices work
  | [] => nofun
  | t :: ts => List.forall_mem_cons.mpr ⟨exists_descends x t, exists_descends_of_mem x ts⟩

end

theorem Descends.events_run (h : n.Descends x choices work)
    (hquiet : ∀ c ∈ choices, ∀ p ∈ c.predicates, (p x).events = []) :
    (n.run x).events = choices.map Choice.event ++ work.events := by
  rw [h.run_eq, Traced.events_eq, eventsIn_append, Choice.eventsIn_signals hquiet]
  rfl

end Nest

/-- A switch with a transformer for every predicate, applied to any input. If a rule is taken, the
predicates up to the first that accepts are asked, in order and each once, then the rule is logged,
and then its transformer, and no other, is applied once, whose result comes back as it is. If all
predicates reject, each is asked once, that is logged, and the fallback alone is applied. If a
predicate fails before any accepts, it is the last to be asked and nothing is logged or applied.
One of the three always happens. In switches inside switches the event of the outer choice is
followed by what is left by the one that is applied, down to the work that is no switch; of branches
that are not taken nothing is asked. Both events are records of the lowest level, and the one of a
rule says which it is. -/
theorem transform_in_order [Inhabited O] (x : I) :
    (∀ s : Switch (Predicate I) (Transformer I O),
      (∀ i, FirstAccepting s.predicates x i → s.predicates.length ≤ s.transformers.length →
        ∃ t, s.transformers[i]? = some t ∧
          s.transform x = ⟨asked x (s.predicates.take (i + 1)) ++ .event (.ruleMatched i) ::
            (t x).signals, (t x).result⟩ ∧
          ∀ l, (s.watched l).transform x =
            ⟨askedByName l.predicate x (s.predicates.take (i + 1)) ++ .event (.ruleMatched i) ::
              .called (l.transformer i) :: (t x).signals, (t x).result⟩) ∧
      ((∀ p ∈ s.predicates, Rejects p x) →
        s.transform x = ⟨asked x s.predicates ++ .event .noRuleMatched ::
          (s.fallbackTransformer x).signals, (s.fallbackTransformer x).result⟩ ∧
        ∀ l, (s.watched l).transform x =
          ⟨askedByName l.predicate x s.predicates ++ .event .noRuleMatched ::
            .called l.fallback :: (s.fallbackTransformer x).signals,
            (s.fallbackTransformer x).result⟩) ∧
      (∀ i e, FirstFailing s.predicates x i e →
        s.transform x = ⟨asked x (s.predicates.take (i + 1)), .error e⟩ ∧
        ∀ l, (s.watched l).transform x =
          ⟨askedByName l.predicate x (s.predicates.take (i + 1)), .error e⟩) ∧
      ((∀ p ∈ s.predicates, Rejects p x) ∨ (∃ i, FirstAccepting s.predicates x i) ∨
        ∃ i e, FirstFailing s.predicates x i e)) ∧
    (∀ n : Nest I O, (∃ choices work, n.Descends x choices work) ∧
      ∀ choices work, n.Descends x choices work →
        n.run x = ⟨choices.flatMap (Choice.signals x) ++ work.signals, work.result⟩ ∧
        ((∀ c ∈ choices, ∀ p ∈ c.predicates, (p x).events = []) →
          (n.run x).events = choices.map Choice.event ++ work.events)) ∧
    (∀ i, (Event.ruleMatched i).record =
      ⟨.trace, "switchyard_core::impls::switch", "switch rule matched", [("rule", toString i)]⟩) ∧
    Event.noRuleMatched.record = ⟨.trace, "switchyard_core::impls::switch",
      "no switch rule matched, using default", []⟩ := by
  refine ⟨fun s => ⟨?_, ?_, ?_, search_cases s.predicates x⟩, ?_, fun _ => rfl, rfl⟩
  · intro i hi hlen
    have hlt : i < s.transformers.length := Nat.lt_of_lt_of_le hi.lt_length hlen
    have ht : s.transformers[i]? = some s.transformers[i] := List.getElem?_eq_getElem hlt
    exact ⟨s.transformers[i], ht, Switch.transform_of_first hi ht,
      fun l => Switch.transform_watched_of_first l hi ht⟩
  · intro hall
    exact ⟨Switch.transform_of_rejects hall, fun l => Switch.transform_watched_of_rejects l hall⟩
  · intro i e hi
    exact ⟨Switch.transform_of_failing hi, fun l => Switch.transform_watched_of_failing l hi⟩
  · intro n
    exact ⟨n.exists_descends x, fun choices work h => ⟨h.run_eq, h.events_run⟩⟩

/-- Negative numbers are doubled and turned, and zero becomes one. The last predicate has no verdict
on any number. -/
def signSwitch : Switch (Predicate Int) (Transformer Int Int) :=
  ⟨[fun x => pure (x < 0), fun x => pure (x == 0), fun _ => Traced.fail (.raised "no verdict")],
    [fun x => pure (-2 * x), fun _ => pure 1, pure], some pure⟩

/-- Without the last predicate, other numbers stay. -/
def turnSwitch : Switch (Predicate Int) (Transformer Int Int) :=
  { signSwitch with predicates := signSwitch.predicates.take 2 }

def digits : List (Predicate Int) := [fun x => pure (x ≤ -10), fun x => pure (x < 10)]

def digitSwitch : Nest Int Int :=
  .switch digits
    [.leaf fun _ => Traced.fail (.raised "no answer"),
      .switch signSwitch.predicates (signSwitch.transformers.map .leaf) (some (.leaf pure))]
    none

def digitChoices : List (Choice Int) :=
  [⟨digits, .ruleMatched 1⟩, ⟨turnSwitch.predicates, .ruleMatched 1⟩]

theorem signSwitch_first : FirstAccepting signSwitch.predicates 0 1 := by
  refine ⟨⟨_, rfl, rfl⟩, ?_⟩
  intro j hj p hp
  obtain rfl := Nat.lt_one_iff.mp hj
  obtain rfl := Option.some.inj hp
  rfl

theorem turnSwitch_rejects : ∀ p ∈ turnSwitch.predicates, Rejects p 5 := by
  intro p hp
  simp only [turnSwitch, signSwitch, List.take_succ_cons, List.take_zero, List.mem_cons,
    List.not_mem_nil, or_false] at hp
  rcases hp with rfl | rfl <;> rfl

theorem signSwitch_failing : FirstFailing signSwitch.predicates 5 2 (.raised "no verdict") := by
  refine ⟨⟨_, rfl, rfl⟩, ?_⟩
  intro j hj p hp
  have hmem : p ∈ turnSwitch.predicates :=
    List.mem_of_getElem? ((List.getElem?_take_of_lt hj).trans hp)
  exact turnSwitch_rejects p hmem

theorem digitSwitch_descends : digitSwitch.Descends 0 digitChoices (pure 1) := by
  have hdigits : FirstAccepting digits 0 1 := by
    refine ⟨⟨_, rfl, rfl⟩, ?_⟩
    intro j hj p hp
    obtain rfl := Nat.lt_one_iff.mp hj
    obtain rfl := Option.some.inj hp
    rfl
  exact .rule hdigits rfl (.rule signSwitch_first rfl (.leaf _))

theorem digitChoices_quiet : ∀ c ∈ digitChoices, ∀ p ∈ c.predicates, (p 0).events = [] := by
  intro c hc p hp
  simp only [digitChoices, List.mem_cons, List.not_mem_nil, or_false] at hc
  rcases hc with rfl | rfl
  · simp only [digits, List.mem_cons, List.not_mem_nil, or_false] at hp
    rcases hp with rfl | rfl <;> rfl
  · simp only [turnSwitch, signSwitch, List.take_succ_cons, List.take_zero, List.mem_cons,
      List.not_mem_nil, or_false] at hp
    rcases hp with rfl | rfl <;> rfl

/-- Zero does not come to the predicate without a verdict and five does. -/
theorem digitSwitch_in_order :
    (FirstAccepting signSwitch.predicates 0 1 ∧
      signSwitch.predicates.length ≤ signSwitch.transformers.length ∧
      ∀ l : Labels, (signSwitch.watched l).transform 0 =
        ⟨[.called (l.predicate 0), .called (l.predicate 1), .event (.ruleMatched 1),
          .called (l.transformer 1)], .ok 1⟩) ∧
    ((∀ p ∈ turnSwitch.predicates, Rejects p 5) ∧
      ∀ l : Labels, (turnSwitch.watched l).transform 5 =
        ⟨[.called (l.predicate 0), .called (l.predicate 1), .event .noRuleMatched,
          .called l.fallback], .ok 5⟩) ∧
    (FirstFailing signSwitch.predicates 5 2 (.raised "no verdict") ∧
      ∀ l : Labels, (signSwitch.watched l).transform 5 =
        ⟨[.called (l.predicate 0), .called (l.predicate 1), .called (l.predicate 2)],
          .error (.raised "no verdict")⟩) ∧
    digitSwitch.Descends 0 digitChoices (pure 1) ∧
    (∀ c ∈ digitChoices, ∀ p ∈ c.predicates, (p 0).events = []) ∧
    (digitSwitch.run 0).result = .ok 1 ∧
    (digitSwitch.run 0).events = [.ruleMatched 1, .ruleMatched 1] := by
  obtain ⟨hzero, hnest, -⟩ := transform_in_order (O := Int) (0 : Int)
  obtain ⟨hfive, -⟩ := transform_in_order (O := Int) (5 : Int)
  obtain ⟨hrun, hevents⟩ := (hnest digitSwitch).2 digitChoices (pure 1) digitSwitch_descends
  obtain ⟨t, ht, -, hwatched⟩ := (hzero signSwitch).1 1 signSwitch_first (Nat.le_refl _)
  obtain rfl := Option.some.inj ht
  refine ⟨⟨signSwitch_first, Nat.le_refl _, hwatched⟩,
    ⟨turnSwitch_rejects, ((hfive turnSwitch).2.1 turnSwitch_rejects).2⟩,
    ⟨signSwitch_failing, ((hfive signSwitch).2.2.1 2 _ signSwitch_failing).2⟩,
    digitSwitch_descends, digitChoices_quiet, ?_, hevents digitChoices_quiet⟩
  rw [hrun]
  rfl

end FirstMatch
