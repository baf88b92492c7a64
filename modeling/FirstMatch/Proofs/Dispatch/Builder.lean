import FirstMatch.Dispatch.Builder
import FirstMatch.Proofs.Dispatch.Construction

/-!
The ways to one dispatcher. However rules and fallbacks were given to a builder, what it builds is
what the two sequences give, and what a map gives in which the fallback stands anywhere; the switch
answers every input as they do.
-/

namespace FirstMatch

namespace Builder

inductive Call (P T : Type) where
  | when (predicate : P) (transformer : T)
  | otherwise (transformer : T)
  deriving DecidableEq, Repr

namespace Call

variable {P T : Type}

def apply (b : Builder P T) : Call P T → Builder P T
  | .when p t => b.when p t
  | .otherwise t => b.otherwise t

def rule? : Call P T → Option (P × T)
  | .when p t => some (p, t)
  | .otherwise _ => none

def fallback? : Call P T → Option T
  | .when _ _ => none
  | .otherwise t => some t

end Call

variable {P T : Type}

def ofCalls (calls : List (Call P T)) : Builder P T := calls.foldl Call.apply empty

def given (calls : List (Call P T)) : List (P × T) := calls.filterMap Call.rule?

def lastFallback (calls : List (Call P T)) : Option T := (calls.filterMap Call.fallback?).getLast?

theorem foldl_apply (b : Builder P T) (calls : List (Call P T)) :
    calls.foldl Call.apply b = ⟨b.rules ++ given calls, (lastFallback calls).or b.fallback⟩ := by
  induction calls generalizing b with
  | nil => simp [given, lastFallback]
  | cons c calls ih =>
    rw [List.foldl_cons, ih]
    cases c with
    | when p t => simp [Call.apply, when, given, lastFallback, Call.rule?, Call.fallback?]
    | otherwise t =>
      simp only [Call.apply, otherwise, given, lastFallback, Call.rule?, Call.fallback?,
        List.filterMap_cons]
      cases h : (calls.filterMap Call.fallback?).getLast? <;> simp [List.getLast?_cons, h]

theorem ofCalls_eq (calls : List (Call P T)) :
    ofCalls calls = ⟨given calls, lastFallback calls⟩ := by
  simp only [ofCalls, foldl_apply, empty, List.nil_append, Option.or_none]

def entry (r : P × T) : Option P × Option T := (some r.1, some r.2)

/-- Rules as entries of a map, and the fallback under `none` at any place among them. Without a
fallback that entry may be absent as well. -/
inductive Arranged : List (P × T) → Option T → List (Option P × Option T) → Prop where
  | entered (before after : List (P × T)) (fallback : Option T) :
      Arranged (before ++ after) fallback
        (before.map entry ++ (none, fallback) :: after.map entry)
  | absent (rules : List (P × T)) : Arranged rules none (rules.map entry)

section Entries

variable {rules : List (P × T)} {fallback : Option T} {entries : List (Option P × Option T)}

theorem keys_map_entry (rules : List (P × T)) :
    (rules.map entry).map Prod.fst = (rules.map Prod.fst).map some := by
  simp only [List.map_map]
  rfl

theorem filter_map_entry (rules : List (P × T)) :
    (rules.map entry).filter (fun e => e.1.isSome) = rules.map entry := by
  rw [List.filter_eq_self]
  intro e he
  obtain ⟨r, -, rfl⟩ := List.mem_map.mp he
  rfl

theorem lookup_map_entry [DecidableEq P] (rules : List (P × T)) :
    (rules.map entry).lookup none = none := by
  rw [List.lookup_eq_none_iff]
  intro e he
  obtain ⟨r, -, rfl⟩ := List.mem_map.mp he
  rfl

namespace Arranged

theorem nodup_keys (h : Arranged rules fallback entries) (hn : (rules.map Prod.fst).Nodup) :
    (entries.map Prod.fst).Nodup := by
  have hsome := hn.map (Option.some_injective P)
  cases h with
  | absent => rwa [keys_map_entry]
  | entered before after =>
    rw [List.map_append, List.map_append] at hsome
    rw [List.map_append, List.map_cons, keys_map_entry, keys_map_entry, List.nodup_middle,
      List.nodup_cons]
    exact ⟨by simp, hsome⟩

theorem filter_eq (h : Arranged rules fallback entries) :
    entries.filter (fun e => e.1.isSome) = rules.map entry := by
  cases h with
  | absent => exact filter_map_entry rules
  | entered before after =>
    rw [List.filter_append, List.filter_cons_of_neg (by simp), filter_map_entry, filter_map_entry,
      List.map_append]

theorem lookup_eq [DecidableEq P] (h : Arranged rules fallback entries) :
    (entries.lookup none).join = fallback := by
  cases h with
  | absent => rw [lookup_map_entry]; rfl
  | entered before after =>
    rw [List.lookup_append, lookup_map_entry, Option.none_or, List.lookup_cons_self]
    rfl

end Arranged

end Entries

theorem result_build (calls : List (Call P T)) :
    (ofCalls calls).build.result =
      .ok (.ofRules Prod.fst Prod.snd (given calls) (lastFallback calls)) := by
  rw [ofCalls_eq]
  exact Dispatcher.result_ofSlots Prod.fst Prod.snd (given calls) (lastFallback calls)

theorem result_ofMap_ofList [DecidableEq P] {rules : List (P × T)} {fallback : Option T}
    {entries : List (Option P × Option T)} (h : Arranged rules fallback entries)
    (hn : (rules.map Prod.fst).Nodup) :
    (Dispatcher.ofMap (some (RuleMap.ofList entries))).result =
      .ok (.ofRules Prod.fst Prod.snd rules fallback) := by
  have hentries : (RuleMap.ofList entries).entries = entries :=
    RuleMap.entries_ofList (h.nodup_keys hn)
  have hkeys : (RuleMap.ofList entries).keys.Nodup := by
    rw [RuleMap.keys, hentries]
    exact h.nodup_keys hn
  have hrules : (RuleMap.ofList entries).rules = rules.map entry := by
    rw [RuleMap.rules, hentries, h.filter_eq]
  have hfallback : ((RuleMap.ofList entries).get? none).join = fallback := by
    rw [RuleMap.get?, hentries, h.lookup_eq]
  rw [Dispatcher.result_ofMap hkeys, hrules, hfallback, List.map_map, List.map_map]
  exact Dispatcher.result_ofSlots Prod.fst Prod.snd rules fallback

section Answers

variable {I O : Type} [Inhabited O] (p : P → Predicate I) (t : T → Transformer I O)

/-- With rules the switch is what construction gives. Without any, it gives the answer of the
fallback by the same calls, but leaves an event of its own in the log. -/
theorem transform_buildSwitch (b : Builder P T) (x : I) :
    ((b.buildSwitch.map p t).transform x).result =
        (((Dispatcher.ofRules Prod.fst Prod.snd b.rules b.fallback).map p t).transform x).result ∧
      ((b.buildSwitch.map p t).transform x).calls =
        (((Dispatcher.ofRules Prod.fst Prod.snd b.rules b.fallback).map p t).transform
          x).calls := by
  obtain ⟨rules, fallback⟩ := b
  cases rules with
  | cons r rules => exact ⟨rfl, rfl⟩
  | nil =>
    cases fallback with
    | none => exact ⟨rfl, rfl⟩
    | some action => exact ⟨rfl, rfl⟩

end Answers

/-- Whatever is said to a builder, it builds, and what it builds is what the sequences of its rules
give with the last fallback, and what the map gives in which that fallback stands anywhere among
the rules, if their predicates are different. The switch answers every input as this dispatcher
does, by the same calls. Without rules all of this holds as well. -/
theorem paths_agree [DecidableEq P] (calls : List (Call P T)) :
    ∃ d : Dispatcher P T,
      (ofCalls calls).build.result = .ok d ∧
      (Dispatcher.ofSlots (some ((given calls).map fun r => some r.1))
        (some ((given calls).map fun r => some r.2)) (lastFallback calls)).result = .ok d ∧
      (((given calls).map Prod.fst).Nodup →
        ∀ entries, Arranged (given calls) (lastFallback calls) entries →
          (Dispatcher.ofMap (some (RuleMap.ofList entries))).result = .ok d) ∧
      ∀ {I O : Type} [Inhabited O] (p : P → Predicate I) (t : T → Transformer I O) (x : I),
        (((ofCalls calls).buildSwitch.map p t).transform x).result =
          ((d.map p t).transform x).result ∧
        (((ofCalls calls).buildSwitch.map p t).transform x).calls =
          ((d.map p t).transform x).calls := by
  refine ⟨.ofRules Prod.fst Prod.snd (given calls) (lastFallback calls), result_build calls,
    Dispatcher.result_ofSlots Prod.fst Prod.snd (given calls) (lastFallback calls), ?_, ?_⟩
  · intro hn entries h
    exact result_ofMap_ofList h hn
  · intro I O _ p t x
    rw [ofCalls_eq]
    exact transform_buildSwitch p t ⟨given calls, lastFallback calls⟩ x

/-- Two rules, with a fallback before them that one between them replaces. -/
def twoRules : List (Call Nat Nat) := [.otherwise 7, .when 1 10, .otherwise 8, .when 2 20]

theorem twoRules_agree :
    ((given twoRules).map Prod.fst).Nodup ∧
    (Dispatcher.ofMap (some (RuleMap.ofList
      [(some 1, some 10), (none, some 8), (some 2, some 20)]))).result =
      (ofCalls twoRules).build.result ∧
    (((ofCalls twoRules).buildSwitch.map (fun n x => pure (x == n))
      fun n x => pure (x + n)).transform 5).result = .ok 13 := by
  obtain ⟨d, hbuild, -, hmap, hswitch⟩ := paths_agree twoRules
  have hd : d = .table ⟨[1, 2], [10, 20], some 8⟩ := by
    cases hbuild
    rfl
  have hn : ((given twoRules).map Prod.fst).Nodup := by decide
  refine ⟨hn, ?_, ?_⟩
  · rw [hbuild]
    exact hmap hn _ (.entered [(1, 10)] [(2, 20)] (some 8))
  · rw [(hswitch (fun n x => pure (x == n)) (fun n x => pure (x + n)) 5).1, hd]
    rfl

end Builder

end FirstMatch
