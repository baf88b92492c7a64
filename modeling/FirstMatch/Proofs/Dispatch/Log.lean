import FirstMatch.Proofs.Dispatch.Builder
import FirstMatch.Proofs.Dispatch.Range
import FirstMatch.Proofs.Selection

/-!
The log of construction and of runs. Checked construction leaves exactly one event when it succeeds
and none when it does not, and the event tells the case. A table that passes the check for depth
adds one event before it, and the answers to a list of values add one event for each value if there
are rules.
-/

namespace FirstMatch

namespace Traced

variable {ε α β : Type}

theorem mapM_eq {f : α → Traced ε β} {signals : α → List Signal} {answer : α → β}
    (h : ∀ a, f a = ⟨signals a, .ok (answer a)⟩) (xs : List α) :
    xs.mapM f = ⟨xs.flatMap signals, .ok (xs.map answer)⟩ := by
  induction xs with
  | nil => rfl
  | cons x xs ih =>
    rw [List.mapM_cons, h x, ih]
    simp only [Bind.bind, bind, pure, List.append_nil, List.flatMap_cons, List.map_cons]

end Traced

namespace Dispatcher

variable {P T : Type}

structure Filled (ps : Option (List (Option P))) (ts : Option (List (Option T)))
    (rules : List (P × T)) : Prop where
  predicates : ps = some (rules.map fun r => some r.1)
  transformers : ts = some (rules.map fun r => some r.2)

/-- What construction from two sequences gives, and what it leaves in the log. -/
inductive SequencesLogged (ps : Option (List (Option P))) (ts : Option (List (Option T)))
    (fallback : Option T) : Traced ConstructionError (Dispatcher P T) → Prop where
  | refused (unfilled : ∀ rules, ¬ Filled ps ts rules) (e : ConstructionError) :
      SequencesLogged ps ts fallback ⟨[], .error e⟩
  | empty (filled : Filled ps ts []) :
      SequencesLogged ps ts fallback
        ⟨[.event (.emptyTable fallback.isSome)], .ok (ofFallback fallback)⟩
  | built (rules : List (P × T)) (filled : Filled ps ts rules) (nonempty : rules ≠ []) :
      SequencesLogged ps ts fallback
        ⟨[.event (.buildingSwitch rules.length)],
          .ok (.table ⟨rules.map Prod.fst, rules.map Prod.snd, fallback⟩)⟩

/-- What construction from a map gives, and what it leaves in the log. A map that cannot be built
from has an absent transformer, or two entries under `none`. -/
inductive MapLogged : Option (RuleMap P T) → Traced ConstructionError (Dispatcher P T) → Prop where
  | absent (e : ConstructionError) : MapLogged none ⟨[], .error e⟩
  | refused (m : RuleMap P T)
      (unarranged : ∀ rules fallback, ¬ Builder.Arranged rules fallback m.entries)
      (e : ConstructionError) : MapLogged (some m) ⟨[], .error e⟩
  | empty : MapLogged (some .empty) ⟨[.event .emptyMap], .ok .null⟩
  | onlyDefault (fallback : Option T) :
      MapLogged (some ⟨[(none, fallback)]⟩)
        ⟨[.event (.onlyDefault fallback.isSome)], .ok (ofFallback fallback)⟩
  | built (m : RuleMap P T) (rules : List (P × T)) (fallback : Option T)
      (arranged : Builder.Arranged rules fallback m.entries) (nonempty : rules ≠ []) :
      MapLogged (some m)
        ⟨[.event (.buildingFromMap rules.length)],
          .ok (.table ⟨rules.map Prod.fst, rules.map Prod.snd, fallback⟩)⟩

section Sequences

variable {ps : Option (List (Option P))} {ts : Option (List (Option T))} {fallback : Option T}

theorem exists_filled {predicates : List P} {transformers : List T}
    (hp : Side.predicate.require ps = .ok predicates)
    (ht : Side.transformer.require ts = .ok transformers)
    (hlen : predicates.length = transformers.length) : ∃ rules, Filled ps ts rules := by
  refine ⟨predicates.zip transformers, ?_, ?_⟩
  · have hfst : (predicates.zip transformers).map (some ∘ Prod.fst) = predicates.map some := by
      rw [← List.map_map, List.map_fst_zip hlen.le]
    rw [Side.require_eq_ok hp, ← hfst]
    rfl
  · have hsnd : (predicates.zip transformers).map (some ∘ Prod.snd) = transformers.map some := by
      rw [← List.map_map, List.map_snd_zip hlen.ge]
    rw [Side.require_eq_ok ht, ← hsnd]
    rfl

theorem ofSlots_unfilled (h : ∀ rules, ¬ Filled ps ts rules) (fallback : Option T) :
    ∃ e, ofSlots ps ts fallback = ⟨[], .error e⟩ := by
  rw [ofSlots]
  cases hps : Side.predicate.require ps with
  | error e => exact ⟨e, rfl⟩
  | ok predicates =>
    cases hts : Side.transformer.require ts with
    | error e => exact ⟨e, rfl⟩
    | ok transformers =>
      have hlen : predicates.length ≠ transformers.length := by
        intro hlen
        obtain ⟨rules, hfilled⟩ := exists_filled hps hts hlen
        exact h rules hfilled
      simp only [Traced.ofExcept_ok, pure_bind, ne_eq, hlen, not_false_eq_true, if_true]
      exact ⟨_, rfl⟩

theorem sequencesLogged_ofSlots (ps : Option (List (Option P))) (ts : Option (List (Option T)))
    (fallback : Option T) : SequencesLogged ps ts fallback (ofSlots ps ts fallback) := by
  by_cases h : ∃ rules, Filled ps ts rules
  · obtain ⟨rules, hfilled⟩ := h
    have hbuilt : ofSlots ps ts fallback =
        ⟨[.event (.ofRules rules fallback)], .ok (ofRules Prod.fst Prod.snd rules fallback)⟩ := by
      rw [hfilled.predicates, hfilled.transformers]
      exact ofSlots_rules Prod.fst Prod.snd rules fallback
    rw [hbuilt]
    by_cases hne : rules = []
    · subst hne
      exact .empty hfilled
    · rw [Event.ofRules, ofRules, if_neg (by simpa using hne), if_neg (by simpa using hne)]
      exact .built rules hfilled hne
  · obtain ⟨e, he⟩ := ofSlots_unfilled (not_exists.mp h) fallback
    rw [he]
    exact .refused (not_exists.mp h) e

end Sequences

section Maps

variable {rules : List (P × T)} {fallback : Option T}

theorem Filled.entries_eq {entries : List (Option P × Option T)}
    (h : Filled (some (entries.map Prod.fst)) (some (entries.map Prod.snd)) rules) :
    entries = rules.map Builder.entry := by
  have hfst := Option.some.inj h.predicates
  have hsnd := Option.some.inj h.transformers
  rw [List.zip_of_prod hfst hsnd, List.zip_map']
  rfl

theorem entries_of_no_rules {entries : List (Option P × Option T)}
    (h : Builder.Arranged [] fallback entries) :
    entries = [] ∨ entries = [(none, fallback)] := by
  generalize hrules : ([] : List (P × T)) = rules at h
  cases h with
  | absent => exact .inl (congrArg (List.map Builder.entry) hrules.symm)
  | entered before after =>
    obtain ⟨rfl, rfl⟩ := List.append_eq_nil_iff.mp hrules.symm
    exact .inr rfl

variable [DecidableEq P]

theorem eraseP_arranged {entries : List (Option P × Option T)}
    (h : Builder.Arranged rules fallback entries) :
    entries.eraseP (fun e => e.1 == none) = rules.map Builder.entry := by
  have hkeyed : ∀ rs : List (P × T), ∀ e ∈ rs.map Builder.entry, ¬ (e.1 == none) = true := by
    intro rs e he
    obtain ⟨r, -, rfl⟩ := List.mem_map.mp he
    simp [Builder.entry]
  cases h with
  | absent => exact List.eraseP_of_forall_not (hkeyed rules)
  | entered before after =>
    rw [List.eraseP_append_right _ (hkeyed before), List.eraseP_cons_of_pos (by simp),
      List.map_append]

theorem arranged_of_eraseP {entries : List (Option P × Option T)}
    (h : entries.eraseP (fun e => e.1 == none) = rules.map Builder.entry) :
    Builder.Arranged rules (entries.lookup none).join entries := by
  rcases List.exists_or_eq_self_of_eraseP (fun e => e.1 == none) entries with
    hself | ⟨⟨key, value⟩, before, after, -, hkey, rfl, hrest⟩
  · obtain rfl : entries = rules.map Builder.entry := hself.symm.trans h
    rw [Builder.lookup_map_entry]
    exact .absent rules
  · obtain ⟨rules, rest, rfl, rfl, rfl⟩ := List.append_eq_map_iff.mp (hrest.symm.trans h)
    obtain rfl : key = none := beq_iff_eq.mp hkey
    have harranged := Builder.Arranged.entered rules rest value
    rw [harranged.lookup_eq]
    exact harranged

variable {m : RuleMap P T}

theorem remove_arranged (h : Builder.Arranged rules fallback m.entries) :
    m.remove none = (m.get? none, ⟨rules.map Builder.entry⟩) :=
  Prod.ext rfl (congrArg RuleMap.mk (eraseP_arranged h))

theorem ofMap_arranged (h : Builder.Arranged rules fallback m.entries) (hne : rules ≠ []) :
    ofMap (some m) =
      ⟨[.event (.buildingFromMap rules.length)],
        .ok (.table ⟨rules.map Prod.fst, rules.map Prod.snd, fallback⟩)⟩ := by
  have hm : m.entries ≠ [] := by
    intro hm
    have hrest := eraseP_arranged h
    rw [hm, List.eraseP_nil] at hrest
    exact hne (List.map_eq_nil_iff.mp hrest.symm)
  have hempty : m.isEmpty = false := List.isEmpty_eq_false_iff.mpr hm
  have hrules : (⟨rules.map Builder.entry⟩ : RuleMap P T).isEmpty = false := by
    simpa [RuleMap.isEmpty] using hne
  have hp : Side.predicate.require (some ((rules.map Builder.entry).map Prod.fst)) =
      .ok (rules.map Prod.fst) := by
    rw [List.map_map]
    exact Side.elements_map_some .predicate Prod.fst 0 rules
  have ht : Side.transformer.require (some ((rules.map Builder.entry).map Prod.snd)) =
      .ok (rules.map Prod.snd) := by
    rw [List.map_map]
    exact Side.elements_map_some .transformer Prod.snd 0 rules
  have hfallback : (m.get? none).join = fallback := h.lookup_eq
  simp only [ofMap, hempty, remove_arranged h, hrules, hp, ht, hfallback, Bool.false_eq_true,
    if_false, Traced.ofExcept_ok, pure_bind, List.length_map]
  rfl

theorem ofMap_unarranged (h : ∀ rules fallback, ¬ Builder.Arranged rules fallback m.entries) :
    ∃ e, ofMap (some m) = ⟨[], .error e⟩ := by
  have hrest : ∀ rules : List (P × T), (m.remove none).2.entries ≠ rules.map Builder.entry :=
    fun rules hrules => h rules _ (arranged_of_eraseP hrules)
  have hempty : m.isEmpty = false := by
    refine List.isEmpty_eq_false_iff.mpr fun hm => h [] none ?_
    rw [hm]
    exact .absent []
  have hrules : (m.remove none).2.isEmpty = false :=
    List.isEmpty_eq_false_iff.mpr (hrest [])
  simp only [ofMap, hempty, hrules, Bool.false_eq_true, if_false]
  cases hps : Side.predicate.require (some ((m.remove none).2.entries.map Prod.fst)) with
  | error e => exact ⟨e, rfl⟩
  | ok predicates =>
    cases hts : Side.transformer.require (some ((m.remove none).2.entries.map Prod.snd)) with
    | error e => exact ⟨e, rfl⟩
    | ok transformers =>
      have hkeys := congrArg List.length (Option.some.inj (Side.require_eq_ok hps))
      have hvalues := congrArg List.length (Option.some.inj (Side.require_eq_ok hts))
      simp only [List.length_map] at hkeys hvalues
      obtain ⟨rules, hfilled⟩ := exists_filled hps hts (hkeys.symm.trans hvalues)
      exact absurd hfilled.entries_eq (hrest rules)

theorem mapLogged_ofMap (m : Option (RuleMap P T)) : MapLogged m (ofMap m) := by
  cases m with
  | none => exact .absent .missingMap
  | some m =>
    by_cases h : ∃ rules fallback, Builder.Arranged rules fallback m.entries
    · obtain ⟨rules, fallback, h⟩ := h
      by_cases hne : rules = []
      · subst hne
        obtain ⟨entries⟩ := m
        rcases entries_of_no_rules h with rfl | rfl
        · exact .empty
        · exact .onlyDefault fallback
      · rw [ofMap_arranged h hne]
        exact .built m rules fallback h hne
    · have hunarranged : ∀ rules fallback, ¬ Builder.Arranged rules fallback m.entries :=
        fun rules fallback harranged => h ⟨rules, fallback, harranged⟩
      obtain ⟨e, he⟩ := ofMap_unarranged hunarranged
      rw [he]
      exact .refused m hunarranged e

end Maps

end Dispatcher

namespace Table

theorem compile_of_invalid {t : Table} {e : TableError} (h : t.validate = .error e) :
    t.compile = ⟨[], .error e⟩ := by
  rw [compile, h]
  rfl

theorem compile_of_valid {t : Table} (h : t.validate = .ok ()) :
    t.compile =
      ⟨[.event (.compilingTable t.rules.length t.fallback.isSome),
        .event (.ofRules t.rules t.fallback)], .ok t.dispatcher⟩ := by
  simp only [compile, h, Traced.ofExcept_ok, pure_bind, Dispatcher.ofSlots_rules, Event.ofRules,
    Option.isSome_map]
  rfl

theorem mapM_transform_dispatcher (t : Table) (inputs : List Json) :
    inputs.mapM t.dispatcher.transform =
      ⟨if t.rules.isEmpty then [] else inputs.map fun x => .event (.ofChoice (t.choice x)),
        .ok (inputs.map t.output)⟩ := by
  have hstep : ∀ x, t.dispatcher.transform x =
      ⟨if t.rules.isEmpty then [] else [.event (.ofChoice (t.choice x))], .ok (t.output x)⟩ :=
    fun x => Traced.ext (t.signals_transform_dispatcher x) (t.result_transform_dispatcher x)
  rw [Traced.mapM_eq hstep]
  cases t.rules.isEmpty with
  | true => simp
  | false => simp [List.map_eq_flatMap]

end Table

structure Event.Says (e : Event) (message : String) (fields : List (String × String)) : Prop where
  level : e.level = .debug
  message : e.message = message
  fields : e.fields = fields

/-- Construction from two sequences and construction from a map leave one event when they succeed
and none when they fail, and the event tells the case with its numbers. A table that is too deep
leaves none; any other leaves the event of its compilation and the event of its construction, and
the run over a list of values then leaves one event for each of them if the table has rules, and
else none. What construction leaves is for debugging, and what a run leaves is more detailed. -/
theorem construction_logged :
    (∀ {P T : Type} (ps : Option (List (Option P))) (ts : Option (List (Option T)))
      (fallback : Option T),
      Dispatcher.SequencesLogged ps ts fallback (Dispatcher.ofSlots ps ts fallback)) ∧
    (∀ {P T : Type} [DecidableEq P] (m : Option (RuleMap P T)),
      Dispatcher.MapLogged m (Dispatcher.ofMap m)) ∧
    (∀ t : Table, match t.validate with
      | .error e => t.compile = ⟨[], .error e⟩
      | .ok () => ∃ d,
        t.compile =
          ⟨[.event (.compilingTable t.rules.length t.fallback.isSome),
            .event (if t.rules.isEmpty then .emptyTable t.fallback.isSome
              else .buildingSwitch t.rules.length)], .ok d⟩ ∧
        ∀ inputs : List Json, inputs.mapM d.transform =
          ⟨if t.rules.isEmpty then [] else inputs.map fun x => .event (.ofChoice (t.choice x)),
            .ok (inputs.map t.output)⟩) ∧
    (∀ rules hasDefault, (Event.compilingTable rules hasDefault).Says "compiling switch spec"
      [("rules", toString rules), ("has_default", toString hasDefault)]) ∧
    (∀ hasDefault, (Event.emptyTable hasDefault).Says "empty switch table"
      [("has_default", toString hasDefault)]) ∧
    (∀ rules, (Event.buildingSwitch rules).Says "building switch transformer"
      [("rules", toString rules)]) ∧
    Event.emptyMap.Says "empty switch map" [] ∧
    (∀ hasDefault, (Event.onlyDefault hasDefault).Says "switch map holds only a default"
      [("has_default", toString hasDefault)]) ∧
    (∀ rules, (Event.buildingFromMap rules).Says "building switch transformer from map"
      [("rules", toString rules)]) ∧
    ∀ chosen, (Event.ofChoice chosen).level = .trace := by
  refine ⟨Dispatcher.sequencesLogged_ofSlots, Dispatcher.mapLogged_ofMap, ?_,
    fun _ _ => ⟨rfl, rfl, rfl⟩, fun _ => ⟨rfl, rfl, rfl⟩, fun _ => ⟨rfl, rfl, rfl⟩,
    ⟨rfl, rfl, rfl⟩, fun _ => ⟨rfl, rfl, rfl⟩, fun _ => ⟨rfl, rfl, rfl⟩, ?_⟩
  · intro t
    cases h : t.validate with
    | error e => exact Table.compile_of_invalid h
    | ok _ => exact ⟨t.dispatcher, Table.compile_of_valid h, t.mapM_transform_dispatcher⟩
  · intro chosen
    cases chosen <;> rfl

end FirstMatch
