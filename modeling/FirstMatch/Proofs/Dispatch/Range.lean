import FirstMatch.Proofs.Dispatch.Construction
import FirstMatch.Proofs.Dispatch.Builder
import FirstMatch.Proofs.Dispatch.Order

/-!
Transformers that are missing. A switch of two lists looks for one if the first predicate that
accepts stands past the end of the transformers, and only then; what checked construction gives
never does.
-/

namespace FirstMatch

variable {I O : Type}

open Predicate

namespace Switch

/-- No functor of the switch itself ends in the search for a transformer that is missing. -/
structure Contained [Inhabited O] (s : Switch (Predicate I) (Transformer I O)) (x : I) :
    Prop where
  predicates : ∀ p ∈ s.predicates, ∀ i, (p x).result ≠ .error (.missingTransformer i)
  transformers : ∀ t ∈ s.transformers, ∀ i, (t x).result ≠ .error (.missingTransformer i)
  fallback : ∀ i, (s.fallbackTransformer x).result ≠ .error (.missingTransformer i)

variable [Inhabited O] {s : Switch (Predicate I) (Transformer I O)} {x : I} {i : Nat}

theorem missingTransformer_iff (hc : s.Contained x) (i : Nat) :
    (s.transform x).result = .error (.missingTransformer i) ↔
      FirstAccepting s.predicates x i ∧ s.transformers.length ≤ i := by
  constructor
  · intro h
    rcases search_cases s.predicates x with hall | ⟨j, hfirst⟩ | ⟨j, e, hfirst⟩
    · rw [transform_of_rejects hall] at h
      exact absurd h (hc.fallback i)
    · cases ht : s.transformers[j]? with
      | some t =>
        rw [transform_of_first hfirst ht] at h
        exact absurd h (hc.transformers t (List.mem_of_getElem? ht) i)
      | none =>
        have hm := List.getElem?_eq_none_iff.mp ht
        rw [transform_of_missing hfirst hm] at h
        obtain rfl := Failure.missingTransformer.inj (Except.error.inj h)
        exact ⟨hfirst, hm⟩
    · rw [transform_of_failing hfirst] at h
      obtain rfl := Except.error.inj h
      obtain ⟨p, hp, he⟩ := hfirst.here
      exact absurd he (hc.predicates p (List.mem_of_getElem? hp) i)
  · rintro ⟨hfirst, hm⟩
    rw [transform_of_missing hfirst hm]

theorem transform_take (ps : List (Predicate I)) (ts : List (Transformer I O))
    (d : Option (Transformer I O)) :
    (⟨ps, ts.take ps.length, d⟩ : Switch (Predicate I) (Transformer I O)).transform =
      (⟨ps, ts, d⟩ : Switch (Predicate I) (Transformer I O)).transform := by
  funext x
  rcases search_cases ps x with hall | ⟨i, hfirst⟩ | ⟨i, e, hfirst⟩
  · simp only [transform, select_of_rejects 0 hall]
    rfl
  · have htake : (ts.take ps.length)[i]? = ts[i]? := List.getElem?_take_of_lt hfirst.lt_length
    simp only [transform, select_of_first hfirst, Bind.bind, Traced.bind, htake]
  · rw [transform_of_failing hfirst, transform_of_failing hfirst]

theorem transform_returns (hlen : s.predicates.length ≤ s.transformers.length)
    (hp : ∀ p ∈ s.predicates, Returns p x) (ht : ∀ t ∈ s.transformers, Returns t x)
    (hd : Returns s.fallbackTransformer x) : Returns s.transform x := by
  rcases rejects_or_firstAccepting hp with hall | ⟨i, hi⟩
  · obtain ⟨y, hy⟩ := hd
    exact ⟨y, by rw [transform_of_rejects hall, hy]⟩
  · have hlt : i < s.transformers.length := Nat.lt_of_lt_of_le hi.lt_length hlen
    obtain ⟨y, hy⟩ := ht s.transformers[i] (List.getElem_mem hlt)
    exact ⟨y, by rw [transform_of_first hi (List.getElem?_eq_getElem hlt), hy]⟩

end Switch

theorem Traced.bind_eq_ok {ε α β : Type} {x : Traced ε α} {f : α → Traced ε β} {b : β}
    (h : (x >>= f).result = .ok b) : ∃ a, x.result = .ok a ∧ (f a).result = .ok b := by
  simp only [Bind.bind, bind] at h
  cases hx : x.result with
  | error e =>
    rw [hx] at h
    cases h
  | ok a =>
    rw [hx] at h
    exact ⟨a, rfl, h⟩

namespace Side

variable {α : Type} {side : Side} {xs : List α}

theorem elements_eq_ok {start : Nat} {slots : List (Option α)}
    (h : side.elements start slots = .ok xs) : slots = xs.map some := by
  induction slots generalizing start xs with
  | nil =>
    obtain rfl := Except.ok.inj h
    rfl
  | cons slot slots ih =>
    cases slot with
    | none => cases h
    | some x =>
      cases hrest : side.elements (start + 1) slots with
      | error e =>
        rw [elements, hrest] at h
        cases h
      | ok rest =>
        rw [elements, hrest] at h
        obtain rfl := Except.ok.inj h
        rw [ih hrest, List.map_cons]

theorem require_eq_ok {slots : Option (List (Option α))} (h : side.require slots = .ok xs) :
    slots = some (xs.map some) := by
  cases slots with
  | none => cases h
  | some slots => exact congrArg some (elements_eq_ok h)

end Side

namespace Dispatcher

variable {P T : Type}

/-- Made of functors of these kinds, with a transformer for every predicate. -/
inductive Complete (known : P → Prop) (able : T → Prop) : Dispatcher P T → Prop where
  | null : Complete known able .null
  | given {t : T} (transformer : able t) : Complete known able (.given t)
  | table {s : Switch P T} (lengths : s.predicates.length = s.transformers.length)
      (predicates : ∀ p ∈ s.predicates, known p) (transformers : ∀ t ∈ s.transformers, able t)
      (fallback : ∀ t ∈ s.fallback, able t) : Complete known able (.table s)

variable {known : P → Prop} {able : T → Prop} {d : Dispatcher P T}

theorem complete_ofFallback {fallback : Option T} (h : ∀ t ∈ fallback, able t) :
    Complete known able (ofFallback fallback) := by
  cases fallback with
  | none => exact .null
  | some t => exact .given (h t rfl)

theorem complete_ofSlots {ps : Option (List (Option P))} {ts : Option (List (Option T))}
    {fallback : Option T} (h : (ofSlots ps ts fallback).result = .ok d)
    (hp : ∀ slots ∈ ps, ∀ p, some p ∈ slots → known p)
    (ht : ∀ slots ∈ ts, ∀ t, some t ∈ slots → able t) (hd : ∀ t ∈ fallback, able t) :
    Complete known able d := by
  obtain ⟨predicates, hps, h⟩ := Traced.bind_eq_ok h
  obtain ⟨transformers, hts, h⟩ := Traced.bind_eq_ok h
  have hps := Side.require_eq_ok hps
  have hts := Side.require_eq_ok hts
  have hknown : ∀ p ∈ predicates, known p := fun p hmem =>
    hp _ hps p (List.mem_map_of_mem hmem)
  have hable : ∀ t ∈ transformers, able t := fun t hmem =>
    ht _ hts t (List.mem_map_of_mem hmem)
  split at h
  · cases h
  · rename_i hlen
    split at h
    · obtain ⟨-, -, h⟩ := Traced.bind_eq_ok h
      obtain rfl := Except.ok.inj h
      exact complete_ofFallback hd
    · obtain ⟨-, -, h⟩ := Traced.bind_eq_ok h
      obtain rfl := Except.ok.inj h
      exact .table (not_not.mp hlen) hknown hable hd

/-- The two sides of a map have one length because they come from the same entries. -/
theorem complete_ofMap [DecidableEq P] {m : Option (RuleMap P T)}
    (h : (ofMap m).result = .ok d) (hp : ∀ n ∈ m, ∀ p v, (some p, v) ∈ n.entries → known p)
    (ht : ∀ n ∈ m, ∀ k t, (k, some t) ∈ n.entries → able t) : Complete known able d := by
  cases m with
  | none => cases h
  | some m =>
    have hfallback : ∀ t ∈ (m.remove none).1.join, able t := by
      intro t hmem
      have hlookup : m.entries.lookup none = some (some t) := Option.join_eq_some_iff.mp hmem
      obtain ⟨before, after, hentries, -⟩ := List.lookup_eq_some_iff.mp hlookup
      exact ht m rfl none t (by simp [hentries])
    have hrules : ∀ e ∈ (m.remove none).2.entries, e ∈ m.entries := fun e =>
      List.mem_of_mem_eraseP
    rw [ofMap] at h
    split at h
    · obtain ⟨-, -, h⟩ := Traced.bind_eq_ok h
      obtain rfl := Except.ok.inj h
      exact .null
    · dsimp only at h
      split at h
      · obtain ⟨-, -, h⟩ := Traced.bind_eq_ok h
        obtain rfl := Except.ok.inj h
        exact complete_ofFallback hfallback
      · obtain ⟨predicates, hps, h⟩ := Traced.bind_eq_ok h
        obtain ⟨transformers, hts, h⟩ := Traced.bind_eq_ok h
        obtain ⟨-, -, h⟩ := Traced.bind_eq_ok h
        obtain rfl := Except.ok.inj h
        have hps := Option.some.inj (Side.require_eq_ok hps)
        have hts := Option.some.inj (Side.require_eq_ok hts)
        refine .table ?_ ?_ ?_ hfallback
        · have hkeys := congrArg List.length hps
          have hvalues := congrArg List.length hts
          simp only [List.length_map] at hkeys hvalues
          exact hkeys.symm.trans hvalues
        · intro p hmem
          have hkey : some p ∈ (m.remove none).2.entries.map Prod.fst :=
            hps ▸ List.mem_map_of_mem hmem
          obtain ⟨⟨k, v⟩, he, rfl⟩ := List.mem_map.mp hkey
          exact hp m rfl p v (hrules _ he)
        · intro t hmem
          have hvalue : some t ∈ (m.remove none).2.entries.map Prod.snd :=
            hts ▸ List.mem_map_of_mem hmem
          obtain ⟨⟨k, v⟩, he, rfl⟩ := List.mem_map.mp hvalue
          exact ht m rfl k t (hrules _ he)

theorem complete_build {b : Builder P T} (h : b.build.result = .ok d)
    (hp : ∀ r ∈ b.rules, known r.1) (ht : ∀ r ∈ b.rules, able r.2)
    (hd : ∀ t ∈ b.fallback, able t) : Complete known able d := by
  refine complete_ofSlots h ?_ ?_ hd
  · rintro slots ⟨rfl⟩ p hmem
    obtain ⟨r, hr, ⟨⟩⟩ := List.mem_map.mp hmem
    exact hp r hr
  · rintro slots ⟨rfl⟩ t hmem
    obtain ⟨r, hr, ⟨⟩⟩ := List.mem_map.mp hmem
    exact ht r hr

theorem complete_buildSwitch {b : Builder P T} (hp : ∀ r ∈ b.rules, known r.1)
    (ht : ∀ r ∈ b.rules, able r.2) (hd : ∀ t ∈ b.fallback, able t) :
    Complete known able (.table b.buildSwitch) :=
  .table (by simp [Builder.buildSwitch]) (List.forall_mem_map.mpr hp) (List.forall_mem_map.mpr ht)
    hd

section Answers

variable {I O : Type} [Inhabited O] {ask : P → Predicate I} {act : T → Transformer I O} {x : I}

theorem Complete.returns (h : Complete known able d) (hp : ∀ p, known p → Returns (ask p) x)
    (ht : ∀ t, able t → Returns (act t) x) : Returns (d.map ask act).transform x := by
  cases h with
  | null => exact ⟨default, rfl⟩
  | given hable => exact ht _ hable
  | @table s lengths predicates transformers fallback =>
    refine Switch.transform_returns ?_ ?_ ?_ ?_
    · simp only [Switch.map, List.length_map, lengths, Nat.le_refl]
    · exact List.forall_mem_map.mpr fun p hmem => hp p (predicates p hmem)
    · exact List.forall_mem_map.mpr fun t hmem => ht t (transformers t hmem)
    · rw [Switch.fallbackTransformer, Switch.map]
      cases hd : s.fallback with
      | none => exact ⟨default, rfl⟩
      | some t => exact ht t (fallback t hd)

end Answers

end Dispatcher

/-- No dispatcher from checked construction looks for a transformer that is missing: where the
functors that it was built from have answers, it has one. This holds for two sequences, for every
map, for what a builder builds and for its switch, and a table that compiles answers every value. A
switch of any two lists looks for a transformer that is missing exactly when the first predicate
that accepts stands past the end of the transformers, and transformers past the number of
predicates make no difference. -/
theorem transform_in_range {P T I O : Type} [DecidableEq P] [Inhabited O]
    (ask : P → Predicate I) (act : T → Transformer I O) (x : I) :
    (∀ (ps : Option (List (Option P))) (ts : Option (List (Option T))) (fallback : Option T)
      (d : Dispatcher P T), (Dispatcher.ofSlots ps ts fallback).result = .ok d →
      (∀ slots ∈ ps, ∀ p, some p ∈ slots → Returns (ask p) x) →
      (∀ slots ∈ ts, ∀ t, some t ∈ slots → Returns (act t) x) →
      (∀ t ∈ fallback, Returns (act t) x) → Returns (d.map ask act).transform x) ∧
    (∀ (m : Option (RuleMap P T)) (d : Dispatcher P T), (Dispatcher.ofMap m).result = .ok d →
      (∀ n ∈ m, ∀ p v, (some p, v) ∈ n.entries → Returns (ask p) x) →
      (∀ n ∈ m, ∀ k t, (k, some t) ∈ n.entries → Returns (act t) x) →
      Returns (d.map ask act).transform x) ∧
    (∀ b : Builder P T, (∀ r ∈ b.rules, Returns (ask r.1) x) →
      (∀ r ∈ b.rules, Returns (act r.2) x) → (∀ t ∈ b.fallback, Returns (act t) x) →
      (∀ d, b.build.result = .ok d → Returns (d.map ask act).transform x) ∧
      Returns (b.buildSwitch.map ask act).transform x) ∧
    (∀ (t : Table) d, t.compile.result = .ok d → ∀ value, Returns d.transform value) ∧
    (∀ s : Switch (Predicate I) (Transformer I O),
      (s.Contained x → ∀ i, (s.transform x).result = .error (.missingTransformer i) ↔
        FirstAccepting s.predicates x i ∧ s.transformers.length ≤ i) ∧
      (Switch.transform ⟨s.predicates, s.transformers.take s.predicates.length, s.fallback⟩ =
        s.transform)) := by
  refine ⟨?_, ?_, ?_, ?_, ?_⟩
  · intro ps ts fallback d h hp ht hd
    exact (Dispatcher.complete_ofSlots h hp ht hd).returns (fun _ => id) fun _ => id
  · intro m d h hp ht
    exact (Dispatcher.complete_ofMap h hp ht).returns (fun _ => id) fun _ => id
  · intro b hp ht hd
    refine ⟨fun d h => ?_, ?_⟩
    · exact (Dispatcher.complete_build h hp ht hd).returns (fun _ => id) fun _ => id
    · exact (Dispatcher.complete_buildSwitch hp ht hd).returns (fun _ => id) fun _ => id
  · intro t d h value
    obtain ⟨_, hvalid, -⟩ := Traced.bind_eq_ok h
    obtain rfl := Except.ok.inj ((Table.result_compile hvalid).symm.trans h)
    exact ⟨t.output value, Table.result_transform_dispatcher t value⟩
  · intro s
    exact ⟨fun hc => Switch.missingTransformer_iff hc,
      Switch.transform_take s.predicates s.transformers s.fallback⟩

def shortSwitch : Switch (Predicate Nat) (Transformer Nat Nat) :=
  ⟨[fun x => pure (x == 1), fun x => pure (x == 2)], [pure], none⟩

theorem shortSwitch_contained : shortSwitch.Contained 2 where
  predicates p hp i h := by
    simp only [shortSwitch, List.mem_cons, List.not_mem_nil, or_false] at hp
    rcases hp with rfl | rfl <;> cases h
  transformers t ht i h := by
    obtain rfl := List.mem_singleton.mp ht
    cases h
  fallback i h := by cases h

/-- The slots of a table are matched and its map has the default in between; the switch that is
one transformer short fails on what its second predicate accepts. -/
theorem shortSwitch_out_of_range :
    shortSwitch.Contained 2 ∧
    (shortSwitch.transform 2).result = .error (.missingTransformer 1) ∧
    ∃ d e : Dispatcher Nat Nat,
      (Dispatcher.ofSlots (some [some 1, some 2]) (some [some 10, some 20]) none).result = .ok d ∧
      (Dispatcher.ofMap (some ⟨[(some 1, some 10), (none, some 7), (some 2, some 20)]⟩)).result =
        .ok e ∧
      Returns (d.map (fun n x => pure (x == n)) (fun n x => pure (x + n))).transform 2 ∧
      Returns (e.map (fun n x => pure (x == n)) (fun n x => pure (x + n))).transform 2 := by
  obtain ⟨hslots, hmap, -, -, hswitch⟩ := transform_in_range (P := Nat) (T := Nat) (I := Nat)
    (O := Nat) (fun n x => pure (x == n)) (fun n x => pure (x + n)) 2
  have hp : ∀ n : Nat, Returns (I := Nat) (fun x => pure (x == n)) 2 := fun n => ⟨2 == n, rfl⟩
  have ht : ∀ n : Nat, Returns (I := Nat) (fun x => pure (x + n)) 2 := fun n => ⟨2 + n, rfl⟩
  have hd : (Dispatcher.ofSlots (some [some 1, some 2]) (some [some 10, some 20]) none).result =
      .ok (.table ⟨[1, 2], [10, 20], none⟩) := rfl
  have he : (Dispatcher.ofMap (some
      ⟨[(some 1, some 10), (none, some 7), (some 2, some 20)]⟩)).result =
      .ok (.table ⟨[1, 2], [10, 20], some 7⟩) := rfl
  refine ⟨shortSwitch_contained, ?_, _, _, hd, he, ?_, ?_⟩
  · refine ((hswitch shortSwitch).1 shortSwitch_contained 1).mpr ⟨⟨⟨_, rfl, rfl⟩, ?_⟩, by decide⟩
    intro j hj p hp
    obtain rfl := Nat.lt_one_iff.mp hj
    obtain rfl := Option.some.inj hp
    rfl
  · exact hslots _ _ _ _ hd (fun _ _ p _ => hp p) (fun _ _ t _ => ht t) fun _ => nofun
  · exact hmap _ _ he (fun _ _ p _ _ => hp p) fun _ _ _ t _ => ht t

end FirstMatch
