import FirstMatch.Proofs.Dispatch.Construction

/-!
What comes of two sequences, in the order in which they are looked at: the predicates, then the
transformers, each first for being there and then slot by slot, and only then the lengths. Nothing
else is refused, and what is not refused is taken over slot by slot.
-/

namespace FirstMatch

section Slots

variable {α : Type} {slots : List (Option α)} {i : Nat}

/-- The element at this position is absent, and none before it is. -/
structure FirstAbsent (slots : List (Option α)) (i : Nat) : Prop where
  here : slots[i]? = some none
  before : ∀ j < i, ∃ x, slots[j]? = some (some x)

theorem FirstAbsent.findIdx? (h : FirstAbsent slots i) :
    slots.findIdx? Option.isNone = some i := by
  obtain ⟨hlt, hnone⟩ := List.getElem?_eq_some_iff.mp h.here
  refine List.findIdx?_eq_some_iff_getElem.mpr ⟨hlt, by rw [hnone, Option.isNone_none], ?_⟩
  intro j hj
  obtain ⟨x, hx⟩ := h.before j hj
  obtain ⟨hjlt, hsome⟩ := List.getElem?_eq_some_iff.mp hx
  rw [hsome, Option.isNone_some]
  exact Bool.false_ne_true

theorem firstAbsent_of_findIdx? (h : slots.findIdx? Option.isNone = some i) :
    FirstAbsent slots i := by
  obtain ⟨hlt, hnone, hbefore⟩ := List.findIdx?_eq_some_iff_getElem.mp h
  constructor
  · rw [List.getElem?_eq_getElem hlt, Option.isNone_iff_eq_none.mp hnone]
  · intro j hj
    obtain ⟨x, hx⟩ := Option.ne_none_iff_exists'.mp (by simpa using hbefore j hj)
    exact ⟨x, by rw [List.getElem?_eq_getElem (Nat.lt_trans hj hlt), hx]⟩

theorem exists_map_some_iff : (∃ xs : List α, slots = xs.map some) ↔ none ∉ slots := by
  constructor
  · rintro ⟨xs, rfl⟩ hmem
    obtain ⟨x, -, hx⟩ := List.mem_map.mp hmem
    cases hx
  · intro h
    refine ⟨slots.reduceOption, ?_⟩
    induction slots with
    | nil => rfl
    | cons slot slots ih =>
      rw [List.mem_cons, not_or] at h
      obtain ⟨x, rfl⟩ := Option.ne_none_iff_exists'.mp (Ne.symm h.1)
      rw [List.reduceOption_cons_of_some, List.map_cons, ← ih h.2]

theorem firstAbsent_or_full (slots : List (Option α)) :
    (∃ i, FirstAbsent slots i) ∨ ∃ xs : List α, slots = xs.map some := by
  cases h : slots.findIdx? Option.isNone with
  | some i => exact .inl ⟨i, firstAbsent_of_findIdx? h⟩
  | none =>
    refine .inr (exists_map_some_iff.mpr ?_)
    intro hmem
    cases List.findIdx?_eq_none_iff.mp h none hmem

end Slots

namespace Side

variable {α : Type} (side : Side)

theorem require_of_firstAbsent {slots : List (Option α)} {i : Nat} (h : FirstAbsent slots i) :
    side.require (some slots) = .error (.missingElement side i) := by
  simp only [require, elements_eq, h.findIdx?, Nat.zero_add]

theorem require_of_full (xs : List α) : side.require (some (xs.map some)) = .ok xs := by
  have h := side.elements_map_some id 0 xs
  rw [List.map_id] at h
  exact h

end Side

namespace Dispatcher

variable {P T : Type} {ps : Option (List (Option P))} {ts : Option (List (Option T))}
  {fallback : Option T} {xs : List P} {ys : List T} {e : ConstructionError}

/-! One thing after the other -/

theorem result_ofSlots_of_predicates (h : Side.predicate.require ps = .error e) :
    (ofSlots ps ts fallback).result = .error e := by
  rw [ofSlots, h]
  rfl

theorem result_ofSlots_of_transformers (hp : Side.predicate.require ps = .ok xs)
    (ht : Side.transformer.require ts = .error e) :
    (ofSlots ps ts fallback).result = .error e := by
  rw [ofSlots, hp, ht]
  rfl

theorem result_ofSlots_of_lengths (hp : Side.predicate.require ps = .ok xs)
    (ht : Side.transformer.require ts = .ok ys) (h : xs.length ≠ ys.length) :
    (ofSlots ps ts fallback).result = .error (.lengthMismatch xs.length ys.length) := by
  rw [ofSlots, hp, ht]
  simp only [Traced.ofExcept_ok, pure_bind, if_pos h, Traced.result_fail]

theorem result_ofSlots_of_complete (hp : Side.predicate.require ps = .ok xs)
    (ht : Side.transformer.require ts = .ok ys) (h : xs.length = ys.length) (hne : xs ≠ []) :
    (ofSlots ps ts fallback).result = .ok (.table ⟨xs, ys, fallback⟩) := by
  have hempty : ¬ xs.isEmpty = true := by simpa using hne
  rw [ofSlots, hp, ht]
  simp only [Traced.ofExcept_ok, pure_bind, if_neg (not_not.mpr h), if_neg hempty]
  rfl

/-- What comes of two sequences and a fallback. -/
inductive Outcome : Option (List (Option P)) → Option (List (Option T)) → Option T →
    Except ConstructionError (Dispatcher P T) → Prop where
  | noPredicates (ts : Option (List (Option T))) (fallback : Option T) :
      Outcome none ts fallback (.error (.missingSequence .predicate))
  | absentPredicate {ps : List (Option P)} {i : Nat} (first : FirstAbsent ps i)
      (ts : Option (List (Option T))) (fallback : Option T) :
      Outcome (some ps) ts fallback (.error (.missingElement .predicate i))
  | noTransformers (xs : List P) (fallback : Option T) :
      Outcome (some (xs.map some)) none fallback (.error (.missingSequence .transformer))
  | absentTransformer (xs : List P) {ts : List (Option T)} {i : Nat} (first : FirstAbsent ts i)
      (fallback : Option T) :
      Outcome (some (xs.map some)) (some ts) fallback (.error (.missingElement .transformer i))
  | lengthMismatch {xs : List P} {ys : List T} (different : xs.length ≠ ys.length)
      (fallback : Option T) :
      Outcome (some (xs.map some)) (some (ys.map some)) fallback
        (.error (.lengthMismatch xs.length ys.length))
  | given (fallback : T) : Outcome (some []) (some []) (some fallback) (.ok (.given fallback))
  | null : Outcome (some []) (some []) none (.ok .null)
  | switch {xs : List P} {ys : List T} (same : xs.length = ys.length) (nonempty : xs ≠ [])
      (fallback : Option T) :
      Outcome (some (xs.map some)) (some (ys.map some)) fallback
        (.ok (.table ⟨xs, ys, fallback⟩))

theorem Outcome.eq_result {r : Except ConstructionError (Dispatcher P T)}
    (h : Outcome ps ts fallback r) : (ofSlots ps ts fallback).result = r := by
  cases h with
  | noPredicates => rfl
  | absentPredicate first =>
    exact result_ofSlots_of_predicates (Side.predicate.require_of_firstAbsent first)
  | noTransformers xs =>
    exact result_ofSlots_of_transformers (Side.predicate.require_of_full xs) rfl
  | absentTransformer xs first =>
    exact result_ofSlots_of_transformers (Side.predicate.require_of_full xs)
      (Side.transformer.require_of_firstAbsent first)
  | lengthMismatch different =>
    exact result_ofSlots_of_lengths (Side.predicate.require_of_full _)
      (Side.transformer.require_of_full _) different
  | given fallback => rfl
  | null => rfl
  | switch same nonempty =>
    exact result_ofSlots_of_complete (Side.predicate.require_of_full _)
      (Side.transformer.require_of_full _) same nonempty

theorem exists_outcome_of_full (h : xs.length = ys.length) (fallback : Option T) :
    ∃ d, Outcome (some (xs.map some)) (some (ys.map some)) fallback (.ok d) := by
  by_cases hempty : xs = []
  · subst hempty
    obtain rfl := List.length_eq_zero_iff.mp h.symm
    cases fallback with
    | none => exact ⟨_, .null⟩
    | some fallback => exact ⟨_, .given fallback⟩
  · exact ⟨_, .switch h hempty fallback⟩

theorem exists_outcome (ps : Option (List (Option P))) (ts : Option (List (Option T)))
    (fallback : Option T) : ∃ r, Outcome ps ts fallback r := by
  cases ps with
  | none => exact ⟨_, .noPredicates ts fallback⟩
  | some ps =>
    rcases firstAbsent_or_full ps with ⟨i, first⟩ | ⟨xs, rfl⟩
    · exact ⟨_, .absentPredicate first ts fallback⟩
    cases ts with
    | none => exact ⟨_, .noTransformers xs fallback⟩
    | some ts =>
      rcases firstAbsent_or_full ts with ⟨j, first⟩ | ⟨ys, rfl⟩
      · exact ⟨_, .absentTransformer xs first fallback⟩
      by_cases hlength : xs.length = ys.length
      · obtain ⟨d, hd⟩ := exists_outcome_of_full hlength fallback
        exact ⟨_, hd⟩
      · exact ⟨_, .lengthMismatch hlength fallback⟩

theorem result_ofSlots_iff {r : Except ConstructionError (Dispatcher P T)} :
    (ofSlots ps ts fallback).result = r ↔ Outcome ps ts fallback r := by
  constructor
  · rintro rfl
    obtain ⟨r, hr⟩ := exists_outcome ps ts fallback
    rw [hr.eq_result]
    exact hr
  · exact Outcome.eq_result

theorem exists_ok_iff : (∃ d, (ofSlots ps ts fallback).result = .ok d) ↔
    ∃ slots places, ps = some slots ∧ ts = some places ∧ none ∉ slots ∧ none ∉ places ∧
      slots.length = places.length := by
  simp only [result_ofSlots_iff, ← exists_map_some_iff]
  constructor
  · rintro ⟨d, hd⟩
    cases hd with
    | given fallback => exact ⟨[], [], rfl, rfl, ⟨[], rfl⟩, ⟨[], rfl⟩, rfl⟩
    | null => exact ⟨[], [], rfl, rfl, ⟨[], rfl⟩, ⟨[], rfl⟩, rfl⟩
    | @switch xs ys same =>
      refine ⟨xs.map some, ys.map some, rfl, rfl, ⟨xs, rfl⟩, ⟨ys, rfl⟩, ?_⟩
      rw [List.length_map, List.length_map, same]
  · rintro ⟨_, _, rfl, rfl, ⟨xs, rfl⟩, ⟨ys, rfl⟩, hlength⟩
    rw [List.length_map, List.length_map] at hlength
    exact exists_outcome_of_full hlength fallback

/-- What comes of two sequences is settled in this order: the predicates are there, each of them is,
the transformers are there, each of them is, and there are as many of these as of those; the first
thing that is wrong is reported, with the first absent element for its index. It is a dispatcher
exactly if nothing is wrong: without slots the fallback itself, or the null transformer, and else a
switch that has in each place what the slots have there. -/
theorem ofSlots_precedence (ps : Option (List (Option P))) (ts : Option (List (Option T)))
    (fallback : Option T) :
    (∀ r, (ofSlots ps ts fallback).result = r ↔ Outcome ps ts fallback r) ∧
    ((∃ d, (ofSlots ps ts fallback).result = .ok d) ↔
      ∃ slots places, ps = some slots ∧ ts = some places ∧ none ∉ slots ∧ none ∉ places ∧
        slots.length = places.length) ∧
    ∀ s, (ofSlots ps ts fallback).result = .ok (.table s) →
      s.fallback = fallback ∧
      ∀ i : Nat, (ps.bind fun slots => slots[i]?) = s.predicates[i]?.map some ∧
        (ts.bind fun slots => slots[i]?) = s.transformers[i]?.map some := by
  refine ⟨fun r => result_ofSlots_iff, exists_ok_iff, ?_⟩
  intro s hs
  cases result_ofSlots_iff.mp hs with
  | switch same nonempty =>
    refine ⟨rfl, ?_⟩
    intro i
    exact ⟨List.getElem?_map, List.getElem?_map⟩

end Dispatcher

end FirstMatch
