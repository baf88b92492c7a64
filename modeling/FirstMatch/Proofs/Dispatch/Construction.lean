import FirstMatch.Proofs.Dispatch.History
import FirstMatch.Proofs.Output
import Mathlib.Data.List.ReduceOption

/-!
What construction gives, and what it refuses. From two sequences the first absent element decides,
predicates before transformers, and only then the lengths count. From an ordered map it is the
construction from the two sides of its rules, with the entry under `none` as the fallback.
-/

namespace FirstMatch

@[simp] theorem Traced.result_fail {ε α : Type} (e : ε) :
    (fail e : Traced ε α).result = .error e := rfl

namespace Side

variable {α : Type}

theorem elements_eq (side : Side) (start : Nat) (slots : List (Option α)) :
    side.elements start slots =
      match slots.findIdx? Option.isNone with
      | some i => .error (.missingElement side (start + i))
      | none => .ok slots.reduceOption := by
  induction slots generalizing start with
  | nil => rfl
  | cons slot slots ih =>
    cases slot with
    | none => rfl
    | some x =>
      simp only [elements, ih, List.findIdx?_cons, Option.isNone_some, Bool.false_eq_true, if_false,
        List.reduceOption_cons_of_some]
      cases slots.findIdx? Option.isNone with
      | none => rfl
      | some i =>
        simp only [Option.map_some, Nat.add_assoc, Nat.add_comm 1 i]
        rfl

theorem length_reduceOption {slots : List (Option α)}
    (h : slots.findIdx? Option.isNone = none) : slots.reduceOption.length = slots.length := by
  rw [List.reduceOption_length_eq_iff]
  intro x hx
  simpa using List.findIdx?_eq_none_iff.mp h x hx

end Side

namespace Dispatcher

variable {P T : Type}

theorem result_ofSlots_some (ps : List (Option P)) (ts : List (Option T)) (fallback : Option T) :
    (ofSlots (some ps) (some ts) fallback).result =
      match ps.findIdx? Option.isNone, ts.findIdx? Option.isNone with
      | some i, _ => .error (.missingElement .predicate i)
      | none, some i => .error (.missingElement .transformer i)
      | none, none =>
        if ps.length ≠ ts.length then .error (.lengthMismatch ps.length ts.length)
        else if ps.isEmpty then .ok (ofFallback fallback)
        else .ok (.table ⟨ps.reduceOption, ts.reduceOption, fallback⟩) := by
  simp only [ofSlots, Side.require, Side.elements_eq, Nat.zero_add]
  cases hp : ps.findIdx? Option.isNone with
  | some i => rfl
  | none =>
    cases ht : ts.findIdx? Option.isNone with
    | some i => rfl
    | none =>
      simp only [Traced.ofExcept_ok, pure_bind, Side.length_reduceOption hp,
        Side.length_reduceOption ht]
      by_cases hl : ps.length = ts.length
      · simp only [hl, ne_eq, not_true_eq_false, if_false]
        cases ps with
        | nil => rfl
        | cons slot ps =>
          cases slot with
          | none => cases hp
          | some p => rfl
      · simp only [ne_eq, hl, not_false_eq_true, if_true, Traced.result_fail]

end Dispatcher

namespace RuleMap

variable {P T : Type}

/-- The entries other than the one under `none`, in their order. -/
def rules (m : RuleMap P T) : List (Option P × Option T) := m.entries.filter fun e => e.1.isSome

theorem findIdx?_rules (m : RuleMap P T) :
    (m.rules.map Prod.fst).findIdx? Option.isNone = none := by
  rw [List.findIdx?_eq_none_iff]
  intro key hkey
  obtain ⟨e, he, rfl⟩ := List.mem_map.mp hkey
  simpa using (List.mem_filter.mp he).2

variable [DecidableEq P]

theorem remove_none {m : RuleMap P T} (hn : m.keys.Nodup) :
    m.remove none = (m.get? none, ⟨m.rules⟩) := by
  have hrest : (m.remove none).2.entries = m.rules := by
    rw [entries_remove hn]
    exact List.filter_congr fun e _ => by cases e.1 <;> rfl
  exact Prod.ext rfl (congrArg mk hrest)

end RuleMap

namespace Dispatcher

variable {P T : Type} [DecidableEq P]

omit [DecidableEq P] in
theorem result_ofSlots_rules (m : RuleMap P T) (fallback : Option T) :
    (ofSlots (some (m.rules.map Prod.fst)) (some (m.rules.map Prod.snd)) fallback).result =
      match m.rules.findIdx? fun r => r.2.isNone with
      | some i => .error (.missingElement .transformer i)
      | none =>
        if m.rules.isEmpty then .ok (ofFallback fallback)
        else .ok (.table ⟨(m.rules.map Prod.fst).reduceOption, (m.rules.map Prod.snd).reduceOption,
          fallback⟩) := by
  have hsnd : (m.rules.map Prod.snd).findIdx? Option.isNone =
      m.rules.findIdx? fun r => r.2.isNone := List.findIdx?_map
  rw [result_ofSlots_some, m.findIdx?_rules, hsnd]
  cases m.rules.findIdx? fun r => r.2.isNone with
  | some i => rfl
  | none => simp only [List.length_map, ne_eq, not_true_eq_false, if_false, List.isEmpty_map]

theorem result_ofMap {m : RuleMap P T} (hn : m.keys.Nodup) :
    (ofMap (some m)).result =
      (ofSlots (some (m.rules.map Prod.fst)) (some (m.rules.map Prod.snd))
        (m.get? none).join).result := by
  rw [result_ofSlots_rules]
  by_cases he : m.entries = []
  · obtain ⟨entries⟩ := m
    cases he
    rfl
  · have hempty : m.isEmpty = false := by simpa [RuleMap.isEmpty] using he
    have hsnd : (m.rules.map fun r => r.2).findIdx? Option.isNone =
        m.rules.findIdx? fun r => r.2.isNone := List.findIdx?_map
    simp only [ofMap, hempty, RuleMap.remove_none hn, Side.require, Side.elements_eq,
      m.findIdx?_rules, hsnd, Bool.false_eq_true, if_false]
    cases hr : m.rules with
    | nil => rfl
    | cons r rest =>
      simp only [RuleMap.isEmpty, List.isEmpty_cons, Bool.false_eq_true, if_false, Nat.zero_add]
      cases (r :: rest).findIdx? fun r => r.2.isNone with
      | some i => rfl
      | none => rfl

theorem result_ofMap_error_iff {m : RuleMap P T} (hn : m.keys.Nodup) (e : ConstructionError) :
    (ofMap (some m)).result = .error e ↔
      ∃ i, e = .missingElement .transformer i ∧
        m.rules.findIdx? (fun r => r.2.isNone) = some i := by
  rw [result_ofMap hn, result_ofSlots_rules]
  cases m.rules.findIdx? fun r => r.2.isNone with
  | some i =>
    constructor
    · rintro ⟨rfl⟩
      exact ⟨i, rfl, rfl⟩
    · rintro ⟨j, rfl, hj⟩
      cases hj
      rfl
  | none =>
    constructor
    · intro h
      dsimp only at h
      split at h <;> cases h
    · rintro ⟨j, -, hj⟩
      cases hj

/-- After any changes to a map, construction from it gives what construction from the two sides of
its rules gives, with the value under `none` as the fallback: the same dispatcher or the same
error. All that can be refused is an absent transformer. It is refused whenever a rule has none,
and the index is that of the first such rule, not counting the entry under `none`. -/
theorem ofMap_after (changes : List (RuleMap.Change P T)) :
    (ofMap (some (RuleMap.after changes))).result =
      (ofSlots (some ((RuleMap.after changes).rules.map Prod.fst))
        (some ((RuleMap.after changes).rules.map Prod.snd))
        ((RuleMap.after changes).get? none).join).result ∧
    (∀ e, (ofMap (some (RuleMap.after changes))).result = .error e ↔
      ∃ i, e = .missingElement .transformer i ∧
        (RuleMap.after changes).rules.findIdx? (fun r => r.2.isNone) = some i) ∧
    ((∃ e, (ofMap (some (RuleMap.after changes))).result = .error e) ↔
      ∃ r ∈ (RuleMap.after changes).entries, r.1.isSome = true ∧ r.2 = none) := by
  have hn := (RuleMap.tracks_after changes).distinct
  generalize RuleMap.after changes = m at hn ⊢
  refine ⟨result_ofMap hn, result_ofMap_error_iff hn, ?_⟩
  have hany : (∃ r ∈ m.entries, r.1.isSome = true ∧ r.2 = none) ↔
      (m.rules.findIdx? fun r => r.2.isNone).isSome = true := by
    simp only [List.findIdx?_isSome, List.any_eq_true, RuleMap.rules, List.mem_filter, and_assoc,
      Option.isNone_iff_eq_none]
  rw [hany, Option.isSome_iff_exists]
  constructor
  · rintro ⟨e, he⟩
    obtain ⟨i, -, hi⟩ := (result_ofMap_error_iff hn e).mp he
    exact ⟨i, hi⟩
  · rintro ⟨i, hi⟩
    exact ⟨_, (result_ofMap_error_iff hn _).mpr ⟨i, rfl, hi⟩⟩

end Dispatcher

end FirstMatch
