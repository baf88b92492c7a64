import FirstMatch.Proofs.Dispatch.RuleMap
import Mathlib.Data.Finmap

/-!
Ordered maps over their whole life. After any changes a map gives the answers of the finite map
that went through the same changes, and its keys stand in the order in which they came in.
-/

namespace FirstMatch

namespace RuleMap

/-- What is done to a map. By `renew` and `collect` a new one takes its place. -/
inductive Change (K V : Type) where
  | renew
  | insert (key : Option K) (value : Option V)
  | remove (key : Option K)
  | collect (entries : List (Option K × Option V))
  deriving DecidableEq, Repr

inductive Step (K : Type) where
  | clear
  | enter (key : Option K)
  | leave (key : Option K)
  deriving DecidableEq, Repr

abbrev Values (K V : Type) := Finmap fun _ : Option K => Option V

namespace Change

variable {K V : Type} [DecidableEq K]

def apply (m : RuleMap K V) : Change K V → RuleMap K V
  | .renew => empty
  | .insert key value => (m.insert key value).2
  | .remove key => (m.remove key).2
  | .collect entries => ofList entries

def values (s : Values K V) : Change K V → Values K V
  | .renew => ∅
  | .insert key value => s.insert key value
  | .remove key => s.erase key
  | .collect entries => entries.foldl (fun s e => s.insert e.1 e.2) ∅

def steps : Change K V → List (Step K)
  | .renew => [.clear]
  | .insert key _ => [.enter key]
  | .remove key => [.leave key]
  | .collect entries => .clear :: entries.map fun e => .enter e.1

end Change

variable {K V : Type} [DecidableEq K]

def after (changes : List (Change K V)) : RuleMap K V := changes.foldl Change.apply empty

def valuesAfter (changes : List (Change K V)) : Values K V := changes.foldl Change.values ∅

/-- The steps of all changes, the latest first. -/
def history (changes : List (Change K V)) : List (Step K) := (changes.flatMap Change.steps).reverse

/-- When a key came in, as the number of steps before that; the steps are given latest first. A
key that is present does not come in again, and one that has left may come in anew. -/
def cameIn? (key : Option K) : List (Step K) → Option Nat
  | [] => none
  | .clear :: _ => none
  | .enter k :: earlier =>
    if k = key then (cameIn? key earlier).or (some earlier.length) else cameIn? key earlier
  | .leave k :: earlier => if k = key then none else cameIn? key earlier

theorem cameIn?_lt {key : Option K} {steps : List (Step K)} {i : Nat}
    (h : cameIn? key steps = some i) : i < steps.length := by
  induction steps with
  | nil => cases h
  | cons s earlier ih =>
    cases s with
    | clear => cases h
    | enter k =>
      simp only [cameIn?] at h
      rw [List.length_cons]
      split at h
      · rcases Option.or_eq_some_iff.mp h with h | ⟨-, h⟩
        · exact Nat.lt_succ_of_lt (ih h)
        · cases h
          exact Nat.lt_succ_self _
      · exact Nat.lt_succ_of_lt (ih h)
    | leave k =>
      simp only [cameIn?] at h
      split at h
      · cases h
      · exact Nat.lt_succ_of_lt (ih h)

def Before (steps : List (Step K)) (k l : Option K) : Prop :=
  ∃ i j, cameIn? k steps = some i ∧ cameIn? l steps = some j ∧ i < j

/-- The map looks up what the finite map does, and its keys are those that are still in, in the
order in which they came. -/
structure Tracks (m : RuleMap K V) (s : Values K V) (steps : List (Step K)) : Prop where
  distinct : m.keys.Nodup
  get?_eq : ∀ key, m.get? key = s.lookup key
  present : ∀ key, key ∈ m.keys ↔ (cameIn? key steps).isSome = true
  ordered : m.keys.Pairwise (Before steps)

namespace Tracks

variable {m : RuleMap K V} {s : Values K V} {steps : List (Step K)}

theorem nothing (h : ∀ key : Option K, cameIn? key steps = none) :
    Tracks (empty : RuleMap K V) ∅ steps where
  distinct := .nil
  get?_eq key := by rw [get?_empty, Finmap.lookup_empty]
  present key := by simp [h key]
  ordered := .nil

theorem insert (t : Tracks m s steps) (key : Option K) (value : Option V) :
    Tracks (m.insert key value).2 (s.insert key value) (.enter key :: steps) := by
  have hsame : ∀ k ∈ m.keys, cameIn? k (.enter key :: steps) = cameIn? k steps := by
    intro k hk
    obtain ⟨i, hi⟩ := Option.isSome_iff_exists.mp ((t.present k).mp hk)
    simp only [cameIn?, hi, Option.some_or, ite_self]
  have hordered : m.keys.Pairwise (Before (.enter key :: steps)) := by
    refine t.ordered.imp_of_mem fun {k l} hk hl => ?_
    rintro ⟨i, j, hi, hj, hij⟩
    exact ⟨i, j, (hsame k hk).trans hi, (hsame l hl).trans hj, hij⟩
  constructor
  · exact nodup_keys_insert t.distinct key value
  · intro l
    rw [get?_insert]
    by_cases hl : l = key
    · rw [if_pos hl, hl, Finmap.lookup_insert]
    · rw [if_neg hl, Finmap.lookup_insert_of_ne s hl, t.get?_eq]
  · intro l
    rw [mem_keys_insert, t.present, cameIn?]
    by_cases hl : key = l
    · simp [hl]
    · simp [hl, Ne.symm hl]
  · rw [keys_insert]
    split
    -- a key that is there keeps its place, a new one came in last
    · exact hordered
    · rename_i hk
      have hnew : cameIn? key steps = none :=
        Option.not_isSome_iff_eq_none.mp fun h => hk ((t.present key).mpr h)
      refine List.pairwise_append.mpr ⟨hordered, List.pairwise_singleton _ _, ?_⟩
      rintro k hm _ hl
      obtain rfl := List.mem_singleton.mp hl
      obtain ⟨i, hi⟩ := Option.isSome_iff_exists.mp ((t.present k).mp hm)
      exact ⟨i, steps.length, (hsame k hm).trans hi, by simp [cameIn?, hnew], cameIn?_lt hi⟩

theorem remove (t : Tracks m s steps) (key : Option K) :
    Tracks (m.remove key).2 (s.erase key) (.leave key :: steps) := by
  have hother : ∀ k, k ≠ key → cameIn? k (.leave key :: steps) = cameIn? k steps :=
    fun k hk => by simp only [cameIn?, if_neg (Ne.symm hk)]
  constructor
  · rw [keys_remove t.distinct]
    exact t.distinct.filter _
  · intro l
    rw [get?_remove t.distinct]
    by_cases hl : l = key
    · rw [if_pos hl, hl, Finmap.lookup_erase]
    · rw [if_neg hl, Finmap.lookup_erase_ne hl, t.get?_eq]
  · intro l
    rw [keys_remove t.distinct, List.mem_filter, bne_iff_ne]
    by_cases hl : l = key
    · simp [cameIn?, hl]
    · rw [t.present, hother l hl, and_iff_left hl]
  · rw [keys_remove t.distinct]
    refine (t.ordered.filter _).imp_of_mem fun {k l} hk hl => ?_
    rintro ⟨i, j, hi, hj, hij⟩
    have hk := bne_iff_ne.mp (List.mem_filter.mp hk).2
    have hl := bne_iff_ne.mp (List.mem_filter.mp hl).2
    exact ⟨i, j, (hother k hk).trans hi, (hother l hl).trans hj, hij⟩

theorem inserts (t : Tracks m s steps) (entries : List (Option K × Option V)) :
    Tracks (entries.foldl (fun m e => (m.insert e.1 e.2).2) m)
      (entries.foldl (fun s e => s.insert e.1 e.2) s)
      ((entries.map fun e => .enter e.1).reverse ++ steps) := by
  induction entries generalizing m s steps with
  | nil => exact t
  | cons e entries ih =>
    rw [List.map_cons, List.reverse_cons, List.append_assoc]
    exact ih (t.insert e.1 e.2)

theorem apply (t : Tracks m s steps) (c : Change K V) :
    Tracks (c.apply m) (c.values s) (c.steps.reverse ++ steps) := by
  cases c with
  | renew => exact nothing fun _ => rfl
  | insert key value => exact t.insert key value
  | remove key => exact t.remove key
  | collect entries =>
    have hnew : Tracks (empty : RuleMap K V) ∅ (.clear :: steps) := nothing fun _ => rfl
    rw [Change.steps, List.reverse_cons, List.append_assoc]
    exact hnew.inserts entries

theorem changes (t : Tracks m s steps) (cs : List (Change K V)) :
    Tracks (cs.foldl Change.apply m) (cs.foldl Change.values s)
      ((cs.flatMap Change.steps).reverse ++ steps) := by
  induction cs generalizing m s steps with
  | nil => exact t
  | cons c cs ih =>
    rw [List.flatMap_cons, List.reverse_append, List.append_assoc]
    exact ih (t.apply c)

end Tracks

theorem tracks_after (changes : List (Change K V)) :
    Tracks (after changes) (valuesAfter changes) (history changes) := by
  have hempty : Tracks (empty : RuleMap K V) ∅ [] := .nothing fun _ => rfl
  have h := hempty.changes changes
  rw [List.append_nil] at h
  exact h

structure Observes (m : RuleMap K V) (s : Values K V) : Prop where
  get?_eq : ∀ key, m.get? key = s.lookup key
  contains_iff : ∀ key, m.contains key = true ↔ key ∈ s
  size_eq : m.size = s.keys.card
  isEmpty_iff : m.isEmpty = true ↔ s = ∅
  insert_gives : ∀ key value, (m.insert key value).1 = s.lookup key
  remove_gives : ∀ key, (m.remove key).1 = s.lookup key

theorem observes {m : RuleMap K V} {s : Values K V} (hn : m.keys.Nodup)
    (hg : ∀ key, m.get? key = s.lookup key) : Observes m s := by
  have hkeys : s.keys = m.keys.toFinset := by
    ext key
    rw [Finmap.mem_keys, ← Finmap.lookup_isSome, ← hg, get?_isSome_iff, List.mem_toFinset]
  refine ⟨hg, ?_, ?_, ?_, fun key _ => hg key, hg⟩
  · intro key
    rw [contains, hg, Finmap.lookup_isSome]
  · rw [hkeys, List.toFinset_card_of_nodup hn, keys, List.length_map, size]
  · constructor
    · intro he
      have he : m = empty := congrArg mk (List.isEmpty_iff.mp he)
      refine Finmap.ext_lookup fun key => ?_
      rw [← hg, he, get?_empty, Finmap.lookup_empty]
    · rintro rfl
      have hlen : m.keys.length = 0 := by
        rw [← List.toFinset_card_of_nodup hn, ← hkeys, Finmap.keys_empty, Finset.card_empty]
      rw [isEmpty, List.isEmpty_iff_length_eq_zero, ← List.length_map, ← keys, hlen]

structure InOrder (m : RuleMap K V) : Prop where
  replace : ∀ before key old after value, m.entries = before ++ (key, old) :: after →
    (m.insert key value).2.entries = before ++ (key, value) :: after
  add : ∀ key value, key ∉ m.keys →
    (m.insert key value).2.entries = m.entries ++ [(key, value)]
  remove : ∀ key, (m.remove key).2.entries = m.entries.filter fun e => e.1 != key
  reinsert : ∀ key value, ((m.remove key).2.insert key value).2.entries =
    (m.entries.filter fun e => e.1 != key) ++ [(key, value)]

theorem inOrder {m : RuleMap K V} (hn : m.keys.Nodup) : InOrder m := by
  have hadd : ∀ (m : RuleMap K V) key value, key ∉ m.keys →
      (m.insert key value).2.entries = m.entries ++ [(key, value)] :=
    fun _ _ value h => put_of_notMem h value
  refine ⟨?_, hadd m, entries_remove hn, ?_⟩
  · intro before key old after value h
    rw [keys, h, List.map_append, List.map_cons, List.nodup_middle, List.nodup_cons,
      List.mem_append, not_or] at hn
    change put key value m.entries = _
    rw [h, put_of_split hn.1.1]
  · intro key value
    have hk : key ∉ (m.remove key).2.keys := by
      rw [keys_remove hn, List.mem_filter, bne_self_eq_false]
      exact fun h => Bool.false_ne_true h.2
    rw [hadd _ key value hk, entries_remove hn]

/-- Whatever is done to a map, its keys are different, its answers are those of the finite map,
and its keys stand in the order of their coming in. A new value does not move a key, a key that
is removed leaves the others in place, and one that comes again goes to the end. Collecting the
entries of the map gives the map; of any entries, the first place and the last value of each key
count. -/
theorem after_refines (changes : List (Change K V)) :
    (after changes).keys.Nodup ∧
    Observes (after changes) (valuesAfter changes) ∧
    (∀ key, key ∈ (after changes).keys ↔ (cameIn? key (history changes)).isSome = true) ∧
    (after changes).keys.Pairwise (Before (history changes)) ∧
    InOrder (after changes) ∧
    ofList (after changes).entries = after changes ∧
    ∀ entries : List (Option K × Option V),
      (ofList entries).keys = (entries.map Prod.fst).eraseDups ∧
      ∀ key, (ofList entries).get? key = entries.reverse.lookup key := by
  have t := tracks_after changes
  refine ⟨t.distinct, observes t.distinct t.get?_eq, t.present, t.ordered, inOrder t.distinct,
    congrArg mk (entries_ofList t.distinct), ?_⟩
  intro entries
  exact ⟨keys_ofList entries, get?_ofList entries⟩

end RuleMap

end FirstMatch
