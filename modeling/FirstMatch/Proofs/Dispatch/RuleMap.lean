import FirstMatch.Dispatch.RuleMap
import Mathlib.Data.List.Induction
import Mathlib.Data.List.Nodup

/-!
Entries of ordered maps. What insertion and removal do to the keys, to their order and to every
look-up; entries with different keys are collected as they are.
-/

namespace FirstMatch

namespace RuleMap

variable {K V : Type} [DecidableEq K]

def keys (m : RuleMap K V) : List (Option K) := m.entries.map Prod.fst

section Entries

variable {entries before after : List (Option K × Option V)} {key : Option K}

theorem put_of_notMem (h : key ∉ entries.map Prod.fst) (value : Option V) :
    put key value entries = entries ++ [(key, value)] := by
  induction entries with
  | nil => rfl
  | cons e entries ih =>
    simp only [List.map_cons, List.mem_cons, not_or] at h
    simp only [put, if_neg (Ne.symm h.1), ih h.2, List.cons_append]

theorem put_of_split (h : key ∉ before.map Prod.fst) (old value : Option V) :
    put key value (before ++ (key, old) :: after) = before ++ (key, value) :: after := by
  induction before with
  | nil => simp only [List.nil_append, put, if_true]
  | cons e before ih =>
    simp only [List.map_cons, List.mem_cons, not_or] at h
    simp only [List.cons_append, put, if_neg (Ne.symm h.1), ih h.2]

theorem keys_put (key : Option K) (value : Option V) (entries : List (Option K × Option V)) :
    (put key value entries).map Prod.fst =
      if key ∈ entries.map Prod.fst then entries.map Prod.fst
      else entries.map Prod.fst ++ [key] := by
  induction entries with
  | nil => rfl
  | cons e entries ih =>
    by_cases he : e.1 = key
    · simp [put, he]
    · simp only [put, if_neg he, List.map_cons, ih, List.mem_cons, Ne.symm he, false_or]
      split <;> rfl

theorem lookup_entry (e : Option K × Option V) (entries : List (Option K × Option V))
    (key : Option K) :
    (e :: entries).lookup key = if key = e.1 then some e.2 else entries.lookup key := by
  rw [List.lookup_cons]
  by_cases h : key = e.1
  · simp only [beq_iff_eq.mpr h, if_pos h]
  · simp only [beq_eq_false_iff_ne.mpr h, if_neg h]

theorem lookup_put (key : Option K) (value : Option V) (entries : List (Option K × Option V))
    (l : Option K) :
    (put key value entries).lookup l = if l = key then some value else entries.lookup l := by
  induction entries with
  | nil => exact lookup_entry (key, value) [] l
  | cons e entries ih =>
    by_cases he : e.1 = key
    · rw [put, if_pos he, lookup_entry, lookup_entry, he]
      split <;> rfl
    · simp only [put, if_neg he, lookup_entry, ih]
      split
      · rename_i hl
        rw [if_neg (hl ▸ he)]
      · rfl

/-- With different keys, the entry that is taken out is the only one of its key. -/
theorem eraseP_eq_filter (h : (entries.map Prod.fst).Nodup) :
    entries.eraseP (fun e => e.1 == key) = entries.filter fun e => e.1 != key := by
  induction entries with
  | nil => rfl
  | cons e entries ih =>
    simp only [List.map_cons, List.nodup_cons] at h
    by_cases he : e.1 = key
    · subst he
      have hrest : entries.filter (fun x => x.1 != e.1) = entries := by
        rw [List.filter_eq_self]
        intro x hx
        exact bne_iff_ne.mpr fun hxe => h.1 (hxe ▸ List.mem_map_of_mem hx)
      simp [hrest]
    · simp [he, ih h.2]

theorem lookup_filter (key l : Option K) (entries : List (Option K × Option V)) :
    (entries.filter fun e => e.1 != key).lookup l =
      if l = key then none else entries.lookup l := by
  induction entries with
  | nil => split <;> rfl
  | cons e entries ih =>
    by_cases he : e.1 = key
    · simp only [List.filter_cons, he, bne_self_eq_false, Bool.false_eq_true, if_false, ih,
        lookup_entry]
      split <;> rfl
    · simp only [List.filter_cons, bne_iff_ne, ne_eq, he, not_false_eq_true, if_true, ih,
        lookup_entry]
      split
      · rename_i hl
        rw [if_neg (hl ▸ he)]
      · rfl

end Entries

omit [DecidableEq K] in
@[simp] theorem keys_empty : (empty : RuleMap K V).keys = [] := rfl

@[simp] theorem get?_empty (key : Option K) : (empty : RuleMap K V).get? key = none := rfl

theorem get?_isSome_iff (m : RuleMap K V) (key : Option K) :
    (m.get? key).isSome = true ↔ key ∈ m.keys := by
  simp only [get?, List.lookup_isSome_iff, beq_iff_eq, keys, List.mem_map, eq_comm (a := key)]

theorem get?_insert (m : RuleMap K V) (key : Option K) (value : Option V) (l : Option K) :
    (m.insert key value).2.get? l = if l = key then some value else m.get? l :=
  lookup_put key value m.entries l

theorem keys_insert (m : RuleMap K V) (key : Option K) (value : Option V) :
    (m.insert key value).2.keys = if key ∈ m.keys then m.keys else m.keys ++ [key] :=
  keys_put key value m.entries

theorem mem_keys_insert (m : RuleMap K V) (key : Option K) (value : Option V) (l : Option K) :
    l ∈ (m.insert key value).2.keys ↔ l = key ∨ l ∈ m.keys := by
  rw [keys_insert]
  split
  · rename_i hk
    exact ⟨.inr, fun hl => hl.elim (fun hl => hl ▸ hk) id⟩
  · rw [List.mem_append, List.mem_singleton, or_comm]

theorem nodup_keys_insert {m : RuleMap K V} (h : m.keys.Nodup) (key : Option K)
    (value : Option V) : (m.insert key value).2.keys.Nodup := by
  rw [keys_insert]
  split
  · exact h
  · rename_i hk
    exact List.nodup_append.mpr ⟨h, List.nodup_singleton key,
      fun _ ha _ hb => fun hab => hk (List.mem_singleton.mp hb ▸ hab ▸ ha)⟩

theorem entries_remove {m : RuleMap K V} (h : m.keys.Nodup) (key : Option K) :
    (m.remove key).2.entries = m.entries.filter fun e => e.1 != key :=
  eraseP_eq_filter h

theorem get?_remove {m : RuleMap K V} (h : m.keys.Nodup) (key l : Option K) :
    (m.remove key).2.get? l = if l = key then none else m.get? l := by
  rw [get?, entries_remove h, lookup_filter]
  rfl

theorem keys_remove {m : RuleMap K V} (h : m.keys.Nodup) (key : Option K) :
    (m.remove key).2.keys = m.keys.filter fun k => k != key := by
  rw [keys, entries_remove h, keys, List.filter_map]
  rfl

theorem ofList_concat (entries : List (Option K × Option V)) (e : Option K × Option V) :
    ofList (entries ++ [e]) = ((ofList entries).insert e.1 e.2).2 := by
  simp only [ofList, List.foldl_append, List.foldl_cons, List.foldl_nil]

/-- A key stands where it stood first. -/
theorem keys_ofList (entries : List (Option K × Option V)) :
    (ofList entries).keys = (entries.map Prod.fst).eraseDups := by
  induction entries using List.reverseRecOn with
  | nil => rfl
  | append_singleton entries e ih =>
    rw [ofList_concat, keys_insert, ih, List.map_append, List.eraseDups_append]
    by_cases he : e.1 ∈ entries.map Prod.fst
    · simp [List.removeAll, he]
    · simp [List.removeAll, he, List.eraseDups_cons]

/-- A key has the value that it was given last. -/
theorem get?_ofList (entries : List (Option K × Option V)) (key : Option K) :
    (ofList entries).get? key = entries.reverse.lookup key := by
  induction entries using List.reverseRecOn with
  | nil => rfl
  | append_singleton entries e ih =>
    rw [ofList_concat, get?_insert, ih, List.reverse_concat, lookup_entry]

theorem entries_ofList {entries : List (Option K × Option V)}
    (h : (entries.map Prod.fst).Nodup) : (ofList entries).entries = entries := by
  induction entries using List.reverseRecOn with
  | nil => rfl
  | append_singleton entries e ih =>
    rw [List.map_append, List.nodup_append] at h
    have hn : e.1 ∉ entries.map Prod.fst := fun he => h.2.2 _ he e.1 (by simp) rfl
    rw [ofList_concat]
    change put e.1 e.2 (ofList entries).entries = _
    rw [ih h.1, put_of_notMem hn]

end RuleMap

end FirstMatch
