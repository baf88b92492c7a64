import FirstMatch.Proofs.Json.Canonical
import Mathlib.Data.List.Forall2

/-!
Values with the members of their objects in another order. The order does not matter for what the
value is, since its objects are sorted when it is taken up.
-/

namespace FirstMatch.Json

inductive SameName (R : Json → Json → Prop) : String × Json → String × Json → Prop where
  | mk (name : String) {v w : Json} (value : R v w) : SameName R (name, v) (name, w)

/-- The second value is the first one with the members of objects in any order. -/
inductive Arranged : Json → Json → Prop where
  | same (v : Json) : Arranged v v
  | list {items written : List Json} (each : List.Forall₂ Arranged items written) :
      Arranged (.list items) (.list written)
  | object {members arranged written : List (String × Json)}
      (each : List.Forall₂ (SameName Arranged) members arranged)
      (order : written.Perm arranged) : Arranged (.object members) (.object written)

theorem canonicalMembers_pairwise (members : List (String × Json)) {sorted : List (String × Json)}
    (h : (sorted.map (·.1)).Pairwise (· < ·)) :
    ((canonicalMembers members sorted).map (·.1)).Pairwise (· < ·) := by
  induction members generalizing sorted with
  | nil => exact h
  | cons m members ih => exact ih (insertMember_pairwise _ h)

theorem canonicalMembers_perm {members sorted : List (String × Json)}
    (h : ((members ++ sorted).map (·.1)).Nodup) :
    (canonicalMembers members sorted).Perm
      (members.map (fun m => (m.1, m.2.canonical)) ++ sorted) := by
  induction members generalizing sorted with
  | nil => exact .refl _
  | cons m members ih =>
    obtain ⟨key, v⟩ := m
    rw [List.cons_append, List.map_cons, List.nodup_cons] at h
    have hkey : ∀ n ∈ sorted, n.1 ≠ key := by
      rintro n hn rfl
      exact h.1 (List.mem_map.mpr ⟨n, List.mem_append_right members hn, rfl⟩)
    -- The names stay different, so that the rest may be inserted after this member.
    have hinsert : (members ++ insertMember key v.canonical sorted).Perm
        ((key, v.canonical) :: (members ++ sorted)) :=
      ((insertMember_perm v.canonical hkey).append_left members).trans List.perm_middle
    have hnodup : ((members ++ insertMember key v.canonical sorted).map (·.1)).Nodup :=
      (hinsert.map (·.1)).nodup_iff.mpr (List.nodup_cons.mpr h)
    refine (ih hnodup).trans ?_
    exact ((insertMember_perm v.canonical hkey).append_left _).trans List.perm_middle

theorem eq_of_perm_of_pairwise {ms ns : List (String × Json)} (h : ms.Perm ns)
    (hm : (ms.map (·.1)).Pairwise (· < ·)) (hn : (ns.map (·.1)).Pairwise (· < ·)) : ms = ns := by
  have hanti : ∀ m n : String × Json, m ∈ ms → n ∈ ns → m.1 < n.1 → n.1 < m.1 → m = n :=
    fun m n _ _ hmn hnm => absurd (String.lt_trans hmn hnm) (String.lt_irrefl _)
  exact h.eq_of_pairwise hanti (List.pairwise_map.mp hm) (List.pairwise_map.mp hn)

theorem nodup_of_pairwise {names : List String} (h : names.Pairwise (· < ·)) : names.Nodup := by
  refine List.Pairwise.imp ?_ h
  rintro a b hlt rfl
  exact String.lt_irrefl a hlt

mutual

/-- A value is the same in every arrangement. -/
theorem Arranged.canonical_eq : ∀ {v w : Json}, Arranged v w → v.WellFormed → w.canonical = v
  | v, _, .same _, hv => canonical_self v hv
  | .list _, .list _, .list each, hv => by
    rw [canonical, canonicalItems_of_arranged each hv]
  | .object members, .object written, @Arranged.object _ arranged _ each order, hv => by
    have hmap := map_canonical_of_arranged each hv.2
    have hnames : arranged.map (·.1) = members.map (·.1) := by
      rw [← hmap, List.map_map]
      rfl
    have hnodup : ((written ++ []).map Prod.fst).Nodup := by
      rw [List.append_nil]
      refine (order.map Prod.fst).nodup_iff.mpr ?_
      rw [hnames]
      exact nodup_of_pairwise hv.1
    have hperm : (canonicalMembers written []).Perm members := by
      have hsorted := canonicalMembers_perm hnodup
      rw [List.append_nil] at hsorted
      exact hmap ▸ hsorted.trans (order.map _)
    have hpairwise : ((canonicalMembers written []).map Prod.fst).Pairwise (· < ·) :=
      canonicalMembers_pairwise written List.Pairwise.nil
    rw [canonical, eq_of_perm_of_pairwise hperm hpairwise hv.1]

theorem canonicalItems_of_arranged : ∀ {items written : List Json},
    List.Forall₂ Arranged items written → WellFormedItems items → canonicalItems written = items
  | [], _, .nil, _ => rfl
  | _ :: _, _ :: _, .cons head tail, h => by
    rw [canonicalItems, head.canonical_eq h.1, canonicalItems_of_arranged tail h.2]

theorem map_canonical_of_arranged : ∀ {members arranged : List (String × Json)},
    List.Forall₂ (SameName Arranged) members arranged → WellFormedMembers members →
      arranged.map (fun m => (m.1, m.2.canonical)) = members
  | [], _, .nil, _ => rfl
  | (_, _) :: _, _ :: _, .cons (.mk _ value) tail, h => by
    rw [List.map_cons, map_canonical_of_arranged tail h.2, value.canonical_eq h.1]

end

end FirstMatch.Json
