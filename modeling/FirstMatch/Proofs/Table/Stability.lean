import FirstMatch.Proofs.Json.Equality
import FirstMatch.Proofs.Json.Reread
import FirstMatch.Proofs.Table.Accepted
import FirstMatch.Proofs.Table.RoundTrip

/-!
Writing a table and reading it again. What a table loses by it are floats whose numerals are read
as other floats, and nothing else: a table without such floats comes back unchanged, any number
of times, and a table with one does not even come back equal.
-/

namespace FirstMatch

/-! Equality with replaced floats -/

namespace Json

mutual

theorem equal_mapFloats (g : Double → Double) : ∀ v : Json,
    (v.mapFloats g).equal v = true ↔ ∀ x ∈ v.floats, (g x).equal x = true
  | .null | .bool _ | .number (.integer _) | .string _ => by
    simp [mapFloats, equal, floats, Number.equal]
  | .number (.float x) => by simp [mapFloats, equal, floats, Number.equal]
  | .list items => by simpa only [mapFloats, equal, floats] using equalItems_mapFloats g items
  | .object members => by
    simpa only [mapFloats, equal, floats] using equalMembers_mapFloats g members

theorem equalItems_mapFloats (g : Double → Double) : ∀ items : List Json,
    equalItems (mapFloatsItems g items) items = true ↔
      ∀ x ∈ floatsItems items, (g x).equal x = true
  | [] => by simp [mapFloatsItems, equalItems, floatsItems]
  | item :: rest => by
    simp only [mapFloatsItems, equalItems, floatsItems, Bool.and_eq_true, List.forall_mem_append,
      equal_mapFloats g item, equalItems_mapFloats g rest]

theorem equalMembers_mapFloats (g : Double → Double) : ∀ members : List (String × Json),
    equalMembers (mapFloatsMembers g members) members = true ↔
      ∀ x ∈ floatsMembers members, (g x).equal x = true
  | [] => by simp [mapFloatsMembers, equalMembers, floatsMembers]
  | (name, value) :: rest => by
    simp only [mapFloatsMembers, equalMembers, floatsMembers, Bool.and_eq_true,
      List.forall_mem_append, equal_mapFloats g value, equalMembers_mapFloats g rest,
      beq_self_eq_true, true_and]

end

end Json

namespace Condition

mutual

theorem equal_mapFloats (g : Double → Double) : ∀ c : Condition,
    (c.mapFloats g).equal c = true ↔ ∀ x ∈ c.floats, (g x).equal x = true
  | .always | .never | .isNull | .isNumber | .isString => by simp [mapFloats, equal, floats]
  | .equals v => by simpa only [mapFloats, equal, floats] using Json.equal_mapFloats g v
  | .lessThan x | .greaterThan x => by simp [mapFloats, equal, floats]
  | .not c => by simpa only [mapFloats, equal, floats] using equal_mapFloats g c
  | .all cs | .any cs => by
    simpa only [mapFloats, equal, floats] using equalList_mapFloats g cs

theorem equalList_mapFloats (g : Double → Double) : ∀ cs : List Condition,
    equalList (mapFloatsList g cs) cs = true ↔ ∀ x ∈ floatsList cs, (g x).equal x = true
  | [] => by simp [mapFloatsList, equalList, floatsList]
  | c :: cs => by
    simp only [mapFloatsList, equalList, floatsList, Bool.and_eq_true, List.forall_mem_append,
      equal_mapFloats g c, equalList_mapFloats g cs]

end

end Condition

namespace Action

mutual

theorem equal_mapFloats (g : Double → Double) : ∀ a : Action,
    (a.mapFloats g).equal a = true ↔ ∀ x ∈ a.floats, (g x).equal x = true
  | .identity | .null | .negate | .stringify => by simp [mapFloats, equal, floats]
  | .constant v => by simpa only [mapFloats, equal, floats] using Json.equal_mapFloats g v
  | .scale x | .offset x => by simp [mapFloats, equal, floats]
  | .chain steps => by simpa only [mapFloats, equal, floats] using equalList_mapFloats g steps

theorem equalList_mapFloats (g : Double → Double) : ∀ as : List Action,
    equalList (mapFloatsList g as) as = true ↔ ∀ x ∈ floatsList as, (g x).equal x = true
  | [] => by simp [mapFloatsList, equalList, floatsList]
  | a :: as => by
    simp only [mapFloatsList, equalList, floatsList, Bool.and_eq_true, List.forall_mem_append,
      equal_mapFloats g a, equalList_mapFloats g as]

end

end Action

namespace Table

theorem equalRules_mapFloats (g : Double → Double) (rules : List Rule) :
    equalRules (rules.map (Rule.mapFloats g)) rules = true ↔
      ∀ x ∈ rules.flatMap Rule.floats, (g x).equal x = true := by
  induction rules with
  | nil => simp [equalRules]
  | cons r rules ih =>
    simp only [List.map_cons, equalRules, Rule.equal, Rule.mapFloats, Rule.floats,
      List.flatMap_cons, Bool.and_eq_true, List.forall_mem_append, Condition.equal_mapFloats,
      Action.equal_mapFloats, ih]

theorem equal_mapFloats (g : Double → Double) (t : Table) :
    (t.mapFloats g).equal t = true ↔ ∀ x ∈ t.floats, (g x).equal x = true := by
  obtain ⟨rules, fallback⟩ := t
  simp only [equal, mapFloats, floats, Bool.and_eq_true, List.forall_mem_append,
    equalRules_mapFloats]
  cases fallback with
  | none => simp [equalFallback]
  | some a => simp only [Option.map_some, Option.getD_some, equalFallback, Action.equal_mapFloats]

end Table

namespace Table

def reload : Nat → Table → Except (ReadError Refusal) Table
  | 0, t => .ok t
  | n + 1, t => do
    let u ← ofText? t.text
    reload n u

theorem reload_of_fixed {t : Table} (h : ofText? t.text = .ok t) (n : Nat) :
    reload n t = .ok t := by
  induction n with
  | zero => rfl
  | succ n ih =>
    rw [reload, h]
    exact ih

theorem equal_self_of_reread {t : Table} (h : ∀ x ∈ t.floats, x.reread? = some x) :
    t.equal t = true := by
  have hself : t.mapFloats id = t := mapFloats_self fun x _ => rfl
  have hequal : ∀ x ∈ t.floats, x.equal x = true := by
    intro x hx
    apply Double.equal_of_alike (Double.alike_refl x)
    rintro rfl
    cases Double.isFinite_of_reread? (h _ hx)
  have ht := (equal_mapFloats id t).mpr hequal
  rwa [hself] at ht

/-- A table that has been read is equal to what its own text is read as exactly if every float in
it is reread as itself; and then it is never changed by writing and reading it. -/
theorem reload_equal_iff {text : String} {t : Table} (h : ofText? text = .ok t) :
    ((∃ u, ofText? t.text = .ok u ∧ u.equal t = true) ↔ ∀ x ∈ t.floats, x.reread? = some x) ∧
      ((∀ x ∈ t.floats, x.reread? = some x) → ∀ n, reload n t = .ok t ∧ t.equal t = true) := by
  obtain ⟨hw, hh⟩ := ofText?_fits h
  have hfixed : (∀ x ∈ t.floats, x.reread? = some x) → ofText? t.text = .ok t := by
    intro hx
    exact ofText?_of_reread hw hh hx
  refine ⟨⟨?_, ?_⟩, ?_⟩
  · rintro ⟨u, hu, hequal⟩ x hx
    rw [ofText?_eq hw hh, Reader.ifReadable] at hu
    by_cases hr : Readable t.floats
    · rw [if_pos hr] at hu
      obtain rfl := Except.ok.inj hu
      obtain ⟨y, hy⟩ := Option.isSome_iff_exists.mp (hr x hx)
      have hxy : x.reread.equal x = true := (equal_mapFloats _ t).mp hequal x hx
      rw [Double.reread, hy, Option.getD_some] at hxy
      exact Double.reread?_of_equal hy hxy
    · rw [if_neg hr] at hu
      cases hu
  · intro hx
    exact ⟨t, hfixed hx, equal_self_of_reread hx⟩
  · intro hx n
    exact ⟨reload_of_fixed (hfixed hx) n, equal_self_of_reread hx⟩

theorem reload_whole_factor :
    ∃ t, ofText? "[[],[\"scale\",2]]" = .ok t ∧ t.floats = [.ofInt 2] ∧
      ∀ n, reload n t = .ok t ∧ t.equal t = true := by
  have hread : (ofText? "[[],[\"scale\",2]]").toOption.map floats = some [.ofInt 2] := by
    decide +kernel
  have hfixed : ∀ x ∈ [Double.ofInt 2], x.reread? = some x := by
    decide +kernel
  obtain ⟨t, ht, hfloats⟩ := Option.map_eq_some_iff.mp hread
  rw [toOption_eq_some] at ht
  refine ⟨t, ht, hfloats, (reload_equal_iff ht).2 ?_⟩
  rw [hfloats]
  exact hfixed

/-- The factor 2^53 - 1 is written with a zero after the point, which makes one digit too many for
it to be read exactly. -/
theorem reload_changes_factor :
    ∃ t u, ofText? "[[],[\"scale\",9007199254740991]]" = .ok t ∧ ofText? t.text = .ok u ∧
      t.floats = [.ofInt 9007199254740991] ∧ u.floats = [.ofInt 9007199254740990] ∧
      u.equal t = false := by
  have hread : ((ofText? "[[],[\"scale\",9007199254740991]]").toOption.bind fun t =>
      (ofText? t.text).toOption.map fun u => (t.floats, u.floats, u.equal t)) =
      some ([.ofInt 9007199254740991], [.ofInt 9007199254740990], false) := by
    decide +kernel
  obtain ⟨t, ht, hread⟩ := Option.bind_eq_some_iff.mp hread
  obtain ⟨u, hu, hread⟩ := Option.map_eq_some_iff.mp hread
  rw [toOption_eq_some] at ht hu
  obtain ⟨hfloats, hread⟩ := Prod.mk.inj hread
  obtain ⟨hfloats', hequal⟩ := Prod.mk.inj hread
  exact ⟨t, u, ht, hu, hfloats, hfloats', hequal⟩

/-- Floats with short numerals do not get lost: writing and reading leaves a table alone if the
significand of each numeral in it has 53 bits and the power of ten is at most 22. -/
theorem reload_of_exact {text : String} {t : Table} (h : ofText? text = .ok t)
    (hx : ∀ x ∈ t.floats, x.Exact) (n : Nat) : reload n t = .ok t := by
  obtain ⟨hw, hh⟩ := ofText?_fits h
  apply reload_of_fixed
  apply ofText?_of_reread hw hh
  intro x hmem
  exact Double.reread?_of_exact (hx x hmem)

end Table

end FirstMatch
