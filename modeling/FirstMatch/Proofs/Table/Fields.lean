import FirstMatch.Proofs.Json.Token
import FirstMatch.Table.Operation
import Mathlib.Data.List.Induction

/-!
Members by name. What is read member by member, with the one found so far as the state, comes to
what the only member of each name is taken as, wherever it stands. With that, a condition or an
action is decoded from the operation that its member or its first item chooses.
-/

namespace FirstMatch

section Fields

variable {α β γ : Type} {name : String} {f : β → Option α} {ms : List (String × β)}

/-- What the only member of this name is taken as, or nothing without one. Two are refused. -/
def field? (name : String) (f : β → Option α) (ms : List (String × β)) : Option (Option α) :=
  match ms.filter fun m => m.1 == name with
  | [] => some none
  | [m] => (f m.2).map some
  | _ => none

theorem field?_of_nil (h : (ms.filter fun m => m.1 == name) = []) :
    field? name f ms = some none := by
  rw [field?, h]

theorem field?_of_single {m : String × β} (h : (ms.filter fun m => m.1 == name) = [m]) :
    field? name f ms = (f m.2).map some := by
  rw [field?, h]

theorem field?_of_two {m n : String × β} {rest : List (String × β)}
    (h : (ms.filter fun m => m.1 == name) = m :: n :: rest) : field? name f ms = none := by
  rw [field?, h]

theorem field?_other {m : String × β} (h : m.1 ≠ name) :
    field? name f (ms ++ [m]) = field? name f ms := by
  have hm : (m.1 == name) = false := beq_eq_false_iff_ne.mpr h
  simp only [field?, List.filter_append, List.filter_cons, hm, Bool.false_eq_true, if_false,
    List.filter_nil, List.append_nil]

theorem field?_concat (x : β) :
    field? name f (ms ++ [(name, x)]) = (field? name f ms).bind fun found =>
      match found with
      | none => (f x).map some
      | some _ => none := by
  have hsplit : ((ms ++ [(name, x)]).filter fun m => m.1 == name) =
      (ms.filter fun m => m.1 == name) ++ [(name, x)] := by
    simp
  cases hms : ms.filter fun m => m.1 == name with
  | nil =>
    rw [hms] at hsplit
    rw [field?_of_nil hms, field?_of_single hsplit]
    rfl
  | cons m rest =>
    cases rest with
    | nil =>
      rw [hms] at hsplit
      rw [field?_of_single hms, field?_of_two hsplit]
      cases f m.2 <;> rfl
    | cons n rest =>
      rw [hms] at hsplit
      rw [field?_of_two hms, field?_of_two hsplit]
      rfl

theorem field?_congr {g : β → Option α}
    (h : ∀ m ∈ ms, m.1 = name → f m.2 = g m.2) : field? name f ms = field? name g ms := by
  cases hms : ms.filter fun m => m.1 == name with
  | nil => rw [field?_of_nil hms, field?_of_nil hms]
  | cons m rest =>
    cases rest with
    | nil =>
      have hm : m ∈ ms.filter fun m => m.1 == name := hms ▸ List.mem_cons_self
      obtain ⟨hmem, hname⟩ := List.mem_filter.mp hm
      rw [field?_of_single hms, field?_of_single hms, h m hmem (beq_iff_eq.mp hname)]
    | cons n rest => rw [field?_of_two hms, field?_of_two hms]

theorem field?_join_eq_some {x : α} (h : (field? name f ms).join = some x) :
    ∃ m, (ms.filter fun m => m.1 == name) = [m] ∧ f m.2 = some x := by
  cases hms : ms.filter fun m => m.1 == name with
  | nil =>
    rw [field?_of_nil hms] at h
    cases h
  | cons m rest =>
    cases rest with
    | nil =>
      rw [field?_of_single hms] at h
      refine ⟨m, rfl, ?_⟩
      cases hx : f m.2 with
      | none =>
        rw [hx] at h
        cases h
      | some y =>
        rw [hx] at h
        exact h
    | cons n rest =>
      rw [field?_of_two hms] at h
      cases h

/-- One of two members that may stand in any order, each once; others are passed over. -/
def fieldStep (first second : String) (f : β → Option α) (g : β → Option γ)
    (found : Option α × Option γ) (m : String × β) : Option (Option α × Option γ) :=
  if m.1 = first then
    if found.1.isSome then none else (f m.2).map fun x => (some x, found.2)
  else if m.1 = second then
    if found.2.isSome then none else (g m.2).map fun y => (found.1, some y)
  else some found

theorem foldlM_fieldStep {first second : String} (hne : first ≠ second) (g : β → Option γ)
    (ms : List (String × β)) :
    ms.foldlM (fieldStep first second f g) (none, none) =
      (field? first f ms).bind fun x => (field? second g ms).map fun y => (x, y) := by
  induction ms using List.reverseRecOn with
  | nil => rfl
  | append_singleton ms m ih =>
    obtain ⟨name, x⟩ := m
    rw [List.foldlM_append, ih]
    by_cases hfirst : name = first
    · subst hfirst
      rw [field?_concat, field?_other hne]
      cases field? name f ms with
      | none => rfl
      | some found =>
        cases field? second g ms with
        | none => cases found <;> cases f x <;> rfl
        | some other => cases found <;> cases hx : f x <;> simp [fieldStep, hx]
    · rw [field?_other hfirst]
      by_cases hsecond : name = second
      · subst hsecond
        rw [field?_concat]
        cases field? first f ms with
        | none => rfl
        | some found =>
          cases field? name g ms with
          | none => rfl
          | some other => cases other <;> cases hx : g x <;> simp [fieldStep, hfirst, hx]
      · rw [field?_other hsecond]
        cases field? first f ms with
        | none => rfl
        | some found => cases field? second g ms <;> simp [fieldStep, hfirst, hsecond]

theorem filter_name_cons (m : String × β) (ms : List (String × β)) :
    ((m :: ms).filter fun n => n.1 == name) =
      if m.1 = name then m :: ms.filter fun n => n.1 == name
      else ms.filter fun n => n.1 == name := by
  simp only [List.filter_cons, beq_iff_eq]

theorem field?_cons_other {m : String × β} (h : m.1 ≠ name) :
    field? name f (m :: ms) = field? name f ms := by
  rw [field?, filter_name_cons, if_neg h, field?]

theorem field?_cons (x : β) :
    field? name f ((name, x) :: ms) =
      if (ms.filter fun m => m.1 == name) = [] then (f x).map some else none := by
  rw [field?, filter_name_cons, if_pos rfl]
  cases ms.filter fun m => m.1 == name <;> rfl

end Fields

namespace Operation

variable {α : Type} {name : String} {decode : Json → Except Refusal α}

theorem decodeField_some (x : α) (ms : List (String × Json)) :
    (decodeField name decode (some x) ms).toOption =
      if (ms.filter fun m => m.1 == name) = [] then some x else none := by
  induction ms with
  | nil => rfl
  | cons m ms ih =>
    obtain ⟨key, v⟩ := m
    rw [filter_name_cons]
    by_cases hkey : key = name
    · simp only [decodeField, hkey, if_true, reduceCtorEq, if_false]
      rfl
    · simp only [decodeField, hkey, if_false, ih]

theorem decodeField_none (ms : List (String × Json)) :
    (decodeField name decode none ms).toOption =
      (field? name (fun v => (decode v).toOption) ms).join := by
  induction ms with
  | nil => rfl
  | cons m ms ih =>
    obtain ⟨key, v⟩ := m
    by_cases hkey : key = name
    · subst hkey
      rw [field?_cons]
      simp only [decodeField, if_true, toOption_bind, decodeField_some]
      cases decode v with
      | error e => simp [Except.toOption]
      | ok x => by_cases hms : (ms.filter fun m => m.1 == key) = [] <;> simp [hms, Except.toOption]
    · rw [field?_cons_other hkey, ← ih]
      simp only [decodeField, hkey, if_false]

end Operation

namespace Vocabulary

variable {α : Type} (v : Vocabulary α)

def others (ms : List (String × Json)) : List (String × Json) := ms.filter fun m => m.1 != "op"

theorem others_cons (m : String × Json) (ms : List (String × Json)) :
    others (m :: ms) = if m.1 = "op" then others ms else m :: others ms := by
  by_cases h : m.1 = "op" <;> simp [others, h]

theorem filter_others {name : String} (h : name ≠ "op") (ms : List (String × Json)) :
    ((others ms).filter fun m => m.1 == name) = ms.filter fun m => m.1 == name := by
  rw [others, List.filter_filter]
  refine List.filter_congr fun m _ => ?_
  by_cases hm : m.1 = name
  · simp [hm, h]
  · simp [hm]

def chosen? (j : Json) : Option (Operation α) := (v.operation j).toOption

theorem toOption_named (name : String) :
    (v.named name).toOption = v.operations.find? fun op => op.name == name := by
  unfold named
  cases v.operations.find? fun op => op.name == name <;> rfl

theorem chosen?_integer (n : Int) :
    v.chosen? (.number (.integer n)) = if 0 ≤ n then v.operations[n.toNat]? else none := by
  rw [chosen?, operation]
  split
  · cases v.operations[n.toNat]? <;> rfl
  · rfl

def spoken? : Json → Option (Operation α)
  | .string name => (v.named name).toOption
  | _ => none

def decodeBy (choose : Json → Option (Operation α)) : Json → Option α
  | .object ms =>
    (field? "op" choose ms).join.bind fun op => (op.ofMembers (others ms)).toOption
  | .list (first :: rest) => (choose first).bind fun op => (op.ofItems rest).toOption
  | _ => none

theorem split_found (op : Operation α) (ms : List (String × Json)) :
    (v.split (some op) ms).toOption =
      if (ms.filter fun m => m.1 == "op") = [] then some (op, others ms) else none := by
  induction ms with
  | nil => rfl
  | cons m ms ih =>
    obtain ⟨key, j⟩ := m
    rw [filter_name_cons, others_cons]
    by_cases hkey : key = "op"
    · simp only [split, hkey, if_true, reduceCtorEq, if_false]
      rfl
    · simp only [split, hkey, if_false, toOption_bind, ih]
      split <;> rfl

theorem split_none (ms : List (String × Json)) :
    (v.split none ms).toOption = (field? "op" v.chosen? ms).join.map (·, others ms) := by
  induction ms with
  | nil => rfl
  | cons m ms ih =>
    obtain ⟨key, j⟩ := m
    rw [others_cons]
    by_cases hkey : key = "op"
    · subst hkey
      rw [field?_cons]
      simp only [split, if_true, toOption_bind, split_found, chosen?]
      cases v.operation j with
      | error e => simp [Except.toOption]
      | ok op =>
        by_cases hms : (ms.filter fun m => m.1 == "op") = [] <;> simp [hms, Except.toOption]
    · rw [field?_cons_other hkey]
      simp only [split, hkey, if_false, toOption_bind, ih]
      cases (field? "op" v.chosen? ms).join <;> rfl

/-- Inside another condition or action an operation may be chosen in any way. -/
theorem decode_eq (j : Json) : (v.decode j).toOption = decodeBy v.chosen? j := by
  cases j with
  | object ms =>
    rw [decode, toOption_bind, split_none, decodeBy]
    cases (field? "op" v.chosen? ms).join <;> rfl
  | list items =>
    cases items with
    | nil => rfl
    | cons first rest =>
      rw [decode, toOption_bind]
      rfl
  | _ => rfl

end Vocabulary

namespace Json

/-- Wherever the operation is given, its name is. -/
def NamesOperation : Json → Prop
  | .object ms => ∀ m ∈ ms, m.1 = "op" → ∃ name, m.2 = .string name
  | .list (first :: _) => ∃ name, first = .string name
  | _ => True

end Json

namespace Vocabulary

variable {α : Type} {v : Vocabulary α} {j : Json}

theorem spoken?_string (name : String) : v.spoken? (.string name) = v.chosen? (.string name) := rfl

theorem exists_string_of_spoken? {op : Operation α} (h : v.spoken? j = some op) :
    ∃ name, j = .string name := by
  cases j with
  | string name => exact ⟨name, rfl⟩
  | _ => cases h

theorem decodeBy_spoken? (h : j.NamesOperation) : decodeBy v.spoken? j = decodeBy v.chosen? j := by
  cases j with
  | object ms =>
    have hop : field? "op" v.spoken? ms = field? "op" v.chosen? ms := by
      apply field?_congr
      intro m hm hname
      obtain ⟨name, hj⟩ := h m hm hname
      rw [hj, spoken?_string]
    rw [decodeBy, decodeBy, hop]
  | list items =>
    cases items with
    | nil => rfl
    | cons first rest =>
      obtain ⟨name, rfl⟩ := h
      rfl
  | _ => rfl

theorem namesOperation_of_decodeBy {x : α} (h : decodeBy v.spoken? j = some x) :
    j.NamesOperation := by
  cases j with
  | object ms =>
    intro m hm hname
    obtain ⟨op, hop, -⟩ := Option.bind_eq_some_iff.mp h
    obtain ⟨n, hn, hspoken⟩ := field?_join_eq_some hop
    have hmem : m ∈ ms.filter fun m => m.1 == "op" :=
      List.mem_filter.mpr ⟨hm, beq_iff_eq.mpr hname⟩
    rw [hn] at hmem
    obtain rfl := List.mem_singleton.mp hmem
    exact exists_string_of_spoken? hspoken
  | list items =>
    cases items with
    | nil => trivial
    | cons first rest =>
      obtain ⟨op, hop, -⟩ := Option.bind_eq_some_iff.mp h
      exact exists_string_of_spoken? hop
  | _ => trivial

/-- To be decoded where the operation has to be named, a value has to name it, and nothing else. -/
theorem decodeBy_spoken?_eq_some_iff {x : α} :
    decodeBy v.spoken? j = some x ↔ (v.decode j).toOption = some x ∧ j.NamesOperation := by
  rw [decode_eq]
  constructor
  · intro h
    have hnames := namesOperation_of_decodeBy h
    exact ⟨decodeBy_spoken? hnames ▸ h, hnames⟩
  · rintro ⟨h, hnames⟩
    rw [decodeBy_spoken? hnames, h]

end Vocabulary

end FirstMatch
