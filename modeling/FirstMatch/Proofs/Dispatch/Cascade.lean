import FirstMatch.Proofs.Dispatch.Order
import Mathlib.Logic.ExistsUnique
import FirstMatch.Proofs.Output

/-!
Dispatchers as fallbacks of dispatchers. Where one table has no match the next one goes on, so a
tower of dispatchers answers as one dispatcher does for the rules of all of them in their order,
and asks the same predicates. Only the log tells the levels apart.
-/

namespace FirstMatch

variable {I O : Type}

namespace Traced

variable {ε α β : Type}

/-- The same result after the same calls. The events of the log may differ. -/
structure SameAnswer (a b : Traced ε α) : Prop where
  result : a.result = b.result
  calls : a.calls = b.calls

namespace SameAnswer

variable {a b c : Traced ε α}

theorem refl (a : Traced ε α) : SameAnswer a a := ⟨rfl, rfl⟩

theorem symm (h : SameAnswer a b) : SameAnswer b a := ⟨h.result.symm, h.calls.symm⟩

theorem trans (h : SameAnswer a b) (k : SameAnswer b c) : SameAnswer a c :=
  ⟨h.result.trans k.result, h.calls.trans k.calls⟩

theorem bind {f g : α → Traced ε β} (h : SameAnswer a b) (hf : ∀ v, SameAnswer (f v) (g v)) :
    SameAnswer (a >>= f) (b >>= g) := by
  obtain ⟨signals, result⟩ := a
  obtain ⟨signals', result'⟩ := b
  obtain ⟨hresult, hcalls⟩ := h
  dsimp only at hresult
  subst hresult
  cases result with
  | error e => exact ⟨rfl, hcalls⟩
  | ok v =>
    refine ⟨(hf v).result, ?_⟩
    have hnext := (hf v).calls
    simp only [Traced.calls] at hcalls hnext
    simp only [Bind.bind, Traced.bind, Traced.calls, List.filterMap_append, hcalls, hnext]

theorem emit_bind (e : Event) (f : Unit → Traced ε β) : SameAnswer (emit e >>= f) (f ()) :=
  ⟨rfl, rfl⟩

end SameAnswer

end Traced

open Traced

/-- Asks rule by rule. The transformer of the first that accepts is applied, and the last resort
where none is left. -/
def scan : List (Predicate I × Transformer I O) → Transformer I O → Transformer I O
  | [], last => last
  | r :: rules, last => fun x => do
    if ← r.1 x then r.2 x else scan rules last x

theorem scan_append (upper lower : List (Predicate I × Transformer I O))
    (last : Transformer I O) : scan (upper ++ lower) last = scan upper (scan lower last) := by
  induction upper with
  | nil => rfl
  | cons r upper ih => simp only [List.cons_append, scan, ih]

theorem scan_congr {last other : Transformer I O} {x : I}
    (h : SameAnswer (last x) (other x)) (rules : List (Predicate I × Transformer I O)) :
    SameAnswer (scan rules last x) (scan rules other x) := by
  induction rules with
  | nil => exact h
  | cons r rules ih =>
    refine (SameAnswer.refl (r.1 x)).bind ?_
    intro verdict
    cases verdict with
    | true => exact .refl _
    | false => exact ih

namespace Switch

def proceed (transformers : List (Transformer I O)) (last : Transformer I O) (x : I) :
    Option Nat → Traced Failure O
  | some i => do
    Traced.emit (.ruleMatched i)
    match transformers[i]? with
    | some t => t x
    | none => Traced.fail (.missingTransformer i)
  | none => do
    Traced.emit .noRuleMatched
    last x

theorem transform_eq_proceed [Inhabited O] (s : Switch (Predicate I) (Transformer I O)) (x : I) :
    s.transform x =
      select x 0 s.predicates >>= proceed s.transformers s.fallbackTransformer x := by
  rw [transform]
  congr

theorem select_proceed (passed : List (Transformer I O))
    (rules : List (Predicate I × Transformer I O)) (last : Transformer I O) (x : I) :
    SameAnswer
      (select x passed.length (rules.map Prod.fst) >>=
        proceed (passed ++ rules.map Prod.snd) last x)
      (scan rules last x) := by
  induction rules generalizing passed with
  | nil => exact SameAnswer.emit_bind .noRuleMatched fun _ => last x
  | cons r rules ih =>
    rw [List.map_cons, List.map_cons, select, bind_assoc]
    refine (SameAnswer.refl (r.1 x)).bind ?_
    intro verdict
    cases verdict with
    | true =>
      have hget : (passed ++ r.2 :: rules.map Prod.snd)[passed.length]? = some r.2 := by simp
      simp only [if_true, pure_bind, proceed, hget]
      exact .emit_bind _ _
    | false =>
      have hrest := ih (passed ++ [r.2])
      rw [List.length_append, List.length_singleton, List.append_assoc] at hrest
      exact hrest

theorem transform_scan [Inhabited O] (rules : List (Predicate I × Transformer I O))
    (fallback : Option (Transformer I O)) (x : I) :
    SameAnswer
      ((⟨rules.map Prod.fst, rules.map Prod.snd, fallback⟩ :
        Switch (Predicate I) (Transformer I O)).transform x)
      (scan rules (fallback.getD nullTransformer) x) := by
  rw [transform_eq_proceed]
  exact select_proceed [] rules _ x

end Switch

namespace Dispatcher

variable {P T : Type}

def BuiltFrom (rules : List (P × T)) (fallback : Option T) (d : Dispatcher P T) : Prop :=
  (ofSlots (some (rules.map fun r => some r.1)) (some (rules.map fun r => some r.2))
    fallback).result = .ok d

variable {rules : List (P × T)} {fallback : Option T} {d : Dispatcher P T}

theorem builtFrom_iff :
    BuiltFrom rules fallback d ↔ d = ofRules Prod.fst Prod.snd rules fallback := by
  rw [BuiltFrom, result_ofSlots, Except.ok.injEq, eq_comm]

theorem existsUnique_builtFrom (rules : List (P × T)) (fallback : Option T) :
    ∃! d, BuiltFrom rules fallback d := by
  refine ⟨ofRules Prod.fst Prod.snd rules fallback, builtFrom_iff.mpr rfl, ?_⟩
  intro d hd
  exact builtFrom_iff.mp hd

section Towers

variable [Inhabited O] {upper lower rules : List (Predicate I × Transformer I O)}
  {tables : List (List (Predicate I × Transformer I O))} {fallback : Option (Transformer I O)}
  {last : Transformer I O} {d e f : Dispatcher (Predicate I) (Transformer I O)}

/-- Dispatchers above each other, from the highest table to the lowest: each has the one below it
as its fallback, and the lowest has this one. -/
inductive Tower (fallback : Option (Transformer I O)) :
    List (List (Predicate I × Transformer I O)) →
      Dispatcher (Predicate I) (Transformer I O) → Prop where
  | lowest {rules : List (Predicate I × Transformer I O)}
      {d : Dispatcher (Predicate I) (Transformer I O)} (built : BuiltFrom rules fallback d) :
      Tower fallback [rules] d
  | above {rules : List (Predicate I × Transformer I O)}
      {tables : List (List (Predicate I × Transformer I O))}
      {d e : Dispatcher (Predicate I) (Transformer I O)} (below : Tower fallback tables d)
      (built : BuiltFrom rules (some d.transform) e) : Tower fallback (rules :: tables) e

theorem BuiltFrom.transform_scan (h : BuiltFrom rules fallback d) (x : I) :
    SameAnswer (d.transform x) (scan rules (fallback.getD nullTransformer) x) := by
  obtain rfl := builtFrom_iff.mp h
  cases rules with
  | nil => cases fallback <;> exact .refl _
  | cons r rules => exact Switch.transform_scan (r :: rules) fallback x

theorem BuiltFrom.transform_above (hu : BuiltFrom upper (some d.transform) e) {x : I}
    (hl : SameAnswer (d.transform x) (scan lower last x)) :
    SameAnswer (e.transform x) (scan (upper ++ lower) last x) := by
  have he : SameAnswer (e.transform x) (scan upper d.transform x) := hu.transform_scan x
  rw [scan_append]
  exact he.trans (scan_congr hl upper)

theorem exists_tower (fallback : Option (Transformer I O)) (hne : tables ≠ []) :
    ∃ d, Tower fallback tables d := by
  induction tables with
  | nil => exact absurd rfl hne
  | cons rules tables ih =>
    by_cases hlast : tables = []
    · obtain ⟨d, hd, -⟩ := existsUnique_builtFrom rules fallback
      subst hlast
      exact ⟨d, .lowest hd⟩
    · obtain ⟨d, hd⟩ := ih hlast
      obtain ⟨e, he, -⟩ := existsUnique_builtFrom rules (some d.transform)
      exact ⟨e, .above hd he⟩

theorem Tower.transform_scan (h : Tower fallback tables d) (x : I) :
    SameAnswer (d.transform x) (scan tables.flatten (fallback.getD nullTransformer) x) := by
  induction h with
  | @lowest rules d built =>
    rw [List.flatten_singleton]
    exact built.transform_scan x
  | @above rules tables d e _ built ih =>
    rw [List.flatten_cons]
    exact built.transform_above ih

/-- Every table gives one dispatcher. Where the dispatcher of a table is the fallback of another,
every input gets the answer, and the same predicates are asked in the same order, that one
dispatcher gives for the rules of both, whichever of the two tables are empty. So it is with any
number of dispatchers above each other and the one dispatcher for all their rules. -/
theorem tower_flattens (fallback : Option (Transformer I O)) :
    (∀ rules : List (Predicate I × Transformer I O), ∃! d, BuiltFrom rules fallback d) ∧
    (∀ upper lower : List (Predicate I × Transformer I O), ∀ d e f,
      BuiltFrom lower fallback d → BuiltFrom upper (some d.transform) e →
      BuiltFrom (upper ++ lower) fallback f → ∀ x, SameAnswer (e.transform x) (f.transform x)) ∧
    ∀ tables : List (List (Predicate I × Transformer I O)), tables ≠ [] →
      (∃ d, Tower fallback tables d) ∧
      ∀ d f, Tower fallback tables d → BuiltFrom tables.flatten fallback f →
        ∀ x, SameAnswer (d.transform x) (f.transform x) := by
  refine ⟨fun rules => existsUnique_builtFrom rules fallback, ?_, ?_⟩
  · intro upper lower d e f hd he hf x
    have habove : SameAnswer (e.transform x)
        (scan (upper ++ lower) (fallback.getD nullTransformer) x) :=
      he.transform_above (hd.transform_scan x)
    exact habove.trans (hf.transform_scan x).symm
  · intro tables hne
    refine ⟨exists_tower fallback hne, ?_⟩
    intro d f hd hf x
    exact (hd.transform_scan x).trans (hf.transform_scan x).symm

end Towers

def turned : Predicate Int × Transformer Int Int :=
  (watch "negative" fun x => pure (x < 0), watch "turn" fun x => pure (-x))

def raised : Predicate Int × Transformer Int Int :=
  (watch "zero" fun x => pure (x == 0), watch "raise" fun _ => pure 1)

/-- Between the two tables there is one without rules, and the lowest one has the fallback. -/
theorem turned_above_raised : ∃ d,
    Tower (some pure) [[turned], [], [raised]] d ∧
    (d.transform 0).result = .ok 1 ∧ (d.transform 0).calls = ["negative", "zero", "raise"] ∧
    (d.transform 5).result = .ok 5 ∧ (d.transform 5).calls = ["negative", "zero"] := by
  obtain ⟨hbuilt, -, htower⟩ := tower_flattens (I := Int) (O := Int) (some pure)
  have hne : [[turned], [], [raised]] ≠ [] := by simp
  obtain ⟨⟨d, hd⟩, hflat⟩ := htower [[turned], [], [raised]] hne
  obtain ⟨f, hf, -⟩ := hbuilt [turned, raised]
  obtain rfl := builtFrom_iff.mp hf
  have hsame := hflat d _ hd hf
  refine ⟨d, hd, ?_, ?_, ?_, ?_⟩
  · exact (hsame 0).result
  · exact (hsame 0).calls
  · exact (hsame 5).result
  · exact (hsame 5).calls

end Dispatcher

end FirstMatch
