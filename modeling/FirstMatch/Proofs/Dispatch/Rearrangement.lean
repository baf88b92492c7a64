import FirstMatch.Proofs.Dispatch.Cascade
import Mathlib.Tactic.ByContra

/-!
The order of rules. Rules may change places as long as at most one of them has anything to say
about an input; where several accept it, the first in the order given is taken, so that the
reversed table takes the last.
-/

namespace FirstMatch

variable {I O : Type}

open Predicate

section Rules

variable {rules permuted before after : List (Predicate I × Transformer I O)}
  {r s : Predicate I × Transformer I O} {last : Transformer I O} {x : I}

/-- Of any two rules, one rejects the input. -/
def Apart (rules : List (Predicate I × Transformer I O)) (x : I) : Prop :=
  rules.Pairwise fun r s => Rejects r.1 x ∨ Rejects s.1 x

def AtMostOneAccepts (rules : List (Predicate I × Transformer I O)) (x : I) : Prop :=
  ∀ (i j : Nat) (r s : Predicate I × Transformer I O), rules[i]? = some r → rules[j]? = some s →
    Accepts r.1 x → Accepts s.1 x → i = j

def FirstAccepts (rules : List (Predicate I × Transformer I O)) (x : I)
    (r : Predicate I × Transformer I O) : Prop :=
  ∃ before after, rules = before ++ r :: after ∧ (∀ q ∈ before, Rejects q.1 x) ∧ Accepts r.1 x

def LastAccepts (rules : List (Predicate I × Transformer I O)) (x : I)
    (r : Predicate I × Transformer I O) : Prop :=
  ∃ before after, rules = before ++ r :: after ∧ (∀ q ∈ after, Rejects q.1 x) ∧ Accepts r.1 x

theorem Apart.of_perm (h : Apart rules x) (hp : permuted.Perm rules) : Apart permuted x :=
  List.Pairwise.perm h hp.symm fun hr => hr.symm

theorem apart_iff (h : ∀ r ∈ rules, Returns r.1 x) : Apart rules x ↔ AtMostOneAccepts rules x := by
  have hverdict : ∀ {i : Nat} {r}, rules[i]? = some r → ¬ Rejects r.1 x → Accepts r.1 x := by
    intro i r hr hrej
    exact (h r (List.mem_of_getElem? hr)).accepts hrej
  constructor
  · intro hapart i j r s hi hj hr hs
    obtain ⟨hilt, rfl⟩ := List.getElem?_eq_some_iff.mp hi
    obtain ⟨hjlt, rfl⟩ := List.getElem?_eq_some_iff.mp hj
    have hpairs := List.pairwise_iff_getElem.mp hapart
    rcases Nat.lt_trichotomy i j with hlt | heq | hlt
    · rcases hpairs i j hilt hjlt hlt with hrej | hrej
      · exact absurd hrej hr.not_rejects
      · exact absurd hrej hs.not_rejects
    · exact heq
    · rcases hpairs j i hjlt hilt hlt with hrej | hrej
      · exact absurd hrej hs.not_rejects
      · exact absurd hrej hr.not_rejects
  · intro hone
    refine List.pairwise_iff_getElem.mpr ?_
    intro i j hi hj hlt
    by_contra hboth
    rw [not_or] at hboth
    have hi' := List.getElem?_eq_getElem hi
    have hj' := List.getElem?_eq_getElem hj
    have heq := hone i j _ _ hi' hj' (hverdict hi' hboth.1) (hverdict hj' hboth.2)
    omega

theorem scan_cons_of_rejects (h : Rejects r.1 x) :
    (scan (r :: rules) last x).result = (scan rules last x).result := by
  have hverdict : (r.1 x).result = .ok false := h
  simp only [scan, Bind.bind, Traced.bind, hverdict, Bool.false_eq_true, if_false]

theorem scan_cons_of_not_rejects (h : ¬ Rejects r.1 x)
    (rules permuted : List (Predicate I × Transformer I O)) (last : Transformer I O) :
    scan (r :: rules) last x = scan (r :: permuted) last x := by
  have hverdict : (r.1 x).result ≠ .ok false := h
  simp only [scan, Bind.bind, Traced.bind]
  cases hr : (r.1 x).result with
  | error e => rfl
  | ok verdict =>
    cases verdict with
    | true => rfl
    | false => exact absurd hr hverdict

theorem scan_of_first (h : FirstAccepts rules x r) :
    (scan rules last x).result = (r.2 x).result := by
  obtain ⟨before, after, rfl, hbefore, hacc⟩ := h
  induction before with
  | nil =>
    have hverdict : (r.1 x).result = .ok true := hacc
    simp only [List.nil_append, scan, Bind.bind, Traced.bind, hverdict, if_true]
  | cons q before ih =>
    obtain ⟨hq, hbefore⟩ := List.forall_mem_cons.mp hbefore
    rw [List.cons_append, scan_cons_of_rejects hq, ih hbefore]

/-- Two neighbours may change places if one of them rejects. -/
theorem scan_swap (h : Rejects r.1 x ∨ Rejects s.1 x) :
    (scan (r :: s :: rules) last x).result = (scan (s :: r :: rules) last x).result := by
  -- The rule that rejects can be left out on both sides, whatever the other one does.
  have hskip : ∀ {p q : Predicate I × Transformer I O}, Rejects p.1 x →
      (scan (p :: q :: rules) last x).result = (scan (q :: p :: rules) last x).result := by
    intro p q hp
    rw [scan_cons_of_rejects hp]
    by_cases hq : Rejects q.1 x
    · rw [scan_cons_of_rejects hq, scan_cons_of_rejects hq, scan_cons_of_rejects hp]
    · rw [scan_cons_of_not_rejects hq rules (p :: rules)]
  rcases h with hr | hs
  · exact hskip hr
  · exact (hskip hs).symm

theorem scan_perm (hp : permuted.Perm rules) (h : Apart rules x) :
    (scan permuted last x).result = (scan rules last x).result := by
  induction hp with
  | nil => rfl
  | @cons r permuted rules _ ih =>
    have hrest := ih (List.pairwise_cons.mp h).2
    by_cases hr : Rejects r.1 x
    · rw [scan_cons_of_rejects hr, scan_cons_of_rejects hr, hrest]
    · rw [scan_cons_of_not_rejects hr permuted rules]
  | swap r s rules =>
    obtain ⟨hr, -⟩ := List.pairwise_cons.mp h
    exact (scan_swap (hr s List.mem_cons_self)).symm
  | trans _ hq ih ihq => exact (ih (h.of_perm hq)).trans (ihq h)

theorem exists_firstAccepts (h : ∀ r ∈ rules, Returns r.1 x) (hacc : ∃ r ∈ rules, Accepts r.1 x) :
    ∃ r, FirstAccepts rules x r := by
  induction rules with
  | nil =>
    obtain ⟨r, hr, -⟩ := hacc
    cases hr
  | cons q rules ih =>
    obtain ⟨hq, hrules⟩ := List.forall_mem_cons.mp h
    by_cases hrej : Rejects q.1 x
    · obtain ⟨r, hr, hr'⟩ := hacc
      rcases List.mem_cons.mp hr with rfl | hr
      · exact absurd hrej hr'.not_rejects
      · obtain ⟨s, before, after, rfl, hbefore, hs⟩ := ih hrules ⟨r, hr, hr'⟩
        exact ⟨s, q :: before, after, rfl, List.forall_mem_cons.mpr ⟨hrej, hbefore⟩, hs⟩
    · exact ⟨q, [], rules, rfl, nofun, hq.accepts hrej⟩

theorem firstAccepts_reverse : FirstAccepts rules.reverse x r ↔ LastAccepts rules x r := by
  constructor
  · rintro ⟨before, after, hsplit, hbefore, hacc⟩
    refine ⟨after.reverse, before.reverse, ?_, ?_, hacc⟩
    · rw [← List.reverse_reverse rules, hsplit, List.reverse_append, List.reverse_cons,
        List.append_assoc]
      rfl
    · intro q hq
      exact hbefore q (List.mem_reverse.mp hq)
  · rintro ⟨before, after, rfl, hafter, hacc⟩
    refine ⟨after.reverse, before.reverse, ?_, ?_, hacc⟩
    · rw [List.reverse_append, List.reverse_cons, List.append_assoc]
      rfl
    · intro q hq
      exact hafter q (List.mem_reverse.mp hq)

end Rules

namespace Dispatcher

/-- The order of the rules matters only for what several of them accept. An input about which no
two rules have anything to say gets the same answer from every permutation of them; with a verdict
from every predicate, these are the inputs that at most one accepts. An input that some predicate
accepts gets the answer of the first rule that does, and from the reversed table that of the
last. -/
theorem order_decides_overlaps [Inhabited O] (rules : List (Predicate I × Transformer I O))
    (fallback : Option (Transformer I O)) (x : I) :
    (∃ d, BuiltFrom rules fallback d) ∧
    (∀ permuted, permuted.Perm rules → (∃ e, BuiltFrom permuted fallback e) ∧
      (Apart rules x → ∀ d e, BuiltFrom rules fallback d → BuiltFrom permuted fallback e →
        (d.transform x).result = (e.transform x).result)) ∧
    (∀ r, FirstAccepts rules x r → ∀ d, BuiltFrom rules fallback d →
      (d.transform x).result = (r.2 x).result) ∧
    (∀ r, LastAccepts rules x r → ∀ d, BuiltFrom rules.reverse fallback d →
      (d.transform x).result = (r.2 x).result) ∧
    ((∀ r ∈ rules, Returns r.1 x) →
      (Apart rules x ↔ AtMostOneAccepts rules x) ∧
      ((∃ r ∈ rules, Accepts r.1 x) →
        (∃ r, FirstAccepts rules x r) ∧ ∃ r, LastAccepts rules x r)) := by
  have hfirst : ∀ {rules r}, FirstAccepts rules x r → ∀ d, BuiltFrom rules fallback d →
      (d.transform x).result = (r.2 x).result := by
    intro rules r hr d hd
    rw [(hd.transform_scan x).result, scan_of_first hr]
  refine ⟨(existsUnique_builtFrom rules fallback).exists, ?_, ?_, ?_, ?_⟩
  · intro permuted hp
    refine ⟨(existsUnique_builtFrom permuted fallback).exists, ?_⟩
    intro hapart d e hd he
    rw [(hd.transform_scan x).result, (he.transform_scan x).result, scan_perm hp hapart]
  · intro r hr
    exact hfirst hr
  · intro r hr
    exact hfirst (firstAccepts_reverse.mpr hr)
  · intro hanswers
    refine ⟨apart_iff hanswers, ?_⟩
    intro hacc
    have hreverse : ∃ r, FirstAccepts rules.reverse x r := by
      refine exists_firstAccepts ?_ ?_
      · intro r hr
        exact hanswers r (List.mem_reverse.mp hr)
      · obtain ⟨r, hr, haccepts⟩ := hacc
        exact ⟨r, List.mem_reverse.mpr hr, haccepts⟩
    obtain ⟨r, hr⟩ := hreverse
    exact ⟨exists_firstAccepts hanswers hacc, r, firstAccepts_reverse.mp hr⟩

def small : Predicate Int × Transformer Int Int := (fun x => pure (x < 10), fun _ => pure 1)

def even : Predicate Int × Transformer Int Int := (fun x => pure (x % 2 == 0), fun _ => pure 2)

/-- Only the second rule accepts 12, and both accept 4. -/
theorem small_even_overlap :
    Apart [small, even] 12 ∧ FirstAccepts [small, even] 4 small ∧
    LastAccepts [small, even] 4 even ∧
    ∃ d e, BuiltFrom [small, even] none d ∧ BuiltFrom [even, small] none e ∧
      (d.transform 12).result = (e.transform 12).result ∧
      (d.transform 4).result = .ok 1 ∧ (e.transform 4).result = .ok 2 := by
  have hapart : Apart [small, even] 12 := by
    refine List.pairwise_pair.mpr (.inl ?_)
    rfl
  have hfirst : FirstAccepts [small, even] 4 small := ⟨[], [even], rfl, nofun, rfl⟩
  have hlast : LastAccepts [small, even] 4 even := ⟨[small], [], rfl, nofun, rfl⟩
  obtain ⟨⟨d, hd⟩, hperm, -⟩ := order_decides_overlaps [small, even] none 12
  obtain ⟨-, -, hforward, hreversed, -⟩ := order_decides_overlaps [small, even] none 4
  obtain ⟨⟨e, he⟩, hsame⟩ := hperm [even, small] (.swap small even [])
  refine ⟨hapart, hfirst, hlast, d, e, hd, he, hsame hapart d e hd he, ?_, ?_⟩
  · exact hforward small hfirst d hd
  · exact hreversed even hlast e he

end Dispatcher

end FirstMatch
