import FirstMatch.Proofs.Double.Rational
import FirstMatch.Proofs.Selection
import FirstMatch.Proofs.Table.Placement

/-!
Comparison with one number in three ways. Never more than one of them accepts a number. One of
them does, unless two different whole numbers are one double: less and greater compare doubles and
equality compares whole numbers exactly, so that then none accepts.
-/

namespace FirstMatch

namespace Number

theorem WellFormed.toDouble_isFinite {n : Number} (h : n.WellFormed) :
    n.toDouble.isFinite = true := by
  cases n with
  | integer k =>
    have hbits : k.natAbs ≤ 2 ^ 64 := by
      obtain ⟨hlo, hhi⟩ := h
      omega
    exact Double.ofInt_isFinite hbits
  | float x => exact h

theorem same_integer_iff {m n : Int} (hm : (integer m).WellFormed) :
    (integer m).same (integer n) = true ↔ m = n := by
  have hranges : (integer m).same (integer n) = true ↔
      fitSigned? m = fitSigned? n ∧ fitUnsigned? m = fitUnsigned? n := by
    simp [same, isFloat, signed?, unsigned?]
  rw [hranges]
  obtain ⟨hlo, hhi⟩ := hm
  constructor
  · rintro ⟨hsigned, hunsigned⟩
    by_cases hneg : m < 0
    · have hfits : fitSigned? m = some m := fitSigned?_eq_some_iff.mpr ⟨rfl, hlo, by omega⟩
      exact (fitSigned?_eq_some_iff.mp (hsigned.symm.trans hfits)).1.symm
    · have hfits : fitUnsigned? m = some m :=
        fitUnsigned?_eq_some_iff.mpr ⟨rfl, by omega, hhi⟩
      exact (fitUnsigned?_eq_some_iff.mp (hunsigned.symm.trans hfits)).1.symm
  · rintro rfl
    exact ⟨rfl, rfl⟩

theorem same_of_float {a b : Number} (ha : a.WellFormed) (hb : b.WellFormed)
    (hfloat : (a.isFloat || b.isFloat) = true) :
    a.same b = true ↔ a.toDouble.units = b.toDouble.units := by
  rw [same, if_pos hfloat, Double.equal_iff ha.toDouble_isFinite hb.toDouble_isFinite]

/-- Two different whole numbers that are one double. -/
def Merged (v x : Number) : Prop :=
  ∃ j k : Int, v = .integer j ∧ x = .integer k ∧ j ≠ k ∧
    (Double.ofInt j).units = (Double.ofInt k).units

theorem Merged.large {v x : Number} (h : v.Merged x) :
    ∃ j k : Int, v = .integer j ∧ x = .integer k ∧ (2 ^ 53 ≤ j.natAbs ∨ 2 ^ 53 ≤ k.natAbs) := by
  obtain ⟨j, k, hv, hx, hne, hunits⟩ := h
  refine ⟨j, k, hv, hx, ?_⟩
  by_contra hsmall
  rw [not_or, Nat.not_le, Nat.not_le] at hsmall
  have hj := Double.isWhole_ofInt hsmall.1
  have hk := Double.isWhole_ofInt hsmall.2
  exact hne (hj.unique ⟨hj.finite, hunits.trans hk.units⟩)

end Number

inductive Comparison where
  | less
  | equal
  | greater
  deriving DecidableEq, Repr

namespace Comparison

def all : List Comparison := [.less, .equal, .greater]

def name : Comparison → String
  | .less => "less_than"
  | .equal => "equals"
  | .greater => "greater_than"

def document (c : Comparison) (n : Numeral) : Document :=
  .tagged c.name "value" (.token (.number n))

def condition (v : Number) : Comparison → Condition
  | .less => .lessThan v.toDouble
  | .equal => .equals (.number v)
  | .greater => .greaterThan v.toDouble

/-- The comparison of a number with `v`. -/
def accepts (v x : Number) (c : Comparison) : Bool := (c.condition v).test (.number x)

theorem spelledBy_compact (c : Comparison) {n : Numeral} {literal : List Char}
    (h : n.Spelled literal) :
    (c.document n).SpelledBy
      ("\x7b\"op\":\"" ++ c.name ++ "\",\"value\":" ++ String.ofList literal ++ "\x7d") := by
  have hblank : Blank [] := by decide
  have hname : Piece.Plain c.name := by cases c <;> decide
  have hobject := Document.Spelled.object
    (.cons hblank (spelledMember_ofString "op" (by decide) (Document.spelled_ofString c.name hname))
      (.comma hblank hblank
        (spelledMember_ofString "value" (by decide) (.token (.number h))) (.close hblank)))
  refine .of_toList hblank hobject hblank ?_
  simp

def between (a b : Int) : Comparison := if a < b then .less else if a = b then .equal else .greater

theorem between_eq_less {a b : Int} : between a b = .less ↔ a < b := by
  grind [between]

theorem between_eq_equal {a b : Int} : between a b = .equal ↔ a = b := by
  grind [between]

theorem between_eq_greater {a b : Int} : between a b = .greater ↔ b < a := by
  grind [between]

/-! Reading -/

theorem condition?_document (c : Comparison) {n : Numeral} {v : Number} (hv : n.value? = some v) :
    (c.document n).condition? = some (c.condition v) := by
  have hnumber : n.number? .strict = some v := by simp only [Numeral.number?, hv]
  have hvalue : (Document.token (.number n)).value? .strict = some (.number v) := by
    rw [Document.value?, Token.value?, hnumber]
    rfl
  cases c with
  | less | equal | greater =>
    rw [document, name, Document.condition?_tagged (fun _ => rfl) (by decide), hvalue]
    rfl

theorem ofText?_document (c : Comparison) {n : Numeral} {v : Number} (hv : n.value? = some v)
    {text : String} (ht : (c.document n).SpelledBy text) :
    Condition.ofText? text = .ok (c.condition v) := by
  have hheight : (c.document n).height ≤ Json.maxHeight := by
    simp [document, Document.tagged, Document.ofString, Document.height, Document.heightMembers,
      Json.maxHeight]
  rw [← toOption_eq_some, Condition.ofText?_spelled ht hheight, c.condition?_document hv]

/-! Which comparisons accept -/

section Numbers

variable {v x : Number}

theorem same_iff (hv : v.WellFormed) (hx : x.WellFormed) :
    x.same v = true ↔ x.toDouble.units = v.toDouble.units ∧ ¬ v.Merged x := by
  by_cases hfloat : (x.isFloat || v.isFloat) = true
  · have hapart : ¬ v.Merged x := by
      rintro ⟨j, k, rfl, rfl, -⟩
      cases hfloat
    rw [Number.same_of_float hx hv hfloat]
    exact (and_iff_left hapart).symm
  · cases v with
    | float y => simp [Number.isFloat] at hfloat
    | integer j =>
      cases x with
      | float y => simp [Number.isFloat] at hfloat
      | integer k =>
        rw [Number.same_integer_iff hx]
        constructor
        · rintro rfl
          refine ⟨rfl, ?_⟩
          rintro ⟨i, l, ⟨⟩, ⟨⟩, hne, -⟩
          exact hne rfl
        · rintro ⟨hunits, hapart⟩
          by_contra hne
          exact hapart ⟨j, k, rfl, rfl, Ne.symm hne, hunits.symm⟩

/-- The comparison that accepts is that of the doubles, if the numbers are told apart as doubles
where they are different. -/
theorem accepts_iff (hv : v.WellFormed) (hx : x.WellFormed) {c : Comparison} :
    accepts v x c = true ↔ between x.toDouble.units v.toDouble.units = c ∧ ¬ v.Merged x := by
  have hmerged : v.Merged x → x.toDouble.units = v.toDouble.units := by
    rintro ⟨j, k, rfl, rfl, -, hunits⟩
    exact hunits.symm
  have hapart : x.toDouble.units ≠ v.toDouble.units → ¬ v.Merged x := mt hmerged
  cases c with
  | less =>
    rw [between_eq_less, accepts, condition]
    refine (Double.less_iff hx.toDouble_isFinite hv.toDouble_isFinite).trans ?_
    exact (and_iff_left_of_imp fun hlt => hapart (Int.ne_of_lt hlt)).symm
  | equal =>
    rw [between_eq_equal]
    exact same_iff hv hx
  | greater =>
    rw [between_eq_greater, accepts, condition]
    refine (Double.less_iff hv.toDouble_isFinite hx.toDouble_isFinite).trans ?_
    exact (and_iff_left_of_imp fun hlt => hapart (Int.ne_of_gt hlt)).symm

theorem accepts_of_merged (hv : v.WellFormed) (hx : x.WellFormed) (h : v.Merged x)
    (c : Comparison) : accepts v x c = false := by
  rw [← Bool.not_eq_true, accepts_iff hv hx]
  exact fun hc => hc.2 h

theorem accepts_of_apart (hv : v.WellFormed) (hx : x.WellFormed) (h : ¬ v.Merged x) :
    accepts v x = fun c => c == between x.toDouble.units v.toDouble.units := by
  funext c
  rw [Bool.eq_iff_iff, accepts_iff hv hx, beq_iff_eq, eq_comm (a := c)]
  exact and_iff_left h

theorem existsUnique_accepts_iff (hv : v.WellFormed) (hx : x.WellFormed) :
    (∃! c, accepts v x c = true) ↔ ¬ v.Merged x := by
  constructor
  · rintro ⟨c, hc, -⟩
    exact ((accepts_iff hv hx).mp hc).2
  · intro h
    refine ⟨_, (accepts_iff hv hx).mpr ⟨rfl, h⟩, ?_⟩
    intro d hd
    exact ((accepts_iff hv hx).mp hd).1.symm

/-! Tables -/

theorem countP_all_of_merged (hv : v.WellFormed) (hx : x.WellFormed) (h : v.Merged x) :
    all.countP (accepts v x) = 0 := by
  rw [List.countP_eq_zero]
  intro c _
  rw [accepts_of_merged hv hx h c]
  exact Bool.false_ne_true

theorem countP_all_of_apart (hv : v.WellFormed) (hx : x.WellFormed) (h : ¬ v.Merged x) :
    all.countP (accepts v x) = 1 := by
  rw [accepts_of_apart hv hx h]
  cases between x.toDouble.units v.toDouble.units <;> rfl

theorem countP_rules {t : Table}
    (h : (t.rules.map (·.condition)).Perm (all.map (condition v))) (x : Number) :
    (t.rules.countP fun r => r.condition.test (.number x)) = all.countP (accepts v x) := by
  have hperm := h.countP_eq fun c => c.test (.number x)
  rw [List.countP_map, List.countP_map] at hperm
  exact hperm

theorem choice_eq_none_iff {t : Table} {x : Json} :
    t.choice x = none ↔ (t.rules.countP fun r => r.condition.test x) = 0 := by
  rw [Table.choice, List.findIdx?_eq_none_iff, List.countP_eq_zero]
  simp

end Numbers

/-- From the three objects that ask for a comparison with one numeral, however they are spaced, the
three comparisons with its number are read. Exactly one of these accepts a number, unless this is a
different whole number that is the same double, which takes 2^53 or more; then none accepts. In a
table of the three in any order, with any actions, exactly one rule matches a number, or for such a
number none, and only then the table falls through to its fallback. -/
theorem three_way_exclusive {n : Numeral} {v : Number} (hv : n.value? = some v) :
    (∀ (c : Comparison) (text : String), (c.document n).SpelledBy text →
      Condition.ofText? text = .ok (c.condition v)) ∧
    ∀ x : Number, x.WellFormed →
      ((∃! c : Comparison, (c.condition v).test (.number x) = true) ↔ ¬ v.Merged x) ∧
      (v.Merged x →
        (∀ c : Comparison, (c.condition v).test (.number x) = false) ∧
        ∃ j k : Int, v = .integer j ∧ x = .integer k ∧ (2 ^ 53 ≤ j.natAbs ∨ 2 ^ 53 ≤ k.natAbs)) ∧
      ∀ t : Table, (t.rules.map (·.condition)).Perm (all.map (condition v)) →
        (¬ v.Merged x → (t.rules.countP fun r => r.condition.test (.number x)) = 1) ∧
        (v.Merged x → (t.rules.countP fun r => r.condition.test (.number x)) = 0) ∧
        (t.choice (.number x) = none ↔ v.Merged x) := by
  have hwell : v.WellFormed := Numeral.value?_wellFormed hv
  refine ⟨fun c text ht => c.ofText?_document hv ht, ?_⟩
  intro x hx
  refine ⟨existsUnique_accepts_iff hwell hx, ?_, ?_⟩
  · intro h
    exact ⟨accepts_of_merged hwell hx h, h.large⟩
  · intro t ht
    rw [choice_eq_none_iff, countP_rules ht x]
    refine ⟨countP_all_of_apart hwell hx, countP_all_of_merged hwell hx, ?_⟩
    constructor
    · intro hzero
      by_contra hapart
      rw [countP_all_of_apart hwell hx hapart] at hzero
      exact Nat.one_ne_zero hzero
    · exact countP_all_of_merged hwell hx

/-- The three around 2^53, on the whole number before it. -/
def aroundLimit : Table where
  rules := [⟨.greaterThan (.ofInt (2 ^ 53)), .stringify⟩,
    ⟨.lessThan (.ofInt (2 ^ 53)), .negate⟩, ⟨.equals (Number.ofInt (2 ^ 53)), .identity⟩]
  fallback := none

theorem aroundLimit_exclusive :
    (Numeral.ofInt (2 ^ 53)).value? = some (.integer (2 ^ 53)) ∧
    Condition.ofText? "\x7b \"op\" : \"less_than\", \"value\": 9007199254740992\x7d" =
      .ok (.lessThan (.ofInt (2 ^ 53))) ∧
    (∃! c : Comparison,
      (c.condition (.integer (2 ^ 53))).test (Number.ofInt (2 ^ 53 - 1)) = true) ∧
    (aroundLimit.rules.countP fun r => r.condition.test (Number.ofInt (2 ^ 53 - 1))) = 1 := by
  have hvalue : (Numeral.ofInt (2 ^ 53)).value? = some (.integer (2 ^ 53)) :=
    Numeral.value?_ofInt (by decide)
  have hblank : Blank [] := by decide
  have hspace : Blank [' '] := by decide
  have hnumeral : (Document.token (.number (.ofInt (2 ^ 53)))).Spelled _ :=
    .token (.number (.mk (Numeral.ofInt_proper (2 ^ 53)) .none))
  have hobject := Document.Spelled.object
    (.cons hspace (.mk (Piece.spelledAll_ofString (by decide : Piece.Plain "op")) hspace hspace
        (Document.spelled_ofString "less_than" (by decide)))
      (.comma hblank hspace
        (.mk (Piece.spelledAll_ofString (by decide : Piece.Plain "value")) hblank hspace hnumeral)
        (.close hblank)))
  have hapart : ¬ (Number.integer (2 ^ 53)).Merged (.integer (2 ^ 53 - 1)) := by
    rintro ⟨j, k, ⟨⟩, ⟨⟩, -, hunits⟩
    exact absurd hunits (by decide +kernel)
  obtain ⟨hread, htest⟩ := three_way_exclusive hvalue
  obtain ⟨hunique, -, htable⟩ := htest (.integer (2 ^ 53 - 1)) (by decide)
  refine ⟨hvalue, ?_, hunique.mpr hapart, (htable aroundLimit ?_).1 hapart⟩
  · exact hread .less _ (.of_toList hblank hobject hblank (by decide +kernel))
  · exact .trans (.swap ..) (.cons _ (.swap ..))

/-- 2^53 + 1 is no double: as a bound it is 2^53, which is neither less nor greater than itself, but
is not equal to the whole number. -/
theorem odd_beyond_limit_falls_through :
    Condition.ofText? "\x7b\"op\":\"less_than\",\"value\":9007199254740993\x7d" =
      .ok (.lessThan (.ofInt (2 ^ 53 + 1))) ∧
    Condition.ofText? "\x7b\"op\":\"equals\",\"value\":9007199254740993\x7d" =
      .ok (.equals (Number.ofInt (2 ^ 53 + 1))) ∧
    Condition.ofText? "\x7b\"op\":\"greater_than\",\"value\":9007199254740993\x7d" =
      .ok (.greaterThan (.ofInt (2 ^ 53 + 1))) ∧
    Condition.test (.lessThan (.ofInt (2 ^ 53 + 1))) (Number.ofInt (2 ^ 53)) = false ∧
    Condition.test (.equals (Number.ofInt (2 ^ 53 + 1))) (Number.ofInt (2 ^ 53)) = false ∧
    Condition.test (.greaterThan (.ofInt (2 ^ 53 + 1))) (Number.ofInt (2 ^ 53)) = false := by
  have hvalue : (Numeral.ofInt (2 ^ 53 + 1)).value? = some (.integer (2 ^ 53 + 1)) :=
    Numeral.value?_ofInt (by decide)
  have hspelled := (.mk (Numeral.ofInt_proper (2 ^ 53 + 1)) .none :
    (Numeral.ofInt (2 ^ 53 + 1)).Spelled _)
  have hread := fun c : Comparison => c.ofText?_document hvalue (c.spelledBy_compact hspelled)
  have htext : String.ofList ((Numeral.ofInt (2 ^ 53 + 1)).mantissaText ++ []) =
      "9007199254740993" := by decide +kernel
  rw [htext] at hread
  refine ⟨hread .less, hread .equal, hread .greater, ?_⟩
  exact ⟨by decide +kernel, by decide +kernel, by decide +kernel⟩

end Comparison

end FirstMatch
