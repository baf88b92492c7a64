import FirstMatch.Double.Basic

/-!
Arithmetic on doubles: the exact result, rounded once to the nearest value, an exact half going to
the even significand. Products and quotients go through one rounding of a fraction of units. A
double becomes a whole number by a cast that clamps, behind a test that lets only doubles through
that the cast keeps.
-/

namespace FirstMatch

/-- The whole number nearest to `num / den`; of two equally near ones the even one. -/
def roundDiv (num den : Nat) : Nat :=
  let q := num / den
  let r := num % den
  if 2 * r < den then q else if den < 2 * r then q + 1 else q + q % 2

theorem div_le_roundDiv (num den : Nat) : num / den ≤ roundDiv num den := by
  unfold roundDiv
  grind

namespace Magnitude

/-- How many low bits of a whole number lie below its leading 53. -/
def excess (n : Nat) : Nat := n.log2 - 52

theorem le_div_two_pow_excess {n : Nat} (h : excess n ≠ 0) : 2 ^ 52 ≤ n / 2 ^ excess n := by
  have hn : n ≠ 0 := by
    rintro rfl
    exact h (by decide)
  have hlog : 52 + excess n = n.log2 := by
    unfold excess at h ⊢
    omega
  rw [Nat.le_div_iff_mul_le (Nat.two_pow_pos _), ← Nat.pow_add, hlog]
  exact Nat.log2_self_le hn

def ofParts? (significand exponent : Nat) (significand_lt : significand < 2 ^ 53)
    (normal : exponent = 0 ∨ 2 ^ 52 ≤ significand) : Option Magnitude :=
  if h : exponent ≤ 2045 then some ⟨significand, exponent, significand_lt, h, normal⟩ else none

def round? (num den : Nat) : Option Magnitude :=
  let e := excess (num / den)
  let m := roundDiv num (den * 2 ^ e)
  if h : m < 2 ^ 53 then
    ofParts? m e h (by
      by_cases he : e = 0
      · exact .inl he
      · right
        calc 2 ^ 52 ≤ num / den / 2 ^ e := le_div_two_pow_excess he
          _ = num / (den * 2 ^ e) := Nat.div_div_eq_div_mul ..
          _ ≤ m := div_le_roundDiv ..)
  else ofParts? (2 ^ 52) (e + 1) (by decide) (.inr (Nat.le_refl _))

end Magnitude

namespace Double

/-- The double nearest to `num / den` units, infinite where that is too large. -/
def round (negative : Bool) (num den : Nat) : Double :=
  match Magnitude.round? num den with
  | some m => .finite negative m
  | none => .infinite negative

def ofNat (n : Nat) : Double := round false (n * Magnitude.one) 1

def ofInt (n : Int) : Double := round (n < 0) (n.natAbs * Magnitude.one) 1

/-- A sum that is exactly zero is positive, unless both terms are negative. -/
def add : Double → Double → Double
  | .finite s m, .finite t n =>
    let sum := signed s m.units + signed t n.units
    if sum = 0 then .finite (s && t) .zero else round (sum < 0) sum.natAbs 1
  | .infinite s, .infinite t => if s = t then .infinite s else .nan
  | .infinite s, .finite _ _ => .infinite s
  | .finite _ _, .infinite t => .infinite t
  | _, _ => .nan

def mul : Double → Double → Double
  | .finite s m, .finite t n => round (s != t) (m.units * n.units) Magnitude.one
  | .infinite s, .infinite t => .infinite (s != t)
  | .infinite s, .finite t n => if n.isZero then .nan else .infinite (s != t)
  | .finite s m, .infinite t => if m.isZero then .nan else .infinite (s != t)
  | _, _ => .nan

def div : Double → Double → Double
  | .finite s m, .finite t n =>
    if n.isZero then if m.isZero then .nan else .infinite (s != t)
    else round (s != t) (m.units * Magnitude.one) n.units
  | .infinite s, .finite t _ => .infinite (s != t)
  | .finite s _, .infinite t => .finite (s != t) .zero
  | _, _ => .nan

def truncate : Double → Double
  | .finite negative m => round negative (m.units / Magnitude.one * Magnitude.one) 1
  | x => x

def fraction (x : Double) : Double := x.add x.truncate.negate

/-- Between the least and the greatest number of 64 signed bits. As a double the greatest one is
2^63, which lies beyond them. -/
def inSignedRange (x : Double) : Bool :=
  (ofInt (-2 ^ 63)).atMost x && x.less (ofInt (2 ^ 63 - 1))

/-- The whole part in 64 signed bits: what lies beyond an end of the range becomes this end, and
NaN becomes 0. -/
def clamped : Double → Int
  | .nan => 0
  | .infinite negative => if negative then -2 ^ 63 else 2 ^ 63 - 1
  | .finite negative m =>
    max (-2 ^ 63) (min (signed negative (m.units / Magnitude.one)) (2 ^ 63 - 1))

def exactInt? (x : Double) : Option Int :=
  if x.fraction.equal zero && x.inSignedRange then some x.clamped else none

end Double

end FirstMatch
