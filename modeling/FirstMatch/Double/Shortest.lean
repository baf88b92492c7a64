import FirstMatch.Double.Arithmetic

/-!
The shortest decimal of a finite double: of the decimals that round to it, one with the fewest
digits, and of those the nearest. The decimals that round to a value form an interval, which
reaches half way to its neighbours; the ends belong to it when the significand is even.
-/

namespace FirstMatch

structure Decimal where
  digits : Nat
  exponent : Int
  deriving DecidableEq, Repr

namespace Magnitude

/-- The lower end of the interval, in quarters of a unit. Below a power of two the neighbour is
only half as far away. -/
def lower (m : Magnitude) : Nat :=
  4 * m.units - (if m.significand = 2 ^ 52 ∧ m.exponent ≠ 0 then 1 else 2) * 2 ^ m.exponent

def upper (m : Magnitude) : Nat := 4 * m.units + 2 * 2 ^ m.exponent

def quarters (d : Decimal) : Nat × Nat :=
  (d.digits * 10 ^ d.exponent.toNat * (4 * one), 10 ^ (-d.exponent).toNat)

def covers (m : Magnitude) (d : Decimal) : Bool :=
  let (num, den) := quarters d
  if m.significand % 2 = 0 then m.lower * den ≤ num && num ≤ m.upper * den
  else m.lower * den < num && num < m.upper * den

def steps (m : Magnitude) (p : Int) : Nat × Nat :=
  (m.units * 10 ^ (-p).toNat, one * 10 ^ p.toNat)

/-- The decimal with last place `10 ^ p` that rounds to this value, if there is one: the nearer
of the two neighbours, or else the only one that rounds to it. -/
def atPlace? (m : Magnitude) (p : Int) : Option Decimal :=
  let (num, den) := m.steps p
  let below : Decimal := ⟨num / den, p⟩
  let above : Decimal := ⟨num / den + 1, p⟩
  match m.covers below, m.covers above with
  | true, true => some ⟨roundDiv num den, p⟩
  | true, false => some below
  | false, true => some above
  | false, false => none

/-- The number of digits before the point, counted downwards from 0 for the zeros after it: the
least `k` with the value below `10 ^ k`. -/
def places (m : Magnitude) : Int :=
  (Nat.toDigits 10 (m.units * 10 ^ 400 / one)).length - 400

/-- The shortest decimal of a value other than 0. Seventeen digits are always enough. -/
def shortest (m : Magnitude) : Decimal :=
  ((List.range 17).findSome? fun i : Nat => m.atPlace? (m.places - 1 - i)).getD
    (let (num, den) := m.steps (m.places - 17); ⟨roundDiv num den, m.places - 17⟩)

end Magnitude

namespace Decimal

def significant (d : Decimal) : List Char :=
  ((Nat.toDigits 10 d.digits).reverse.dropWhile (· == '0')).reverse

def magnitude (d : Decimal) : Int := d.exponent + (Nat.toDigits 10 d.digits).length - 1

end Decimal

end FirstMatch
