/-!
Binary floating-point numbers of 64 bits, held exactly: a finite number is a sign and a whole
number of units of 2^-1074, the least positive value. Equality and order are those of the
arithmetic standard: NaN is unequal to itself, the two zeros are equal.
-/

namespace FirstMatch

-- Powers of whole numbers are those of the core library, also where algebra has its own.
attribute [instance (high), default_instance (high + 1)] instPowNat

/-- A finite absolute value, as `significand * 2 ^ exponent` units of 2^-1074. The conditions
leave one such form for each value: the significand has 53 bits, or the exponent is least. -/
structure Magnitude where
  significand : Nat
  exponent : Nat
  significand_lt : significand < 2 ^ 53
  exponent_le : exponent ≤ 2045
  normal : exponent = 0 ∨ 2 ^ 52 ≤ significand
  deriving DecidableEq, Repr

inductive Double where
  | nan
  | infinite (negative : Bool)
  | finite (negative : Bool) (magnitude : Magnitude)
  deriving DecidableEq, Repr

namespace Magnitude

def zero : Magnitude := ⟨0, 0, by decide, by decide, .inl rfl⟩

instance : Inhabited Magnitude := ⟨zero⟩

def units (m : Magnitude) : Nat := m.significand * 2 ^ m.exponent

def one : Nat := 2 ^ 1074

def isZero (m : Magnitude) : Bool := m.significand == 0

end Magnitude

namespace Double

def zero : Double := .finite false .zero

instance : Inhabited Double := ⟨zero⟩

def isFinite : Double → Bool
  | .finite _ _ => true
  | _ => false

def isInfinite : Double → Bool
  | .infinite _ => true
  | _ => false

def isZero : Double → Bool
  | .finite _ m => m.isZero
  | _ => false

def negate : Double → Double
  | .nan => .nan
  | .infinite negative => .infinite !negative
  | .finite negative m => .finite (!negative) m

def signed (negative : Bool) (n : Nat) : Int := if negative then -n else n

/-- The value of a finite number in units of 2^-1074, and 0 for all else. -/
def units : Double → Int
  | .finite negative m => signed negative m.units
  | _ => 0

def equal : Double → Double → Bool
  | .finite s m, .finite t n => (.finite s m : Double).units == (.finite t n : Double).units
  | .infinite s, .infinite t => s == t
  | _, _ => false

/-- Numeric order, false wherever NaN takes part. -/
def less : Double → Double → Bool
  | .finite s m, .finite t n =>
    decide ((.finite s m : Double).units < (.finite t n : Double).units)
  | .infinite s, .finite _ _ => s
  | .finite _ _, .infinite t => !t
  | .infinite s, .infinite t => s && !t
  | _, _ => false

def atMost (x y : Double) : Bool := x.less y || x.equal y

end Double

end FirstMatch
