import FirstMatch.Double.Shortest
import FirstMatch.Json.Basic
import FirstMatch.Json.Fault

/-!
Numbers as JSON writes them: the shape of a numeral, the number that it stands for, and the
numeral that a number is printed as.

Reading a float does not round once. The digits are gathered into a significand of 64 bits,
which is rounded; that is multiplied or divided by a rounded power of ten, and rounded again.
-/

namespace FirstMatch

structure Numeral where
  negative : Bool
  whole : List Char
  fraction : Option (List Char)
  exponent : Option (Bool × List Char)
  deriving DecidableEq, Repr

namespace Double

def tenTo (k : Nat) : Double := .ofNat (10 ^ k)

/-- Divides by `10 ^ k`, by `10 ^ 308` as long as `k` is larger and the number is not 0. -/
def shrink : Nat → Double → Nat → Double
  | 0, x, k => x.div (tenTo k)
  | fuel + 1, x, k =>
    if k ≤ 308 then x.div (tenTo k)
    else if x.isZero then x
    else shrink fuel (x.div (tenTo 308)) (k - 308)

def scale? (x : Double) : Int → Option Double
  | .ofNat k =>
    if k ≤ 308 then
      let y := x.mul (tenTo k)
      if y.isInfinite then none else some y
    else if x.isZero then some x else none
  | .negSucc k => some (shrink (k / 308 + 1) x (k + 1))

end Double

namespace Numeral

/-- Takes digits into a significand as long as it stays below 2^64; what is left stands
unread. -/
def gather : Nat → List Char → Nat × List Char
  | s, [] => (s, [])
  | s, c :: rest =>
    let t := s * 10 + (c.toNat - '0'.toNat)
    if t < 2 ^ 64 then gather t rest else (s, c :: rest)

def power (n : Numeral) : Int :=
  match n.exponent with
  | none => 0
  | some (negative, digits) => Double.signed negative (Nat.ofDigitChars 10 digits 0)

/-- The significand and the power of ten: digits of the whole part that find no room count as
tens, digits of the fraction that find no room are left out. -/
def scientific (n : Numeral) : Nat × Int :=
  let (s, beyond) := gather 0 n.whole
  let fraction := n.fraction.getD []
  let (t, dropped) := gather s fraction
  (t, beyond.length - (fraction.length - dropped.length) + n.power)

def float? (n : Numeral) : Option Double :=
  let (s, e) := n.scientific
  (Double.scale? (.ofNat s) e).map fun x => if n.negative then x.negate else x

/-- The whole number, for a numeral without fraction and exponent that fits 64 bits. Minus zero
is a float. -/
def integer? (n : Numeral) : Option Int :=
  match n.fraction, n.exponent with
  | none, none =>
    let m := Nat.ofDigitChars 10 n.whole 0
    if n.negative then if 0 < m ∧ m ≤ 2 ^ 63 then some (-m) else none
    else if m < 2 ^ 64 then some m else none
  | _, _ => none

def value? (n : Numeral) : Option Number :=
  match n.integer? with
  | some k => some (.integer k)
  | none => n.float?.map .float

def text (n : Numeral) : List Char :=
  (if n.negative then ['-'] else []) ++ n.whole ++
  (match n.fraction with
    | none => []
    | some digits => '.' :: digits) ++
  (match n.exponent with
    | none => []
    | some (negative, digits) => 'e' :: (if negative then '-' else '+') :: digits)

def ofInt (n : Int) : Numeral := ⟨n < 0, Nat.toDigits 10 n.natAbs, none, none⟩

def fractionDigits (digits : List Char) : List Char := if digits.isEmpty then ['0'] else digits

/-- A decimal with powers of ten from -5 to 15 is written in place, with a point and a digit
after it; others have one digit before the point, and no point if that is all. -/
def ofDecimal (negative : Bool) (d : Decimal) : Numeral :=
  let digits := d.significant
  match d.magnitude with
  | .ofNat k =>
    if k ≤ 15 then
      let whole := digits.take (k + 1)
      ⟨negative, whole ++ List.replicate (k + 1 - whole.length) '0',
        some (fractionDigits (digits.drop (k + 1))), none⟩
    else ⟨negative, digits.take 1, pointed digits, some (false, Nat.toDigits 10 k)⟩
  | .negSucc k =>
    if k < 5 then ⟨negative, ['0'], some (List.replicate k '0' ++ digits), none⟩
    else ⟨negative, digits.take 1, pointed digits, some (true, Nat.toDigits 10 (k + 1))⟩
where
  pointed (digits : List Char) : Option (List Char) :=
    if digits.length ≤ 1 then none else some (digits.drop 1)

def ofMagnitude (negative : Bool) (m : Magnitude) : Numeral :=
  if m.isZero then ⟨negative, ['0'], some ['0'], none⟩ else ofDecimal negative m.shortest

end Numeral

def Number.text : Number → List Char
  | .integer n => (Numeral.ofInt n).text
  | .float (.finite negative m) => (Numeral.ofMagnitude negative m).text
  | .float _ => "null".toList

end FirstMatch
