import FirstMatch.Pattern.Mode

/-!
What patterns write with a backslash. Characters with a property are never known, and neither are
references to groups.
-/

namespace FirstMatch.Pattern

inductive Atom where
  | literal (c : Char) (byte : Bool)
  /-- Digits, blanks, or characters of words, or all but those. -/
  | kind (negated : Bool)
  | anchor
  | boundary
  deriving DecidableEq, Repr

namespace Atom

/-- Whether an atom is known in these modes. There are no tables of characters, so that case and
kinds are known of bytes only; and what matches no character must not match part of one. -/
def isKnown (m : Modes) : Atom → Bool
  | literal c byte => if m.unicode then !m.caseless else !byte || c ≤ '\x7f'
  | kind negated => !m.unicode && !negated
  | anchor => true
  | boundary => !m.unicode

end Atom

def hexDigit? (c : Char) : Option Nat :=
  let d := c.toLower
  if d.isDigit then some (d.toNat - '0'.toNat)
  else if 'a' ≤ d ∧ d ≤ 'f' then some (d.toNat - 'a'.toNat + 10)
  else none

def hexDigits? (m : Modes) : Nat → Nat → List Char → Option (Nat × List Char)
  | 0, n, cs => some (n, cs)
  | count + 1, n, cs =>
    match m.skip cs with
    | [] => none
    | c :: rest => do hexDigits? m count (n * 16 + (← hexDigit? c)) rest

def numbered? (m : Modes) (count : Nat) (cs : List Char) : Option (Atom × List Char) := do
  let (n, rest) ← hexDigits? m count 0 cs
  if n.isValidChar then return (.literal (Char.ofNat n) (count == 2), rest) else none

def escaped? (m : Modes) : List Char → Option (Atom × List Char)
  | [] => none
  | c :: rest =>
    match c with
    | 'x' => numbered? m 2 rest
    | 'u' => numbered? m 4 rest
    | 'U' => numbered? m 8 rest
    | 'd' | 's' | 'w' => some (.kind false, rest)
    | 'D' | 'S' | 'W' => some (.kind true, rest)
    | 'a' => some (.literal '\x07' false, rest)
    | 'f' => some (.literal '\x0c' false, rest)
    | 't' => some (.literal '\t' false, rest)
    | 'n' => some (.literal '\n' false, rest)
    | 'r' => some (.literal '\r' false, rest)
    | 'v' => some (.literal '\x0b' false, rest)
    | 'A' | 'z' => some (.anchor, rest)
    | 'b' | 'B' | '<' | '>' => some (.boundary, rest)
    | c => if c.isAlphanum || '\x7f' < c then none else some (.literal c false, rest)

end FirstMatch.Pattern
