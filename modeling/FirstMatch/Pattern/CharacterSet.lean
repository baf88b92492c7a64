import FirstMatch.Pattern.Escape

/-!
Sets of characters in brackets: characters, ranges, sets by name, sets within sets, and operations
on sets. Where bytes are matched a set must not hold any byte beyond ASCII, and so nothing in it may
be negated.
-/

namespace FirstMatch.Pattern

/-- A bracket that is not closed yet: how deep the left side of its last operation is nested, if it
has one, and how many members it has since, and how deep these are nested. -/
structure OpenSet where
  left : Option Nat
  size : Nat
  deepest : Nat
  deriving DecidableEq, Repr

namespace OpenSet

def start (size : Nat) : OpenSet := ⟨none, size, 0⟩

def add (s : OpenSet) (depth : Nat) : OpenSet :=
  { s with size := s.size + 1, deepest := max s.deepest depth }

def depth (s : OpenSet) : Nat :=
  let union := if 1 < s.size then s.deepest + 1 else s.deepest
  match s.left with
  | none => union
  | some left => max left union + 1

def operate (s : OpenSet) : OpenSet := ⟨some s.depth, 0, 0⟩

end OpenSet

def allowsNegation (m : Modes) (negated : Bool) : Bool := m.unicode || !negated

def allowsMembers (m : Modes) (size : Nat) : Bool := size == 0 || !(m.unicode && m.caseless)

/-- Goes behind an opening bracket: a circumflex negates the set, hyphens stand for themselves, and
so does a closing bracket that comes first. -/
def openSet? (m : Modes) (cs : List Char) : Option (OpenSet × List Char) :=
  let cs := m.skip cs
  let negated := cs.head? == some '^'
  let cs := if negated then m.skip (cs.drop 1) else cs
  let (size, rest) := match hyphens 0 cs cs with
    | (0, ']' :: rest) => (1, rest)
    | (count, rest) => (count, rest)
  if allowsNegation m negated && allowsMembers m size then some (.start size, rest) else none
where
  hyphens (count : Nat) : List Char → List Char → Nat × List Char
    | _ :: fuel, '-' :: rest => hyphens (count + 1) fuel (m.skip rest)
    | _, cs => (count, cs)

def setNames : List String :=
  ["alnum", "alpha", "ascii", "blank", "cntrl", "digit", "graph", "lower", "print", "punct",
    "space", "upper", "word", "xdigit"]

def namedSet? : List Char → Option (Bool × List Char)
  | ':' :: rest =>
    let negated := rest.head? == some '^'
    let rest := if negated then rest.drop 1 else rest
    match rest.dropWhile (· != ':') with
    | ':' :: ']' :: after =>
      if setNames.contains (String.ofList (rest.takeWhile (· != ':'))) then some (negated, after)
      else none
    | _ => none
  | _ => none

def setAtom? (m : Modes) : List Char → Option (Atom × List Char)
  | [] => none
  | '\\' :: rest => escaped? m rest
  | c :: rest => some (.literal c false, rest)

def isMember (m : Modes) : Atom → Bool
  | .literal c _ => if m.unicode then !m.caseless else c ≤ '\x7f'
  | .kind negated => (Atom.kind negated).isKnown m
  | .anchor => false
  | .boundary => false

/-- A range between two characters, or a single member. A hyphen before a closing bracket or
before another hyphen makes no range. -/
def setRange? (m : Modes) (cs : List Char) : Option (List Char) := do
  let (first, rest) ← setAtom? m cs
  if !isMember m first then none
  let rest := m.skip rest
  match rest with
  | '-' :: after =>
    if m.peek? after == some ']' || m.peek? after == some '-' then return rest
    else
      let (last, rest) ← setAtom? m (m.skip after)
      if !isMember m last then none
      match first, last with
      | .literal a _, .literal b _ => if a ≤ b then return rest else none
      | _, _ => none
  | _ => return rest

/-- Reads to the end of the outermost set, in at most as many steps as the fuel is long. Gives how
deep the set is nested, and the text after it. -/
def closeSets? (m : Modes) : List Char → OpenSet → List OpenSet → List Char →
    Option (Nat × List Char)
  | [], _, _, _ => none
  | _ :: fuel, s, outer, cs =>
    match m.skip cs with
    | [] => none
    | '[' :: rest =>
      match namedSet? rest with
      | some (negated, rest) =>
        if allowsNegation m negated && allowsMembers m 1 then
          closeSets? m fuel (s.add 0) outer rest
        else none
      | none => do
        let (inner, rest) ← openSet? m rest
        closeSets? m fuel inner (s :: outer) rest
    | ']' :: rest =>
      match outer with
      | [] => some (s.depth + 1, rest)
      | around :: outer => closeSets? m fuel (around.add (s.depth + 1)) outer rest
    | '&' :: '&' :: rest => closeSets? m fuel s.operate outer rest
    | '-' :: '-' :: rest => closeSets? m fuel s.operate outer rest
    | '~' :: '~' :: rest => closeSets? m fuel s.operate outer rest
    | cs => do closeSets? m fuel (s.add 0) outer (← setRange? m cs)

def set? (m : Modes) (cs : List Char) : Option (Nat × List Char) := do
  let (s, rest) ← openSet? m cs
  closeSets? m ('[' :: cs) s [] rest

end FirstMatch.Pattern
