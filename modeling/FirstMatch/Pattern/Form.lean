import FirstMatch.Pattern.CharacterSet
import FirstMatch.Text.Alphanumeric

/-!
Which texts are patterns. A pattern is read once from left to right. Of what it has been made of so
far, only how deep it is nested matters, and which items may still be repeated.
-/

namespace FirstMatch.Pattern

/-- A part of a pattern: how deep it is nested, and whether it may be repeated. -/
structure Item where
  depth : Nat
  repeatable : Bool
  deriving DecidableEq, Repr

namespace Item

def simple : Item := ⟨0, true⟩

def switch : Item := ⟨0, false⟩

end Item

/-- How deep a choice or a sequence is nested: a single part counts as itself. -/
def nested : List Nat → Nat
  | [] => 0
  | [depth] => depth
  | depths => depths.foldl max 0 + 1

/-- A group that is not closed yet, or the whole pattern: the modes in force, how deep its branches
before the last are nested, and the items of the last branch. Items and branches go backwards. -/
structure OpenGroup where
  modes : Modes
  branches : List Nat
  items : List Item
  deriving DecidableEq, Repr

namespace OpenGroup

def start (m : Modes) : OpenGroup := ⟨m, [], []⟩

def add (g : OpenGroup) (item : Item) : OpenGroup := { g with items := item :: g.items }

def branch (g : OpenGroup) : OpenGroup :=
  ⟨g.modes, nested (g.items.map Item.depth) :: g.branches, []⟩

def repeatLast? (g : OpenGroup) : Option OpenGroup :=
  match g.items with
  | ⟨depth, true⟩ :: before => some { g with items := ⟨depth + 1, true⟩ :: before }
  | _ => none

def depth (g : OpenGroup) : Nat := nested g.branch.branches

end OpenGroup

inductive Opening where
  | group (m : Modes) (name : Option String)
  | switches (m : Modes)
  deriving DecidableEq, Repr

def startsName (c : Char) : Bool := c == '_' || Text.isAlphabetic c

def continuesName (c : Char) : Bool := "_.[]".toList.contains c || Text.isAlphanumeric c

def named? (m : Modes) (cs : List Char) : Option (Opening × List Char) :=
  let name := cs.takeWhile (· != '>')
  match name, cs.drop name.length with
  | first :: more, '>' :: rest =>
    if startsName first && more.all continuesName then
      some (.group m (some (String.ofList name)), rest)
    else none
  | _, _ => none

def switched? (m : Modes) (cs : List Char) : Option (Opening × List Char) :=
  let letters := cs.takeWhile fun c => c != ':' && c != ')'
  if !areSwitches letters then none
  else
    match cs.drop letters.length with
    | ':' :: rest => some (.group (m.switchAll letters) none, rest)
    | ')' :: rest =>
      if letters.isEmpty then none else some (.switches (m.switchAll letters), rest)
    | _ => none

def opening? (m : Modes) (cs : List Char) : Option (Opening × List Char) :=
  match m.skip cs with
  | '?' :: 'P' :: '<' :: rest => named? m rest
  | '?' :: '<' :: rest => named? m rest
  | '?' :: rest => switched? m rest
  | rest => some (.group m none, rest)

def simple? (m : Modes) (c : Char) (rest : List Char) : Option (List Char) :=
  match c with
  | '\\' => do
    let (atom, rest) ← escaped? m rest
    if atom.isKnown m then return rest else none
  | '.' => if m.unicode then some rest else none
  | '^' | '$' => some rest
  | c => if (Atom.literal c false).isKnown m then some rest else none

/-- Reads a pattern to its end, in at most as many steps as the fuel is long, and says how deep it
is nested. Braces would give a count of repetitions and have no place here. -/
def depth? : List Char → OpenGroup → List OpenGroup → List String → List Char → Option Nat
  | fuel, g, outer, names, cs =>
    match g.modes.skip cs, fuel with
    | [], _ => if outer.isEmpty then some g.depth else none
    | _, [] => none
    | c :: rest, _ :: fuel =>
      match c with
      | '(' =>
        match opening? g.modes rest with
        | none => none
        | some (.switches m, rest) =>
          depth? fuel { g.add .switch with modes := m } outer names rest
        | some (.group m none, rest) => depth? fuel (.start m) (g :: outer) names rest
        | some (.group m (some name), rest) =>
          if names.contains name then none
          else depth? fuel (.start m) (g :: outer) (name :: names) rest
      | ')' =>
        match outer with
        | [] => none
        | around :: outer => depth? fuel (around.add ⟨g.depth + 1, true⟩) outer names rest
      | '|' => depth? fuel g.branch outer names rest
      | '[' => do
        let (depth, rest) ← set? g.modes rest
        depth? fuel (g.add ⟨depth, true⟩) outer names rest
      | '?' | '*' | '+' => do
        let rest := if rest.head? == some '?' then rest.drop 1 else rest
        depth? fuel (← g.repeatLast?) outer names rest
      | '{' => none
      | c => do depth? fuel (g.add .simple) outer names (← simple? g.modes c rest)

def depthLimit : Nat := 250

def isPattern (cs : List Char) : Bool :=
  (depth? cs (.start .standard) [] [] cs).any (· ≤ depthLimit)

end FirstMatch.Pattern
