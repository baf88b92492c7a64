/-!
Text without the control sequences for a terminal. A sequence starts with an escape and is not
shown; how it goes on depends on what follows the escape. Blanks, tabs and line ends that stand
inside a sequence are shown all the same, and so is the visible text right after them: only with the
next invisible character does the sequence go on.
-/

namespace FirstMatch.Text

/-- What a character belongs to. -/
inductive Sequence where
  | none
  | escape
  | intermediate
  | parameters
  | device
  | deviceParameters
  | deviceIntermediate
  | message
  | command
  deriving DecidableEq, Repr

def isLayout (c : Char) : Bool := c == '\t' || c == '\n' || c == '\x0c' || c == '\r'

def isVisible (c : Char) : Bool := isLayout c || ' ' ≤ c && c != '\x7f'

def endsMessage (c : Char) : Bool := (String.utf8EncodeChar c).contains 0x9c

namespace Sequence

def next (s : Sequence) (c : Char) : Sequence :=
  match s with
  | none => none
  | escape =>
    if c ≤ '/' then intermediate
    else if c = '[' then parameters
    else if c = ']' then command
    else if c = 'P' then device
    else if c = 'X' ∨ c = '^' ∨ c = '_' then message
    else if c ≤ '~' then none else escape
  | intermediate => if '0' ≤ c ∧ c ≤ '~' then none else intermediate
  | parameters => if '@' ≤ c ∧ c ≤ '~' then none else parameters
  | device =>
    if c ≤ '/' then deviceIntermediate
    else if c ≤ '?' then deviceParameters
    else if c ≤ '~' then message else device
  | deviceParameters =>
    if c ≤ '/' then deviceIntermediate
    else if c ≤ ';' then deviceParameters
    else if c ≤ '~' then message else deviceParameters
  | deviceIntermediate => if '0' ≤ c ∧ c ≤ '~' then message else deviceIntermediate
  | message => if endsMessage c then none else message
  | command => command

def showsLayout : Sequence → Bool
  | none | escape | intermediate | parameters => true
  | _ => false

def step (s : Sequence) (c : Char) : Sequence × Bool :=
  if c = '\x1b' then (escape, false)
  else if c = '\x18' ∨ c = '\x1a' then (none, false)
  else if c < ' ' then
    if s = command ∧ c = '\x07' then (none, false) else (s, isLayout c && s.showsLayout)
  else if c = '\x7f' then (s, false)
  else (s.next c, s = none)

/-- The visible characters. After a visible character all visible characters follow, and one
beyond ASCII ends the sequence in which they stand. -/
def visible (s : Sequence) (showing : Bool) : List Char → List Char
  | [] => []
  | c :: rest =>
    if showing && isVisible c then c :: visible (if '\x7f' < c then none else s) true rest
    else
      let (s, shown) := s.step c
      if shown then c :: visible s true rest else visible s false rest

end Sequence

def visible (text : String) : String := String.ofList (Sequence.none.visible false text.toList)

end FirstMatch.Text
