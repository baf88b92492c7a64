import FirstMatch.Text.Blank

/-!
The modes in which a pattern is read. A pattern switches them with letters, for the rest of the
group in which it does so or for a group of its own.
-/

namespace FirstMatch.Pattern

structure Modes where
  /-- Blanks and comments have no meaning. -/
  spaced : Bool
  caseless : Bool
  unicode : Bool
  deriving DecidableEq, Repr

def skipNotes : Bool → List Char → List Char
  | _, [] => []
  | true, c :: rest => skipNotes (c != '\n') rest
  | false, c :: rest =>
    if Text.isBlank c then skipNotes false rest
    else if c = '#' then skipNotes true rest
    else c :: rest

/-- The first character that is no blank and does not start a comment; after the start of one it
is the first character that is no blank. -/
def significant? : Bool → List Char → Option Char
  | _, [] => none
  | noted, c :: rest =>
    if Text.isBlank c then significant? noted rest
    else if c = '#' ∧ noted = false then significant? true rest
    else some c

namespace Modes

def standard : Modes := ⟨false, false, true⟩

def skip (m : Modes) (cs : List Char) : List Char := if m.spaced then skipNotes false cs else cs

def peek? (m : Modes) (cs : List Char) : Option Char :=
  if m.spaced then (significant? false cs).or cs.head? else cs.head?

def switch (m : Modes) (on : Bool) : Char → Modes
  | 'x' => { m with spaced := on }
  | 'i' => { m with caseless := on }
  | 'u' => { m with unicode := on }
  | _ => m

def switchAll (m : Modes) (letters : List Char) : Modes :=
  let off := (letters.dropWhile (· != '-')).drop 1
  off.foldl (·.switch false ·) ((letters.takeWhile (· != '-')).foldl (·.switch true ·) m)

end Modes

/-- Whether letters are switches: each letter at most once, and among them at most one hyphen,
which is not last. -/
def areSwitches (letters : List Char) : Bool :=
  letters.all ("-imsUuRx".toList.contains ·) && letters.eraseDups == letters &&
    letters.getLast? != some '-'

end FirstMatch.Pattern
