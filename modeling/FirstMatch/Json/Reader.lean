import FirstMatch.Json.Numeral

/-!
Reading JSON from left to right; the first fault met ends the reading. A reader of a richer
format is built from the same parts and may refuse what it reads for reasons of its own.

A value whose meaning does not matter is read leniently: it may nest as deep as it likes, halves
of surrogate pairs and numbers too large are let pass, and some faults have other names.
-/

namespace FirstMatch

inductive ReadError (ε : Type) where
  | fault (fault : Fault)
  | refused (reason : ε)
  deriving DecidableEq, Repr

/-- Reads a part of the text and gives what it stands for and the text after it. -/
abbrev Reader (ε α : Type) := List Char → Except (ReadError ε) (α × List Char)

inductive Strictness where
  | strict
  | lenient
  deriving DecidableEq, Repr

namespace Strictness

def endInNumeral : Strictness → Fault
  | strict => .endInValue
  | lenient => .invalidNumber

def commaBracket : Strictness → Fault
  | strict => .trailingComma
  | lenient => .expectedValue

def commaBrace : Strictness → Fault
  | strict => .trailingComma
  | lenient => .keyNotString

def commaEnd : Strictness → Fault
  | strict => .endInValue
  | lenient => .endInObject

end Strictness

namespace Reader

variable {ε α σ : Type}

def fail (fault : Fault) : Except (ReadError ε) α := .error (.fault fault)

def refuse (reason : ε) : Except (ReadError ε) α := .error (.refused reason)

def isBlank (c : Char) : Bool := c == ' ' || c == '\t' || c == '\n' || c == '\r'

def skipBlanks (text : List Char) : List Char := text.dropWhile isBlank

def finish (text : List Char) : Except (ReadError ε) Unit :=
  if (skipBlanks text).isEmpty then .ok () else fail .trailingCharacters

def all (read : Reader ε α) (text : List Char) : Except (ReadError ε) α := do
  let (x, rest) ← read text
  finish rest
  return x

def word (value : α) : List Char → Reader ε α
  | [], text => .ok (value, text)
  | _ :: _, [] => fail .endInValue
  | c :: letters, d :: text => if c = d then word value letters text else fail .expectedIdent

/-! Numerals -/

def digits (mode : Strictness) : Reader ε (List Char) := fun text =>
  match text.takeWhile Char.isDigit with
  | [] => fail (if text.isEmpty then mode.endInNumeral else .invalidNumber)
  | c :: run => .ok (c :: run, text.dropWhile Char.isDigit)

def whole (mode : Strictness) : Reader ε (List Char)
  | '0' :: rest =>
    if (rest.head?.map Char.isDigit).getD false then fail .invalidNumber else .ok (['0'], rest)
  | text => digits mode text

def fraction (mode : Strictness) : Reader ε (Option (List Char))
  | '.' :: rest => do
    let (run, rest) ← digits mode rest
    return (some run, rest)
  | text => .ok (none, text)

def exponent (mode : Strictness) : Reader ε (Option (Bool × List Char))
  | c :: rest =>
    if c = 'e' ∨ c = 'E' then do
      let (negative, rest) := match rest with
        | '-' :: rest => (true, rest)
        | '+' :: rest => (false, rest)
        | rest => (false, rest)
      let (run, rest) ← digits mode rest
      return (some (negative, run), rest)
    else .ok (none, c :: rest)
  | [] => .ok (none, [])

def numeral (mode : Strictness) : Reader ε Numeral := fun text => do
  let (negative, rest) := match text with
    | '-' :: rest => (true, rest)
    | rest => (false, rest)
  let (whole, rest) ← whole mode rest
  let (fraction, rest) ← fraction mode rest
  let (exponent, rest) ← exponent mode rest
  return (⟨negative, whole, fraction, exponent⟩, rest)

def number (mode : Strictness) : Reader ε Number := fun text => do
  let (numeral, rest) ← numeral mode text
  match numeral.value?, mode with
  | some n, _ => return (n, rest)
  | none, .strict => fail .numberOutOfRange
  | none, .lenient => return (.integer 0, rest)

/-! Strings -/

def hexDigit? (c : Char) : Option Nat :=
  if '0' ≤ c ∧ c ≤ '9' then some (c.toNat - '0'.toNat)
  else if 'a' ≤ c ∧ c ≤ 'f' then some (c.toNat - 'a'.toNat + 10)
  else if 'A' ≤ c ∧ c ≤ 'F' then some (c.toNat - 'A'.toNat + 10)
  else none

/-- Four hexadecimal digits. With less than four bytes left, the string counts as unfinished,
whatever they are. -/
def codeUnit (text : List Char) : Except (ReadError ε) (Nat × List Char) :=
  if (text.take 4).foldl (fun n c => n + c.utf8Size) 0 < 4 then fail .endInString
  else
    match (text.take 4).mapM hexDigit? with
    | some ds => .ok (ds.foldl (fun n d => n * 16 + d) 0, text.drop 4)
    | none => fail .invalidEscape

def isHighSurrogate (n : Nat) : Bool := 0xD800 ≤ n && n ≤ 0xDBFF

def isLowSurrogate (n : Nat) : Bool := 0xDC00 ≤ n && n ≤ 0xDFFF

def joinSurrogates (high low : Nat) : Char :=
  Char.ofNat ((high - 0xD800) * 0x400 + (low - 0xDC00) + 0x10000)

def lowSurrogate (high : Nat) : Reader ε Char
  | [] => fail .endInString
  | ['\\'] => fail .endInString
  | '\\' :: 'u' :: rest => do
    let (low, rest) ← codeUnit rest
    if isLowSurrogate low then return (joinSurrogates high low, rest) else fail .loneSurrogate
  | _ => fail .unfinishedPair

def numbered (mode : Strictness) : Reader ε Char := fun text => do
  let (n, rest) ← codeUnit text
  match mode with
  | .lenient => return (Char.ofNat n, rest)
  | .strict =>
    if isLowSurrogate n then fail .loneSurrogate
    else if isHighSurrogate n then lowSurrogate n rest
    else return (Char.ofNat n, rest)

def escape? : Char → Option Char
  | '"' => some '"'
  | '\\' => some '\\'
  | '/' => some '/'
  | 'b' => some '\x08'
  | 'f' => some '\x0c'
  | 'n' => some '\n'
  | 'r' => some '\r'
  | 't' => some '\t'
  | _ => none

def escaped (mode : Strictness) : Reader ε Char
  | [] => fail .endInString
  | c :: rest =>
    match escape? c with
    | some d => .ok (d, rest)
    | none => if c = 'u' then numbered mode rest else fail .invalidEscape

/-- The rest of a string whose opening quote has been read, in at most as many steps as the fuel
is long. The text itself is long enough, since each step reads a character. -/
def stringBody (mode : Strictness) : List Char → Reader ε (List Char)
  | _, [] => fail .endInString
  | _, '"' :: rest => .ok ([], rest)
  | [], _ => fail .endInString
  | _ :: fuel, '\\' :: rest => do
    let (c, rest) ← escaped mode rest
    let (cs, rest) ← stringBody mode fuel rest
    return (c :: cs, rest)
  | _ :: fuel, c :: rest =>
    if c.toNat < 0x20 then fail .controlCharacter
    else do
      let (cs, rest) ← stringBody mode fuel rest
      return (c :: cs, rest)

def string (mode : Strictness) : Reader ε String := fun text => do
  let (cs, rest) ← stringBody mode text text
  return (String.ofList cs, rest)

/-! Lists and objects -/

/-- Goes to the first item of a list whose opening bracket has been read, or past its end. -/
def firstItem : Reader ε Bool := fun text =>
  match skipBlanks text with
  | [] => fail .endInList
  | ']' :: rest => .ok (false, rest)
  | text => .ok (true, text)

def nextItem (mode : Strictness) : Reader ε Bool := fun text =>
  match skipBlanks text with
  | [] => fail .endInList
  | ']' :: rest => .ok (false, rest)
  | ',' :: rest =>
    match skipBlanks rest with
    | [] => fail .endInValue
    | ']' :: _ => fail mode.commaBracket
    | rest => .ok (true, rest)
  | _ => fail .expectedCommaOrBracket

/-- The items after one item, at most as many as the fuel is long. The text itself is long
enough, since each item has a comma before it. -/
def moreItems (mode : Strictness) (read : Reader ε α) : List Char → Reader ε (List α)
  | [], text => do
    let (more, rest) ← nextItem mode text
    if more then fail .endInList else return ([], rest)
  | _ :: fuel, text => do
    let (more, rest) ← nextItem mode text
    if more then
      let (x, rest) ← read rest
      let (xs, rest) ← moreItems mode read fuel rest
      return (x :: xs, rest)
    else return ([], rest)

def items (mode : Strictness) (read : Reader ε α) : Reader ε (List α) := fun text => do
  let (more, rest) ← firstItem text
  if more then
    let (x, rest) ← read rest
    let (xs, rest) ← moreItems mode read rest rest
    return (x :: xs, rest)
  else return ([], rest)

def firstMember : Reader ε Bool := fun text =>
  match skipBlanks text with
  | [] => fail .endInObject
  | '}' :: rest => .ok (false, rest)
  | '"' :: rest => .ok (true, rest)
  | _ => fail .keyNotString

def nextMember (mode : Strictness) : Reader ε Bool := fun text =>
  match skipBlanks text with
  | [] => fail .endInObject
  | '}' :: rest => .ok (false, rest)
  | ',' :: rest =>
    match skipBlanks rest with
    | [] => fail mode.commaEnd
    | '}' :: _ => fail mode.commaBrace
    | '"' :: rest => .ok (true, rest)
    | _ => fail .keyNotString
  | _ => fail .expectedCommaOrBrace

def colon : Reader ε Unit := fun text =>
  match skipBlanks text with
  | ':' :: rest => .ok ((), rest)
  | [] => fail .endInObject
  | _ => fail .expectedColon

/-- The members after one member, at most as many as the fuel is long. What a member means is up
to `read`, which is given the state so far and the name, and starts right after the name. -/
def moreMembers (mode : Strictness) (read : σ → String → Reader ε σ) :
    List Char → σ → Reader ε σ
  | [], state, text => do
    let (more, rest) ← nextMember mode text
    if more then fail .endInObject else return (state, rest)
  | _ :: fuel, state, text => do
    let (more, rest) ← nextMember mode text
    if more then
      let (name, rest) ← string mode rest
      let (state, rest) ← read state name rest
      moreMembers mode read fuel state rest
    else return (state, rest)

def members (mode : Strictness) (read : σ → String → Reader ε σ) (init : σ) : Reader ε σ :=
  fun text => do
    let (more, rest) ← firstMember text
    if more then
      let (name, rest) ← string mode rest
      let (state, rest) ← read init name rest
      moreMembers mode read rest state rest
    else return (init, rest)

/-! Values -/

def scalar (mode : Strictness) : Reader ε Json
  | [] => fail .endInValue
  | 'n' :: rest => word .null ['u', 'l', 'l'] rest
  | 't' :: rest => word (.bool true) ['r', 'u', 'e'] rest
  | 'f' :: rest => word (.bool false) ['a', 'l', 's', 'e'] rest
  | '"' :: rest => do
    let (s, rest) ← string mode rest
    return (.string s, rest)
  | c :: rest =>
    if c = '-' ∨ c.isDigit then do
      let (n, rest) ← number mode (c :: rest)
      return (.number n, rest)
    else fail .expectedValue

/-- Adds a member to those read so far, the last one first. -/
def member (read : Reader ε Json) (before : List (String × Json)) (name : String) :
    Reader ε (List (String × Json)) := fun text => do
  let ((), rest) ← colon text
  let (value, rest) ← read rest
  return ((name, value) :: before, rest)

/-- A value within so many brackets, the members of its objects as they are written. -/
def value (mode : Strictness) : Nat → Reader ε Json
  | 0, text =>
    match skipBlanks text with
    | '[' :: _ => fail .tooDeep
    | '{' :: _ => fail .tooDeep
    | text => scalar mode text
  | depth + 1, text =>
    match skipBlanks text with
    | '[' :: rest => do
      let (xs, rest) ← items mode (value mode depth) rest
      return (.list xs, rest)
    | '{' :: rest => do
      let (ms, rest) ← members mode (member (value mode depth)) [] rest
      return (.object ms.reverse, rest)
    | text => scalar mode text

def skip : Reader ε Unit := fun text => do
  let (_, rest) ← value .lenient text.length text
  return ((), rest)

end Reader

namespace Json

/-- How many brackets may be open at once. -/
def maxHeight : Nat := 127

def ofText? (text : String) : Except Fault Json :=
  match Reader.all (@Reader.value Empty .strict maxHeight) text.toList with
  | .ok value => .ok value.canonical
  | .error (.fault fault) => .error fault
  | .error (.refused reason) => nomatch reason

end Json

end FirstMatch
