import FirstMatch.Log.Record
import FirstMatch.Pattern.Form
import FirstMatch.Text.Float

/-!
The directives that tell how much of the log is shown. A directive is a verbosity, or says what
records it is for, with or without a verbosity after an equals sign: a target, and in brackets a
span and in braces a field, which may have a value.

Blanks around a directive belong to it. Blanks before it are not counted when its parts are told
apart, and so its parts are cut too early by as much. Places are counted in bytes, and such a cut
may fall within a character.
-/

namespace FirstMatch

inductive SettingFault where
  | unreadable
  /-- A part of a directive begins or ends within a character. -/
  | withinCharacter
  deriving DecidableEq, Repr

namespace SettingFault

def required {α : Type} : Option α → Except SettingFault α
  | some x => .ok x
  | none => .error unreadable

end SettingFault

structure FieldTest where
  name : String
  value : Option String
  deriving DecidableEq, Repr

/-- Shows records up to a verbosity, of all those whose target has a given beginning, within a
given span, and with a given field. -/
structure Directive where
  target : Option String
  span : Option String
  field : Option FieldTest
  verbosity : Nat
  deriving DecidableEq, Repr

namespace FieldTest

/-- A name, and after an equals sign a value, which is a number or a pattern. What stands after a
second equals sign does not matter. -/
def ofText? (text : String) : Option FieldTest :=
  if text.isEmpty then none
  else
    match text.splitOn "=" with
    | name :: value :: _ =>
      if Text.isFloat value.toList || Pattern.isPattern value.toList then some ⟨name, value⟩
      else none
    | _ => some ⟨text, none⟩

end FieldTest

namespace Directive

def greatest : Nat := Level.trace.verbosity

/-- A plus sign and zeros may stand before the digit. -/
def numbered? (text : String) : Option Nat :=
  let digits := match text.toList with
    | '+' :: rest => rest
    | cs => cs
  if digits.isEmpty || !digits.all Char.isDigit then none
  else
    let n := Nat.ofDigitChars 10 digits 0
    if n ≤ greatest then some n else none

def named? (text : String) : Option Nat :=
  match text.map Char.toLower with
  | "off" => some 0
  | "error" => some Level.error.verbosity
  | "warn" => some Level.warn.verbosity
  | "info" => some Level.info.verbosity
  | "debug" => some Level.debug.verbosity
  | "trace" => some Level.trace.verbosity
  | _ => none

def verbosity? (text : String) : Option Nat := (numbered? text).or (named? text)

def body (text : String) : List Char :=
  ((text.toList.dropWhile Text.isBlank).reverse.dropWhile Text.isBlank).reverse

def split? : Nat → List Char → Option (List Char × List Char)
  | 0, cs => some ([], cs)
  | _, [] => none
  | bytes, c :: cs =>
    if c.utf8Size ≤ bytes then
      (split? (bytes - c.utf8Size) cs).map fun (before, after) => (c :: before, after)
    else none

def cut (text : String) (start stop : Nat) : Except SettingFault String :=
  match split? stop text.toList with
  | none => .error .withinCharacter
  | some (before, _) =>
    match split? start before with
    | none => .error .withinCharacter
    | some (_, part) => .ok (String.ofList part)

def width (cs : List Char) : Nat := cs.foldl (fun n c => n + c.utf8Size) 0

def withVerbosity (text : String) (d : Directive) (place : Nat) :
    List Char → Except SettingFault Directive
  | [] => .ok d
  | '=' :: _ => do
    let level ← cut text (place + 1) text.utf8ByteSize
    if level.isEmpty then return d
    else return { d with verbosity := ← SettingFault.required (verbosity? level) }
  | _ => .error .unreadable

def withField (text : String) (d : Directive) (start : Nat) (rest : List Char) :
    Except SettingFault Directive :=
  let field := rest.takeWhile (· != '}')
  let stop := start + width field
  match rest.drop field.length with
  | [] => .error .unreadable
  | _ :: rest => do
    let test ← SettingFault.required (FieldTest.ofText? (← cut text start stop))
    match rest with
    | ']' :: rest => withVerbosity text { d with field := some test } (stop + 2) rest
    | _ => .error .unreadable

def withSpan (text : String) (d : Directive) (start : Nat) (rest : List Char) :
    Except SettingFault Directive :=
  let span := rest.takeWhile fun c => c != ']' && c != '{'
  let stop := start + width span
  match rest.drop span.length with
  | ']' :: rest => do
    withVerbosity text { d with span := some (← cut text start stop) } (stop + 1) rest
  | '{' :: rest => do
    let span ← cut text start stop
    withField text { d with span := if span.isEmpty then none else some span } (stop + 1) rest
  | _ => .error .unreadable

/-- A directive of one word: a verbosity, or else a target. -/
def ofWord (text : String) : Directive :=
  match verbosity? text with
  | some v => ⟨none, none, none, v⟩
  | none => ⟨some text, none, none, greatest⟩

def startsTarget (c : Char) : Bool :=
  c == '-' || c == ':' || c == '_' || Text.isAlphanumeric c

def ofText (text : String) : Except SettingFault Directive :=
  match body text with
  | [] => .error .unreadable
  | '[' :: rest => withSpan text ⟨none, none, none, greatest⟩ 1 rest
  | c :: rest =>
    if !startsTarget c then .error .unreadable
    else
      let target := (c :: rest).takeWhile fun c => c != '=' && c != '['
      let stop := width target
      match (c :: rest).drop target.length with
      | [] => .ok (ofWord text)
      | '[' :: rest => do
        withSpan text ⟨some (← cut text 0 stop), none, none, greatest⟩ (stop + 1) rest
      | rest => do
        withVerbosity text ⟨some (← cut text 0 stop), none, none, greatest⟩ stop rest

end Directive

end FirstMatch
