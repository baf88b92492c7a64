import FirstMatch.Log.Directive

/-!
Which records the log shows. Of the directives that a record fits the most particular one decides:
the one with the longest beginning of a target, then the one with a field. A record that fits none
is not shown.
-/

namespace FirstMatch

abbrev LogFilter := List Directive

namespace Directive

/-- Whether a directive is for a record. The program opens no spans and has no values to compare,
so that no record lies within a span or has a value asked for. -/
def fits (d : Directive) (r : LogRecord) : Bool :=
  d.span.isNone &&
  (match d.target with
    | none => true
    | some target => target.toList.isPrefixOf r.target.toList) &&
  match d.field with
  | none => true
  | some ⟨name, none⟩ => r.names.contains name
  | some ⟨_, some _⟩ => false

/-- How particular a directive is about the target, and whether it is about a field. -/
def rank (d : Directive) : Nat × Nat :=
  (match d.target with
    | none => 0
    | some target => target.utf8ByteSize + 1,
   if d.field.isSome then 1 else 0)

def fieldName (d : Directive) : String :=
  match d.field with
  | none => ""
  | some test => test.name

/-- Whether the second directive goes before the first. Of two that are equally particular the
one whose field has the later name goes before, and of two for the same field the last one. -/
def yieldsTo (d e : Directive) : Bool :=
  let (targetD, fieldD) := d.rank
  let (targetE, fieldE) := e.rank
  targetD < targetE || targetD == targetE &&
    (fieldD < fieldE || fieldD == fieldE && d.fieldName ≤ e.fieldName)

end Directive

namespace LogFilter

def standard : LogFilter := [⟨none, none, none, Level.info.verbosity⟩]

/-- The directives of a setting, separated by commas. One without directives shows nothing. -/
def ofText (text : String) : Except SettingFault LogFilter :=
  ((text.splitOn ",").filter (!·.isEmpty)).mapM Directive.ofText

/-- The filter of a setting, or none if it cannot be cut into its parts. A setting that cannot be
read counts as absent. -/
def ofSetting? : Option String → Option LogFilter
  | none => some standard
  | some text =>
    match ofText text with
    | .ok filter => some filter
    | .error .unreadable => some standard
    | .error .withinCharacter => none

def directive? (filter : LogFilter) (r : LogRecord) : Option Directive :=
  (filter.filter (·.fits r)).foldl
    (fun best d => match best with
      | none => some d
      | some b => if b.yieldsTo d then some d else some b) none

def shows (filter : LogFilter) (r : LogRecord) : Bool :=
  (filter.directive? r).any fun d => r.level.verbosity ≤ d.verbosity

def lines (filter : LogFilter) (records : List LogRecord) : List String :=
  (records.filter filter.shows).map LogRecord.line

end LogFilter

end FirstMatch
