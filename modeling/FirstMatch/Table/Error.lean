import FirstMatch.Dispatch.Error
import FirstMatch.Table.Refusal

/-!
What can go wrong between a file and a running table.
-/

namespace FirstMatch

inductive FileFault where
  | missing
  | directory
  | notDirectory
  | denied
  | nameTooLong
  | nulInName
  | notUtf8
  deriving DecidableEq, Repr

inductive Defect where
  | condition (rule : Nat)
  | action (rule : Nat)
  | fallback
  | other (text : String)
  deriving DecidableEq, Repr

inductive TableError where
  | unreadable (fault : FileFault)
  | undecodable (error : ReadError Refusal)
  | invalid (defect : Defect)
  | construction (error : ConstructionError)
  deriving DecidableEq, Repr

/-- The most nodes on a way down into a condition or action. -/
def maxDepth : Nat := 32

namespace FileFault

def message : FileFault → String
  | missing => "No such file or directory (os error 2)"
  | directory => "Is a directory (os error 21)"
  | notDirectory => "Not a directory (os error 20)"
  | denied => "Permission denied (os error 13)"
  | nameTooLong => "File name too long (os error 36)"
  | nulInName => "file name contained an unexpected NUL byte"
  | notUtf8 => "stream did not contain valid UTF-8"

end FileFault

namespace Defect

def message : Defect → String
  | condition i => s!"rule {i}: predicate nesting exceeds {maxDepth}"
  | action i => s!"rule {i}: transformer nesting exceeds {maxDepth}"
  | fallback => s!"default: transformer nesting exceeds {maxDepth}"
  | other text => text

end Defect

namespace TableError

def kind : TableError → ErrorKind
  | construction e => e.kind
  | _ => .invalidConfig

def message : TableError → String
  | unreadable f => "failed to read switch spec: " ++ f.message
  | undecodable e => "failed to decode switch spec: " ++ e.message
  | invalid d => "invalid switch spec: " ++ d.message
  | construction e => e.message

end TableError

end FirstMatch
