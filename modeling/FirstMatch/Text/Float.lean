/-!
Which texts are numbers, written with digits, or as one of the words for what is infinite or no
number at all.
-/

namespace FirstMatch.Text

def decimalRest? (cs : List Char) : Option (List Char) :=
  let whole := cs.takeWhile Char.isDigit
  match cs.drop whole.length with
  | '.' :: rest =>
    let fraction := rest.takeWhile Char.isDigit
    if whole.isEmpty && fraction.isEmpty then none else some (rest.drop fraction.length)
  | rest => if whole.isEmpty then none else some rest

def withoutSign : List Char → List Char
  | '+' :: rest => rest
  | '-' :: rest => rest
  | cs => cs

/-- A number may have a sign, and so may its exponent. -/
def isFloat (cs : List Char) : Bool :=
  let cs := withoutSign cs
  ["inf", "infinity", "nan"].contains (String.ofList (cs.map Char.toLower)) ||
  match decimalRest? cs with
  | some [] => true
  | some (mark :: rest) =>
    let digits := withoutSign rest
    (mark == 'e' || mark == 'E') && !digits.isEmpty && digits.all Char.isDigit
  | none => false

end FirstMatch.Text
