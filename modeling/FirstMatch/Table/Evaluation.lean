import FirstMatch.Json.Printer
import FirstMatch.Table.Basic

/-!
What conditions accept and what actions yield. Arithmetic on whole numbers stays whole while the
result is exact and fits 64 signed bits; otherwise it is done on doubles, and a result that is
not finite is null.
-/

namespace FirstMatch

namespace Number

def signed? : Number → Option Int
  | .integer n => fitSigned? n
  | .float _ => none

def unsigned? : Number → Option Int
  | .integer n => fitUnsigned? n
  | .float _ => none

/-- Whole numbers are compared in the signed and in the unsigned range, and doubles are compared
once a float takes part. -/
def same (a b : Number) : Bool :=
  if a.isFloat || b.isFloat then a.toDouble.equal b.toDouble
  else a.signed? == b.signed? && a.unsigned? == b.unsigned?

end Number

namespace Json

def isNull : Json → Bool
  | .null => true
  | _ => false

def isNumber : Json → Bool
  | .number _ => true
  | _ => false

def isString : Json → Bool
  | .string _ => true
  | _ => false

/-- Equality in which a whole number equals the float of the same value, on the outside only. -/
def meets : Json → Json → Bool
  | .number a, .number b => a.same b
  | a, b => a.equal b

/-- Exact arithmetic where it has an answer, arithmetic on doubles for all other numbers. -/
def arithmetic (input : Json) (whole : Int → Option Int) (float : Double → Double) : Json :=
  match input.signed?.bind whole with
  | some n => Number.ofInt n
  | none =>
    match input.double? with
    | some x => ofDouble (float x)
    | none => .null

def negated (x : Json) : Json := x.arithmetic (fun n => fitSigned? (-n)) Double.negate

def scaled (x : Json) (factor : Double) : Json :=
  x.arithmetic (fun n => factor.exactInt?.bind fun k => fitSigned? (n * k)) (·.mul factor)

def shifted (x : Json) (amount : Double) : Json :=
  x.arithmetic (fun n => amount.exactInt?.bind fun k => fitSigned? (n + k)) (·.add amount)

def stringified : Json → Json
  | .string s => .string s
  | x => .string x.text

end Json

namespace Condition

mutual

def test : Condition → Json → Bool
  | .always, _ => true
  | .never, _ => false
  | .isNull, x => x.isNull
  | .isNumber, x => x.isNumber
  | .isString, x => x.isString
  | .equals v, x => x.meets v
  | .lessThan bound, x => x.double?.any fun y => y.less bound
  | .greaterThan bound, x => x.double?.any fun y => bound.less y
  | .not c, x => !c.test x
  | .all cs, x => testAll cs x
  | .any cs, x => testAny cs x

def testAll : List Condition → Json → Bool
  | [], _ => true
  | c :: cs, x => c.test x && testAll cs x

def testAny : List Condition → Json → Bool
  | [], _ => false
  | c :: cs, x => c.test x || testAny cs x

end

end Condition

namespace Action

mutual

def apply : Action → Json → Json
  | .identity, x => x
  | .null, _ => .null
  | .constant v, _ => v
  | .negate, x => x.negated
  | .scale factor, x => x.scaled factor
  | .offset amount, x => x.shifted amount
  | .stringify, x => x.stringified
  | .chain steps, x => applyAll steps x

def applyAll : List Action → Json → Json
  | [], x => x
  | step :: steps, x => applyAll steps (step.apply x)

end

end Action

end FirstMatch
