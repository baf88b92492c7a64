import FirstMatch.Double.Arithmetic

/-!
JSON values. A number keeps whether it was written whole; an object is a list of members. The
canonical form of a value, the one that reading gives, has the members of every object in the
order of their names, each name once.
-/

namespace FirstMatch

inductive Number where
  | integer (value : Int)
  | float (value : Double)
  deriving DecidableEq, Repr

inductive Json where
  | null
  | bool (value : Bool)
  | number (value : Number)
  | string (value : String)
  | list (items : List Json)
  | object (members : List (String × Json))
  deriving Repr

instance : Inhabited Json := ⟨.null⟩

def fitSigned? (n : Int) : Option Int := if -2 ^ 63 ≤ n ∧ n < 2 ^ 63 then some n else none

def fitUnsigned? (n : Int) : Option Int := if 0 ≤ n ∧ n < 2 ^ 64 then some n else none

namespace Number

def ofInt (n : Int) : Json := .number (.integer n)

def toDouble : Number → Double
  | .integer n => .ofInt n
  | .float x => x

def isFloat : Number → Bool
  | .integer _ => false
  | .float _ => true

/-- A whole number fits 64 bits, with or without sign; a float is finite. -/
def WellFormed : Number → Prop
  | .integer n => -2 ^ 63 ≤ n ∧ n < 2 ^ 64
  | .float x => x.isFinite

instance (n : Number) : Decidable n.WellFormed :=
  match n with
  | .integer n => inferInstanceAs (Decidable (-2 ^ 63 ≤ n ∧ n < 2 ^ 64))
  | .float x => inferInstanceAs (Decidable (x.isFinite = true))

def equal : Number → Number → Bool
  | .integer m, .integer n => m == n
  | .float x, .float y => x.equal y
  | _, _ => false

end Number

namespace Json

/-- A float, or null where JSON has no such number. -/
def ofDouble (x : Double) : Json := if x.isFinite then .number (.float x) else .null

def signed? : Json → Option Int
  | .number (.integer n) => fitSigned? n
  | _ => none

def double? : Json → Option Double
  | .number n => some n.toDouble
  | _ => none

mutual

/-- Equality of values member by member, with the numeric equality of floats. -/
def equal : Json → Json → Bool
  | .null, .null => true
  | .bool a, .bool b => a == b
  | .number a, .number b => a.equal b
  | .string a, .string b => a == b
  | .list a, .list b => equalItems a b
  | .object a, .object b => equalMembers a b
  | _, _ => false

def equalItems : List Json → List Json → Bool
  | [], [] => true
  | a :: as, b :: bs => a.equal b && equalItems as bs
  | _, _ => false

def equalMembers : List (String × Json) → List (String × Json) → Bool
  | [], [] => true
  | (k, a) :: as, (l, b) :: bs => k == l && a.equal b && equalMembers as bs
  | _, _ => false

end

/-- Puts a member where its name belongs among sorted members, in place of one of that name. -/
def insertMember (key : String) (value : Json) : List (String × Json) → List (String × Json)
  | [] => [(key, value)]
  | (k, v) :: rest =>
    if key = k then (key, value) :: rest
    else if key < k then (key, value) :: (k, v) :: rest
    else (k, v) :: insertMember key value rest

mutual

/-- The members of every object sorted by name; of several with one name the last counts. -/
def canonical : Json → Json
  | .list items => .list (canonicalItems items)
  | .object members => .object (canonicalMembers members [])
  | .null => .null
  | .bool b => .bool b
  | .number n => .number n
  | .string s => .string s

def canonicalItems : List Json → List Json
  | [] => []
  | item :: rest => item.canonical :: canonicalItems rest

def canonicalMembers : List (String × Json) → List (String × Json) → List (String × Json)
  | [], sorted => sorted
  | (key, value) :: rest, sorted =>
    canonicalMembers rest (insertMember key value.canonical sorted)

end

mutual

/-- Numbers are well-formed, and names strictly increase in every object. -/
def WellFormed : Json → Prop
  | .number n => n.WellFormed
  | .list items => WellFormedItems items
  | .object members => (members.map (·.1)).Pairwise (· < ·) ∧ WellFormedMembers members
  | _ => True

def WellFormedItems : List Json → Prop
  | [] => True
  | item :: rest => item.WellFormed ∧ WellFormedItems rest

def WellFormedMembers : List (String × Json) → Prop
  | [] => True
  | (_, value) :: rest => value.WellFormed ∧ WellFormedMembers rest

end

mutual

/-- How many brackets are open at the deepest point of the text. -/
def height : Json → Nat
  | .list items => heightItems items + 1
  | .object members => heightMembers members + 1
  | _ => 0

def heightItems : List Json → Nat
  | [] => 0
  | item :: rest => max item.height (heightItems rest)

def heightMembers : List (String × Json) → Nat
  | [] => 0
  | (_, value) :: rest => max value.height (heightMembers rest)

end

end Json

end FirstMatch
