import FirstMatch.Dispatch.Builder

/-!
Switches over 64-bit integers, with outputs of several types: the same constructions as over JSON
values, with predicates and transformers of their own. Addition wraps around.
-/

namespace FirstMatch

inductive IntegerTest where
  | always
  | never
  | lessThan (bound : Int64)
  | atLeast (bound : Int64)
  | equals (value : Int64)
  | even
  | not (test : IntegerTest)
  deriving DecidableEq, Repr

namespace IntegerTest

def test : IntegerTest → Int64 → Bool
  | always, _ => true
  | never, _ => false
  | lessThan bound, x => x < bound
  | atLeast bound, x => bound ≤ x
  | equals value, x => x == value
  | even, x => x % 2 == 0
  | not t, x => !t.test x

def compile (t : IntegerTest) : Predicate Int64 := fun x => pure (t.test x)

end IntegerTest

inductive IntegerAction where
  | identity
  | empty
  | constant (value : Int64)
  | add (amount : Int64)
  | failure (text : String)
  deriving DecidableEq, Repr

/-- An output type: how integers and failures appear in it. -/
class IntegerOutput (O : Type) extends Inhabited O where
  ofInteger : Int64 → O
  ofFailure : String → O

instance : IntegerOutput Int64 where
  default := 0
  ofInteger n := n
  ofFailure _ := 0

instance : IntegerOutput (Option Int64) where
  default := none
  ofInteger := some
  ofFailure _ := none

instance : IntegerOutput String where
  default := ""
  ofInteger n := s!"<{n.toInt}>"
  ofFailure _ := ""

instance : IntegerOutput (Except String Int64) where
  default := .ok 0
  ofInteger := .ok
  ofFailure := .error

namespace IntegerAction

def apply {O : Type} [IntegerOutput O] : IntegerAction → Int64 → O
  | identity, x => IntegerOutput.ofInteger x
  | empty, _ => default
  | constant value, _ => IntegerOutput.ofInteger value
  | add amount, x => IntegerOutput.ofInteger (x + amount)
  | failure text, _ => IntegerOutput.ofFailure text

def compile {O : Type} [IntegerOutput O] (a : IntegerAction) : Transformer Int64 O :=
  fun x => pure (a.apply x)

end IntegerAction

inductive Construction where
  | slots
  | map
  | builder
  | direct
  deriving DecidableEq, Repr

structure IntegerTable where
  predicates : Option (List (Option IntegerTest))
  transformers : Option (List (Option IntegerAction))
  fallback : Option IntegerAction
  deriving DecidableEq, Repr

namespace IntegerTable

/-- The rules as an ordered map, each predicate being a key of its own, and the fallback last. -/
def toMap (t : IntegerTable) : Option (RuleMap Nat IntegerAction) :=
  match t.predicates, t.transformers with
  | some ps, some ts =>
    let rules := (ps.zip ts).zipIdx.map fun ((p, t), i) => (p.map fun _ => i, t)
    some (.ofList (rules ++ match t.fallback with
      | some a => [(none, some a)]
      | none => []))
  | _, _ => none

def toSwitch (t : IntegerTable) : Switch IntegerTest IntegerAction :=
  ⟨(t.predicates.getD []).filterMap id, (t.transformers.getD []).filterMap id, t.fallback⟩

def toBuilder (t : IntegerTable) : Builder IntegerTest IntegerAction :=
  let s := t.toSwitch
  let b := (s.predicates.zip s.transformers).foldl (fun b (p, t) => b.when p t) .empty
  match t.fallback with
  | some a => b.otherwise a
  | none => b

def keyed (t : IntegerTable) (key : Nat) : IntegerTest :=
  (((t.predicates.getD [])[key]?).join).getD .never

def construct (t : IntegerTable) :
    Construction → Traced ConstructionError (Dispatcher IntegerTest IntegerAction)
  | .slots => Dispatcher.ofSlots t.predicates t.transformers t.fallback
  | .map => (·.map t.keyed id) <$> Dispatcher.ofMap t.toMap
  | .builder => t.toBuilder.build
  | .direct => pure (.table t.toSwitch)

def run {O : Type} [IntegerOutput O] (d : Dispatcher IntegerTest IntegerAction) (x : Int64) :
    Traced Failure O :=
  (d.map IntegerTest.compile IntegerAction.compile).transform x

end IntegerTable

end FirstMatch
