import FirstMatch.Dispatch.Builder
import FirstMatch.Table.Compile

/-!
A workbench for functors over JSON values: objects are made, put into lists, maps and builders
under names, built into switches, and called. An object is known by its number, so that two objects
that do the same are still two, and a name that is given to a new object leaves the old one to
those who have it.
-/

namespace FirstMatch

abbrev Names (α : Type) := List (String × α)

namespace Names

variable {α : Type}

def set (name : String) (x : α) : Names α → Names α
  | [] => [(name, x)]
  | (n, y) :: rest => if n = name then (n, x) :: rest else (n, y) :: set name x rest

def nameOf? [DecidableEq α] (names : Names α) (x : α) : Option String :=
  (names.find? fun e => e.2 = x).map (·.1)

end Names

/-- The number of an object, which counts predicates and transformers separately. -/
abbrev ObjectId := Nat

inductive PredicateKind where
  | compiled (condition : Condition)
  | always
  | never
  | not (name : String)
  | equal (value : Json)
  | probe (name : String)
  | raise (payload : String)

inductive TransformerKind where
  | compiled (action : Action)
  | identity
  | null
  | constant (value : Json)
  | probe (name : String)
  | raise (payload : String)

inductive Definition where
  | predicate (name : String) (kind : PredicateKind)
  | transformer (name : String) (kind : TransformerKind)
  | predicates (name : String) (items : List (Option String))
  | transformers (name : String) (items : List (Option String))
  | setPredicate (name : String) (index : Nat) (item : Option String)
  | setTransformer (name : String) (index : Nat) (item : Option String)

/-- Builders, and dispatchers and switches built under the name `result`. -/
inductive Assembly where
  | factory (result : String) (predicates transformers fallback : Option String)
  | fromMap (result : String) (map : Option String)
  | direct (result : String) (predicates transformers : List String) (fallback : Option String)
  | cloneSwitch (name result : String)
  | inspect (name : String)
  | newBuilder (name : String)
  | when (name predicate transformer : String)
  | otherwise (name transformer : String)
  | cloneBuilder (name result : String)
  | build (name result : String)
  | buildSwitch (name result : String)

inductive MapCommand where
  | new
  | collect (entries : List (Option String × Option String))
  | insert (key value : Option String)
  | remove (key : Option String)
  | get (key : Option String)
  | contains (key : Option String)
  | describe

inductive Call where
  | evaluate (name : String)
  | transform (name : String)
  | transformFallback (name : String)

inductive Command where
  | define (definition : Definition)
  | assemble (assembly : Assembly)
  | map (name : String) (command : MapCommand)
  | call (call : Call) (input : Json)

inductive Reply where
  | done
  | built (known : Option String)
  | refused (error : ConstructionError)
  | parts (predicates transformers : List (Option String)) (fallback : Option String)
      (summary : String)
  | size (size : Nat)
  | length (length : Nat)
  | verdict (result : Except Failure Bool) (calls : List String)
  | output (result : Except Failure Json) (calls : List String)
  | entry (value : Option (Option String))
  | contained (answer : Bool)
  | entries (entries : List (Option String × Option String)) (summary : String)
  | unknownName (name : String)

structure Workbench where
  predicateObjects : List (Predicate Json)
  transformerObjects : List (Transformer Json Json)
  predicates : Names ObjectId
  transformers : Names ObjectId
  predicateLists : Names (List (Option ObjectId))
  transformerLists : Names (List (Option ObjectId))
  maps : Names (RuleMap ObjectId ObjectId)
  builders : Names (Builder ObjectId ObjectId)
  switches : Names (Switch ObjectId ObjectId)

def Switch.summary {P T : Type} (s : Switch P T) : String :=
  let p := s.predicates.length
  let t := s.transformers.length
  s!"SwitchTransformer \x7b predicates: {p}, transformers: {t}, .. \x7d"

def RuleMap.summary {K V : Type} [DecidableEq K] (m : RuleMap K V) : String :=
  let hasDefault := m.contains none
  s!"SwitchMap \x7b len: {m.size}, has_default: {hasDefault} \x7d"

namespace Workbench

def empty : Workbench := ⟨[], [], [], [], [], [], [], [], []⟩

abbrev Step (α : Type) := Except String α

def find {α : Type} (names : Names α) (name : String) : Step α :=
  match names.lookup name with
  | some x => .ok x
  | none => .error name

def findOptional {α : Type} (names : Names α) : Option String → Step (Option α)
  | none => .ok none
  | some name => some <$> find names name

variable (w : Workbench)

def predicateOf (id : ObjectId) : Predicate Json :=
  w.predicateObjects[id]?.getD fun _ => pure false

def transformerOf (id : ObjectId) : Transformer Json Json :=
  w.transformerObjects[id]?.getD nullTransformer

def resolve (s : Switch ObjectId ObjectId) : Switch (Predicate Json) (Transformer Json Json) :=
  s.map w.predicateOf w.transformerOf

def addPredicate (name : String) (p : Predicate Json) : Workbench :=
  { w with
    predicateObjects := w.predicateObjects ++ [p]
    predicates := w.predicates.set name w.predicateObjects.length }

def addTransformer (name : String) (t : Transformer Json Json) : Workbench :=
  { w with
    transformerObjects := w.transformerObjects ++ [t]
    transformers := w.transformers.set name w.transformerObjects.length }

def addSwitch (name : String) (s : Switch ObjectId ObjectId) : Workbench :=
  let w := w.addTransformer name (w.resolve s).transform
  { w with switches := w.switches.set name s }

/-- What construction gave under a name, and the name that it had before, if any. -/
def addDispatcher (name : String) : Dispatcher ObjectId ObjectId → Workbench × Option String
  | .null => (w.addTransformer name nullTransformer, none)
  | .given id => ({ w with transformers := w.transformers.set name id }, w.transformers.nameOf? id)
  | .table s => (w.addTransformer name (w.resolve s).transform, none)

/-- A new predicate object; a probe leaves its own name in the trace before it asks another. -/
def makePredicate (own : String) : PredicateKind → Step (Predicate Json)
  | .compiled c => .ok c.compile
  | .always => .ok fun _ => pure true
  | .never => .ok fun _ => pure false
  | .not name => do
    let p := w.predicateOf (← find w.predicates name)
    return .negation p
  | .equal value => .ok (.equalTo value)
  | .probe name => do
    let p := w.predicateOf (← find w.predicates name)
    return fun x => do
      Traced.call own
      p x
  | .raise payload => .ok fun _ => Traced.fail (.raised payload)

def makeTransformer (own : String) : TransformerKind → Step (Transformer Json Json)
  | .compiled a => .ok a.compile
  | .identity => .ok pure
  | .null => .ok nullTransformer
  | .constant value => .ok fun _ => pure value
  | .probe name => do
    let t := w.transformerOf (← find w.transformers name)
    return fun x => do
      Traced.call own
      t x
  | .raise payload => .ok fun _ => Traced.fail (.raised payload)

structure Outcome where
  workbench : Workbench
  reply : Reply
  events : List Event

def reply (r : Reply) : Outcome := ⟨w, r, []⟩

def construct (result : String)
    (d : Traced ConstructionError (Dispatcher ObjectId ObjectId)) : Outcome :=
  match d.result with
  | .ok made =>
    let (w, known) := w.addDispatcher result made
    ⟨w, .built known, d.events⟩
  | .error e => ⟨w, .refused e, d.events⟩

def updateBuilder (name : String)
    (change : Builder ObjectId ObjectId → Builder ObjectId ObjectId) : Step Outcome := do
  let b := change (← find w.builders name)
  return { w with builders := w.builders.set name b }.reply (.size b.size)

def define : Definition → Step Outcome
  | .predicate name kind => do
    return (w.addPredicate name (← w.makePredicate name kind)).reply .done
  | .transformer name kind => do
    return (w.addTransformer name (← w.makeTransformer name kind)).reply .done
  | .predicates name items => do
    let ids ← items.mapM (findOptional w.predicates)
    return { w with predicateLists := w.predicateLists.set name ids }.reply .done
  | .transformers name items => do
    let ids ← items.mapM (findOptional w.transformers)
    return { w with transformerLists := w.transformerLists.set name ids }.reply .done
  | .setPredicate name index item => do
    let ids ← find w.predicateLists name
    let id ← findOptional w.predicates item
    return { w with predicateLists := w.predicateLists.set name (ids.set index id) }.reply .done
  | .setTransformer name index item => do
    let ids ← find w.transformerLists name
    let id ← findOptional w.transformers item
    return { w with transformerLists := w.transformerLists.set name (ids.set index id) }.reply .done

def valueName (value : Option ObjectId) : Option String := value.bind w.transformers.nameOf?

def assemble : Assembly → Step Outcome
  | .factory result predicates transformers fallback => do
    let ps ← findOptional w.predicateLists predicates
    let ts ← findOptional w.transformerLists transformers
    let d ← findOptional w.transformers fallback
    return w.construct result (Dispatcher.ofSlots ps ts d)
  | .fromMap result none => .ok (w.construct result (Dispatcher.ofMap none))
  | .fromMap result (some name) => do
    let m ← find w.maps name
    let w := { w with maps := w.maps.filter (·.1 != name) }
    return w.construct result (Dispatcher.ofMap (some m))
  | .direct result predicates transformers fallback => do
    let ps ← predicates.mapM (find w.predicates)
    let ts ← transformers.mapM (find w.transformers)
    let d ← findOptional w.transformers fallback
    return (w.addSwitch result ⟨ps, ts, d⟩).reply .done
  | .cloneSwitch name result => do
    return (w.addSwitch result (← find w.switches name)).reply .done
  | .inspect name => do
    let s ← find w.switches name
    return w.reply (.parts (s.predicates.map w.predicates.nameOf?)
      (s.transformers.map w.transformers.nameOf?) (w.valueName s.fallback) s.summary)
  | .newBuilder name => .ok ({ w with builders := w.builders.set name .empty }.reply .done)
  | .when name predicate transformer => do
    let p ← find w.predicates predicate
    let t ← find w.transformers transformer
    w.updateBuilder name (·.when p t)
  | .otherwise name transformer => do
    let t ← find w.transformers transformer
    w.updateBuilder name (·.otherwise t)
  | .cloneBuilder name result => do
    let b ← find w.builders name
    return { w with builders := w.builders.set result b }.reply .done
  | .build name result => do
    let b ← find w.builders name
    return { w with builders := w.builders.filter (·.1 != name) }.construct result b.build
  | .buildSwitch name result => do
    let b ← find w.builders name
    let w := { w with builders := w.builders.filter (·.1 != name) }
    return (w.addSwitch result b.buildSwitch).reply .done

def entryReply (value : Option (Option ObjectId)) : Reply := .entry (value.map w.valueName)

def setMap (name : String) (m : RuleMap ObjectId ObjectId) : Workbench :=
  { w with maps := w.maps.set name m }

def changeMap (name : String) : MapCommand → Step Outcome
  | .new => .ok ((w.setMap name .empty).reply .done)
  | .collect entries => do
    let m := RuleMap.ofList (← entries.mapM fun (k, v) => do
      return (← findOptional w.predicates k, ← findOptional w.transformers v))
    return (w.setMap name m).reply (.length m.size)
  | .insert key value => do
    let k ← findOptional w.predicates key
    let v ← findOptional w.transformers value
    let (before, m) := (← find w.maps name).insert k v
    return (w.setMap name m).reply (w.entryReply before)
  | .remove key => do
    let (before, m) := (← find w.maps name).remove (← findOptional w.predicates key)
    return (w.setMap name m).reply (w.entryReply before)
  | .get key => do
    let m ← find w.maps name
    return w.reply (w.entryReply (m.get? (← findOptional w.predicates key)))
  | .contains key => do
    let m ← find w.maps name
    return w.reply (.contained (m.contains (← findOptional w.predicates key)))
  | .describe => do
    let m ← find w.maps name
    return w.reply (.entries
      (m.entries.map fun (k, v) => (k.bind w.predicates.nameOf?, w.valueName v)) m.summary)

def applied (t : Transformer Json Json) (input : Json) : Outcome :=
  let y := t input
  ⟨w, .output y.result y.calls, y.events⟩

def call (input : Json) : Call → Step Outcome
  | .evaluate name => do
    let y := w.predicateOf (← find w.predicates name) input
    return ⟨w, .verdict y.result y.calls, y.events⟩
  | .transform name => do
    return w.applied (w.transformerOf (← find w.transformers name)) input
  | .transformFallback name => do
    return w.applied (w.resolve (← find w.switches name)).fallbackTransformer input

def stepKnown : Command → Step Outcome
  | .define definition => w.define definition
  | .assemble assembly => w.assemble assembly
  | .map name command => w.changeMap name command
  | .call call input => w.call input call

/-- Carries out a command. One that uses an unknown name changes nothing. -/
def step (command : Command) : Outcome :=
  match w.stepKnown command with
  | .ok outcome => outcome
  | .error name => w.reply (.unknownName name)

end Workbench

end FirstMatch
