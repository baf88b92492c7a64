import FirstMatch.CommandLine.Arguments
import FirstMatch.Log.Filter
import FirstMatch.Table.Compile

/-!
What the program does with its arguments: it loads a table, builds its dispatcher, and prints for
every input the input and what the dispatcher makes of it. Nothing is printed for any input when
the table cannot be loaded or built.
-/

namespace FirstMatch

/-- A line that a run prints: of help, of the log, or an input and what became of it. -/
inductive OutputLine where
  | help (text : String)
  | log (text : String)
  | result (input output : Json)
  deriving Repr

namespace OutputLine

def text : OutputLine → String
  | help text => text
  | log text => text
  | result input output => s!"{input.text} -> {output.text}"

end OutputLine

/-- What a run leaves behind: the exit status, what is printed, and the complaint about wrong
usage. -/
structure RunResult where
  status : Nat
  printed : List OutputLine
  complaint : Option String
  deriving Repr

namespace CommandLine

def version : String := "switchyard-cli 0.1.0"

def help : List String := [
  "Run inputs through a JSON-configured switch",
  "",
  "Usage: switchyard-cli [SPEC] [INPUTS]...",
  "",
  "Arguments:",
  "  [SPEC]       Rule table to load; `-` or nothing selects the built-in example",
  "  [INPUTS]...  Inputs, parsed as JSON (anything else is taken as a string)",
  "",
  "Options:",
  "  -h, --help     Print help",
  "  -V, --version  Print version"]

def target : String := "switchyard_cli"

def logged (filter : LogFilter) (records : List LogRecord) : List OutputLine :=
  (filter.lines records).map .log

def errorRecord (doing : String) (e : TableError) : LogRecord :=
  ⟨.error, target, s!"{doing}: {e.message}", [("kind", e.kind.name)]⟩

def readyRecord (rules : Nat) : LogRecord :=
  ⟨.info, target, "switch ready", [("rules", toString rules)]⟩

/-- An argument that is no JSON text is a string. -/
def input (argument : String) : Json := (Json.ofText? argument).toOption.getD (.string argument)

def sampleInputs : List Json := [Number.ofInt (-5), Number.ofInt 0, Number.ofInt 7]

def path? : Option String → Option String
  | some "-" => none
  | table => table

/-- The log of all transformations comes before the results. -/
def transformAll (filter : LogFilter) (d : Dispatcher (Predicate Json) (Transformer Json Json))
    (inputs : List Json) : RunResult :=
  let outputs := inputs.map fun x => (x, d.transform x)
  let log := logged filter (outputs.flatMap fun (_, y) => y.events.map Event.record)
  match outputs.mapM fun (x, y) => y.result.toOption.map (OutputLine.result x) with
  | some results => ⟨0, log ++ results, none⟩
  | none => ⟨1, log, none⟩

def runTable (filter : LogFilter) (t : Table) (inputs : List Json) : RunResult :=
  let compiled := t.compile
  let log := logged filter (compiled.events.map Event.record)
  match compiled.result with
  | .error e => ⟨1, log ++ logged filter [errorRecord "failed to build switch" e], none⟩
  | .ok d =>
    let ready := logged filter [readyRecord t.rules.length]
    let r := transformAll filter d inputs
    { r with printed := log ++ ready ++ r.printed }

def load (files : String → Except TableError Table) (table : Option String) :
    Except TableError Table :=
  match path? table with
  | some path => files path
  | none => .ok .sample

def runFiltered (files : String → Except TableError Table) (filter : LogFilter)
    (arguments : List String) : RunResult :=
  match Invocation.parse arguments with
  | .error e => ⟨2, [], some e.message⟩
  | .ok .help => ⟨0, help.map .help, none⟩
  | .ok .version => ⟨0, [.help version], none⟩
  | .ok (.run table inputs) =>
    match load files table with
    | .error e => ⟨1, logged filter [errorRecord "failed to load switch spec" e], none⟩
    | .ok t => runTable filter t (if inputs.isEmpty then sampleInputs else inputs.map input)

/-- The end of a program that cannot go on. Its complaint starts with an empty line. -/
def broken : RunResult := ⟨101, [], some ""⟩

/-- Runs the program, given what the files hold and the setting of the log, which is looked at
before the arguments. -/
def run (files : String → Except TableError Table) (setting : Option String)
    (arguments : List String) : RunResult :=
  match LogFilter.ofSetting? setting with
  | some filter => runFiltered files filter arguments
  | none => broken

end CommandLine

end FirstMatch
