import Residual.CommandLine.Arguments
import Residual.Expr.Json
import Residual.Expr.Printer
import Residual.Settings.Json

/-!
# The command line

A job reads the settings, the expression and the binding, in this order, evaluates the expression
and prints the result as text or JSON. The first input that cannot be read or understood ends it.

* `Job.run`: the printed result, over any way to read inputs.
* `CommandLine.execute`: a whole invocation with its exit status.
-/

namespace Residual.CommandLine

/-- Where an input comes from. -/
inductive Source where
  | stdin
  | file (path : String)
  deriving Repr, DecidableEq

/-- The components of a path: a slash more, or a component that stands for the directory itself,
does not make it another path. -/
def isStdin (path : String) : Bool :=
  match path.splitOn "/" with
  | first :: rest => first == "-" && rest.all fun part => part == "" || part == "."
  | [] => false

/-- A dash stands for standard input. -/
def Source.ofPath (path : String) : Source := if isStdin path then .stdin else .file path

/-- Why a job has no result. -/
inductive Failure where
  | badConfig (path : String)
  | unreadable (source : Source)
  | badExpr
  | badBinding
  deriving Repr, DecidableEq

def Failure.message : Failure → String
  | badConfig path => "Error: Failed to load configuration from " ++ path
  | unreadable (.file path) => "Error: Failed to read " ++ path
  | unreadable .stdin => "Error: Failed to read stdin"
  | badExpr => "Error: Failed to parse expression"
  | badBinding => "Error: Failed to parse binding"

/-- A printed result, and the log of its evaluation. -/
structure Answer where
  output : String
  log : List LogEntry

namespace Job

variable {m : Type → Type} [Monad m]

/-- The settings of a job. A source that cannot be read or is no text reads as `none`. -/
def settings (read : Source → m (Option String)) (job : Job) : ExceptT Failure m Settings := do
  match job.config with
  | none => return {}
  | some path =>
    match (← read (.file path)).bind Settings.read? with
    | some s => return s
    | none => throw (.badConfig path)

/-- The text of a source. -/
def input (read : Source → m (Option String)) (path : String) : ExceptT Failure m String := do
  let source := Source.ofPath path
  match ← read source with
  | some s => return s
  | none => throw (.unreadable source)

def expression (read : Source → m (Option String)) (job : Job) : ExceptT Failure m Expr := do
  match Expr.read? (← input read (job.expr.getD "-")) with
  | some e => return e
  | none => throw .badExpr

def bindings (read : Source → m (Option String)) (job : Job) : ExceptT Failure m Binding := do
  match job.binding with
  | none => return ∅
  | some path =>
    match Binding.read? (← input read path) with
    | some b => return b
    | none => throw .badBinding

/-- The printed form that a job asks for. -/
def print (job : Job) (e : Expr) : String := if job.json then e.toJson.pretty else e.text

/-- Carries out a job. -/
def run (read : Source → m (Option String)) (job : Job) : ExceptT Failure m Answer := do
  let settings ← job.settings read
  let e ← job.expression read
  let b ← job.bindings read
  let ev := settings.evaluator
  return {
    output := job.print (ev.evaluate b e) ++ "\n"
    log := settings.log ++ logOf (ev.traceOf b e) }

end Job

def versionText : String := "termfold 0.1.0\n"

def helpText : String := "\n".intercalate
  ["Fold the constant parts of a JSON-encoded expression tree",
   "",
   "Usage: termfold [OPTIONS]",
   "",
   "Options:",
   "  -e, --expr <EXPR>        Expression file (JSON), or '-' for stdin [default: -]",
   "  -b, --binding <BINDING>  Variable binding file (JSON object of variable name to expression)",
   "  -c, --config <CONFIG>    Evaluator configuration file (JSON)",
   "      --json               Print the result as JSON instead of its textual form",
   "  -d, --debug              Enable debug logging",
   "  -h, --help               Print help",
   "  -V, --version            Print version",
   ""]

/-- What an invocation leaves behind. -/
structure Report where
  status : Nat
  output : String := ""
  /-- The first line of the account of a failure. -/
  error : Option String := none
  log : List LogEntry := []

/-- Carries out an invocation. -/
def execute {m : Type → Type} [Monad m] (read : Source → m (Option String)) (args : List String) :
    m Report := do
  match Arguments.parse args with
  | .error .misuse => return { status := 2 }
  | .error .version => return { status := 0, output := versionText }
  | .error .help => return { status := 0, output := helpText }
  | .ok job =>
    match ← (job.run read).run with
    | .ok answer => return { status := 0, output := answer.output, log := answer.log }
    | .error failure => return { status := 1, error := some failure.message }

end Residual.CommandLine
