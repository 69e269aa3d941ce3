import Residual.Expr.Printer
import Residual.Evaluation.Run

/-!
# The log of an evaluation

Every rewriting and every answer of the evaluator of constants leaves an entry, except for values
that cannot be compared: they give the type error without further ado.

* `LogEntry.text`: the level and the message of an entry.
* `Event.logEntry?`: the entry of a question and its answer.
-/

namespace Residual

inductive LogEntry where
  /-- The registry was set up with so many identifiers. -/
  | registrySize (count : Nat)
  | rewrote (before after : Expr)
  | folded (node : Expr) (value : Value)
  | failed (node : Expr) (error : FoldError)

/-- How much an entry matters. -/
inductive LogLevel where
  | trace
  | debug
  | warn
  deriving Repr, DecidableEq

def LogLevel.text : LogLevel → String
  | trace => "TRACE"
  | debug => "DEBUG"
  | warn => "WARN"

namespace LogEntry

def level : LogEntry → LogLevel
  | registrySize _ => .debug
  | rewrote _ _ => .trace
  | folded _ _ => .trace
  | failed _ _ => .warn

def message : LogEntry → String
  | registrySize n => "Function registry holds " ++ toString n ++ " identifiers"
  | rewrote a b => "Rewrote " ++ a.text ++ " to " ++ b.text
  | folded e v => "Folded " ++ e.text ++ " to " ++ v.text
  | failed e err => "Failed to evaluate expr " ++ e.text ++ ": " ++ err.message

def text (e : LogEntry) : String := e.level.text ++ " " ++ e.message

end LogEntry

namespace Event

/-- The entry that a question and its answer leave in the log. -/
def logEntry? : Event → Option LogEntry
  | offered node (some answer) => some (.rewrote node answer)
  | offered _ none => none
  | folded node (.ok v) => some (.folded node v)
  | folded node (.error err) => if err.isNotComparable then none else some (.failed node err)

/-- The node whose value was asked for. -/
def foldedNode? : Event → Option Expr
  | folded node _ => some node
  | offered _ _ => none

end Event

/-- The log of the questions of a run. -/
def logOf (events : List Event) : List LogEntry := events.filterMap Event.logEntry?

end Residual
