import Residual.Expr.Basic
import Residual.Fold.Error

/-!
# Runs and what they ask

During an evaluation two parties are asked: the rule table, whether it rewrites a node, and the
evaluator of constants, for the value of a node. A run records every question with its answer, in
order. Rules may go on forever, so that a run has a bound on its depth and may stop there.

* `Run`: a result with the questions asked on the way, or nothing if the depth was not enough.
-/

namespace Residual

/-- A question with its answer. -/
inductive Event where
  /-- The rule table was asked for another form of a node. -/
  | offered (node : Expr) (answer : Option Expr)
  /-- The evaluator of constants was asked for the value of a node. -/
  | folded (node : Expr) (answer : Except FoldError Value)

/-- What comes out of a run, if it ends within its depth. -/
def Run (α : Type) : Type := Option (α × List Event)

namespace Run

variable {α β : Type}

/-- The run that is cut short. -/
def stop : Run α := none

/-- A result without any question. -/
def done (a : α) : Run α := some (a, [])

/-- A single question, and the result drawn from its answer. -/
def ask (e : Event) (a : α) : Run α := some (a, [e])

/-- One run after the other. -/
def andThen (x : Run α) (f : α → Run β) : Run β :=
  match x with
  | none => none
  | some (a, asked) =>
    match f a with
    | none => none
    | some (b, asked') => some (b, asked ++ asked')

instance : Monad Run where
  pure := done
  bind := andThen

/-- The result, if there is one. -/
def result? (x : Run α) : Option α := x.map Prod.fst

/-- The questions asked; none if the run was cut short. -/
def trace (x : Run α) : List Event := (x.map Prod.snd).getD []

end Run

end Residual
