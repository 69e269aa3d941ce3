import Residual.Evaluation.Evaluator
import Residual.Evaluation.Log

/-!
# Settings

The settings choose the evaluator: which functions are registered, and whether the standard rules
are in place.

* `Settings.registry`, `Settings.evaluator`: what the settings describe.
-/

namespace Residual

structure Settings where
  /-- Register all operators but the comparisons. -/
  builtins : Bool := true
  /-- Further identifiers to register. -/
  functions : List String := []
  /-- Put the standard rules in place. -/
  transforms : Bool := true
  deriving Repr, DecidableEq

namespace Settings

def registry (s : Settings) : Registry :=
  Registry.insertAll (if s.builtins then .builtins else ∅) s.functions

def evaluator (s : Settings) : Evaluator where
  registry := s.registry
  rules := if s.transforms then some .standard else none

/-- What setting up the evaluator leaves in the log. -/
def log (s : Settings) : List LogEntry := [.registrySize s.registry.size]

end Settings

end Residual
