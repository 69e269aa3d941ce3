import Residual.Text.Quoted
import Residual.Evaluation.Evaluator

/-!
# Summaries

A summary of an evaluator for people names the identifiers that have rules.

* `Evaluator.summary`: this text.
-/

namespace Residual

/-- The identifiers with rules, in ascending order. -/
def RuleTable.summary (t : RuleTable) : String :=
  "TransformTable \x7b rules: [" ++ ", ".intercalate (t.rules.names.map Text.showName) ++ "] \x7d"

def Evaluator.summary (ev : Evaluator) : String :=
  let rules := match ev.rules with
    | none => "None"
    | some t => "Some(" ++ t.summary ++ ")"
  "PartialEvaluator \x7b transformer: " ++ rules ++ ", .. \x7d"

end Residual
