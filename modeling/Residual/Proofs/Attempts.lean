import Mathlib.Algebra.Order.BigOperators.Group.List
import Mathlib.Algebra.Order.Ring.Basic
import Mathlib.Algebra.Order.Ring.Nat
import Residual.Evaluation.Log
import Residual.Proofs.Termination
import Residual.Proofs.NormalForm
import Residual.Proofs.Weights

/-!
# Attempts to fold

As long as the rules leave a node and all nodes around it alone, it is handed to the evaluator of
constants at most once. When a node is rewritten, the operands of what the rule gives are evaluated
again, since some of them may be new; and what could not be folded before is tried again. So every
rewriting is charged for the nodes in these operands, and beyond these charges there is at most one
attempt for every node of the expression.

Under the standard rules the charges are bounded as well. What is rewritten has normal operands, in
which nothing is left to rewrite. Only the call that the rule for strings builds is new. It has
fewer nodes than the node that was rewritten, so that the attempts of such a chain of rewritings add
up to a square. There may be one chain for every node of the expression.

* `Expr.nodeCount`: the number of calls and typed terms.
* `attempts`, `warnings`, `builtNodes`: the attempts to fold, those that fail, and the nodes in the
  operands that rules built.
* `Evaluator.weighs_run`: attempts beyond the nodes in these operands, under any rules.
* `Evaluator.weighs_run_of_isNormal`, `Evaluator.weighs_settle_of_normal_operands`: attempts for
  normal expressions, and for nodes with normal operands.
* `Evaluator.attempts_bounded`: the bounds for evaluations under the standard rules.
-/

namespace Residual

/-! ## Nodes of an expression -/

namespace Expr

mutual

/-- The number of calls and typed terms. -/
def nodeCount : Expr → Nat
  | const _ => 0
  | var _ => 0
  | call _ args => 1 + totalNodes args
  | term l d => 1 + (l.nodeCount + d.nodeCount)

/-- The number of calls and typed terms in all expressions of a list. -/
def totalNodes : List Expr → Nat
  | [] => 0
  | e :: es => e.nodeCount + totalNodes es

end

@[simp] theorem nodeCount_const (v : Value) : (const v).nodeCount = 0 := by
  rw [nodeCount]

theorem totalNodes_eq_sum (es : List Expr) : totalNodes es = (es.map nodeCount).sum := by
  induction es with
  | nil => rfl
  | cons e es ih => rw [totalNodes, ih, List.map_cons, List.sum_cons]

theorem nodeCount_node {e : Expr} (he : e.isNode = true) :
    e.nodeCount = 1 + (e.operands.map nodeCount).sum := by
  cases e with
  | const v => cases he
  | var x => cases he
  | call name args => rw [nodeCount, totalNodes_eq_sum, operands]
  | term l d => simp [nodeCount, operands]

theorem nodeCount_pos {e : Expr} (he : e.isNode = true) : 0 < e.nodeCount := by
  rw [nodeCount_node he]
  omega

theorem sum_nodeCount_operands_le (e : Expr) :
    (e.operands.map nodeCount).sum ≤ e.nodeCount := by
  cases he : e.isNode with
  | true =>
    rw [nodeCount_node he]
    omega
  | false => cases e <;> simp_all [isNode, operands]

theorem nodeCount_mapOperands_le {f : Expr → Expr} {e : Expr}
    (h : ∀ a ∈ e.operands, (f a).nodeCount ≤ a.nodeCount) :
    (e.mapOperands f).nodeCount ≤ e.nodeCount := by
  cases he : e.isNode with
  | true =>
    rw [nodeCount_node he, nodeCount_node (by rwa [isNode_mapOperands]), operands_mapOperands,
      List.map_map]
    exact Nat.add_le_add_left (List.sum_le_sum h) 1
  | false => cases e <;> simp_all [isNode, mapOperands, withOperands]

theorem nodeCount_str_lt (l d : Expr) :
    (apply .str [l]).nodeCount < (apply .str [term l d]).nodeCount := by
  simp only [apply, nodeCount, totalNodes]
  omega

theorem sum_map_cube_le (es : List Expr) :
    (es.map fun a => a.nodeCount ^ 3).sum ≤ (es.map nodeCount).sum ^ 3 := by
  induction es with
  | nil => simp
  | cons e es ih =>
    simp only [List.map_cons, List.sum_cons]
    exact Nat.le_trans (Nat.add_le_add_left ih _)
      (pow_add_pow_le (Nat.zero_le _) (Nat.zero_le _) (by decide))

end Expr

open Residual.Expr Rule

theorem StandardStep.nodeCount_le {e e' : Expr} (h : StandardStep e e') :
    e'.nodeCount ≤ e.nodeCount := by
  cases h with
  | str l d =>
    simp only [typedLiteral, apply, nodeCount, totalNodes]
    omega
  | datatypeName l name => exact Nat.zero_le _
  | datatype l d hd =>
    simp only [apply, nodeCount, totalNodes]
    omega
  | concat args hinner =>
    simp only [apply, nodeCount, totalNodes_eq_sum]
    refine Nat.add_le_add_left (sum_map_spliced_le (fun inner => ?_) args) 1
    exact sum_nodeCount_operands_le (apply .concat inner)

/-! ## Counting questions -/

namespace Event

/-- Whether the evaluator of constants was asked. -/
def isAttempt : Event → Bool
  | folded _ _ => true
  | offered _ _ => false

/-- The operands of what the rules gave. They are evaluated again. -/
def built : Event → List Expr
  | offered _ (some e) => e.operands
  | _ => []

/-- A question to the evaluator of constants is one attempt, and the nodes that a rule has evaluated
again are set against it, each with a given weight. -/
def charge (discount : Int) (q : Event) : Int :=
  (if q.isAttempt then 1 else 0) - discount * totalNodes q.built

@[simp] theorem charge_folded (discount : Int) (n : Expr) (answer : Except FoldError Value) :
    (folded n answer).charge discount = 1 := by
  simp [charge, isAttempt, built, totalNodes]

@[simp] theorem charge_refused (discount : Int) (n : Expr) :
    (offered n none).charge discount = 0 := by
  simp [charge, isAttempt, built, totalNodes]

@[simp] theorem charge_rewritten (discount : Int) (n e : Expr) :
    (offered n (some e)).charge discount =
      -(discount * ((e.operands.map nodeCount).sum : Nat)) := by
  simp [charge, isAttempt, built, totalNodes_eq_sum]

end Event

/-- The number of attempts to fold a node. -/
def attempts (asked : List Event) : Nat := asked.countP Event.isAttempt

/-- The number of attempts that failed for another reason than values that cannot be compared: they
leave warnings in the log. -/
def warnings (asked : List Event) : Nat := (logOf asked).countP fun entry => entry.level = .warn

/-- The number of nodes in the operands that rules built, over all rewritings. -/
def builtNodes (asked : List Event) : Nat := totalNodes (asked.flatMap Event.built)

theorem warnings_le_attempts (asked : List Event) : warnings asked ≤ attempts asked := by
  rw [warnings, attempts, logOf, List.countP_filterMap]
  refine List.countP_mono_left fun q _ hq => ?_
  cases q with
  | folded n answer => rfl
  | offered n answer => cases answer <;> simp [Event.logEntry?, LogEntry.level] at hq

theorem sum_map_charge (discount : Int) (asked : List Event) :
    (asked.map (Event.charge discount)).sum = attempts asked - discount * builtNodes asked := by
  induction asked with
  | nil => simp [attempts, builtNodes, totalNodes]
  | cons q asked ih =>
    rw [List.map_cons, List.sum_cons, ih, Event.charge, attempts, attempts, builtNodes, builtNodes,
      List.countP_cons, List.flatMap_cons, totalNodes_eq_sum, totalNodes_eq_sum, totalNodes_eq_sum,
      List.map_append, List.sum_append, Int.natCast_add, Int.natCast_add, Int.mul_add]
    split <;> omega

/-- If no rule applies, no rule builds anything. -/
theorem builtNodes_eq_zero {asked : List Event} (h : ∀ n n', .offered n (some n') ∉ asked) :
    builtNodes asked = 0 := by
  have hbuilt : asked.flatMap Event.built = [] := by
    refine List.flatMap_eq_nil_iff.mpr fun q hq => ?_
    cases q with
    | folded n answer => rfl
    | offered n answer =>
      cases answer with
      | none => rfl
      | some n' => exact absurd hq (h n n')
  rw [builtNodes, hbuilt, totalNodes]

namespace Evaluator

open Run

/-! ## Attempts for a node -/

section

variable {ev : Evaluator} {eval : Expr → Run Expr} {discount : Int} {e : Expr}

theorem weighs_settle_of_refused (hrule : ev.rewritten? e = none) :
    (ev.settle eval e).Weighs (Event.charge discount) (1 : Nat) :=
  weighs_settle_of_none (by simp) (by simp) hrule

theorem weighs_settle_of_rewritten {e' : Expr} {cost : Expr → Nat} {n : Nat}
    (hrule : ev.rewritten? e = some e')
    (h : ∀ a ∈ e'.operands, (eval a).Weighs (Event.charge discount) (cost a))
    (hn : ((e'.operands.map cost).sum : Nat) + 1 ≤
      n + discount * ((e'.operands.map nodeCount).sum : Nat)) :
    (ev.settle eval e).Weighs (Event.charge discount) n := by
  refine (weighs_settle_of_some (by simp) hrule h).mono ?_
  rw [Event.charge_rewritten]
  omega

end

theorem weighs_run_of_not_isNode {ev : Evaluator} {w : Event → Int} {e : Expr}
    (he : e.isNode = false) (depth : Nat) : (ev.run depth ∅ e).Weighs w 0 := by
  cases depth with
  | zero => exact weighs_stop
  | succ depth =>
    cases e with
    | const v => exact weighs_pure _
    | var x => exact weighs_pure _
    | call name args => cases he
    | term l d => cases he

/-! ## Attempts under any rules -/

/-- Under any rules, attempts less the nodes that are evaluated again. -/
theorem weighs_run (ev : Evaluator) (depth : Nat) (b : Binding) (e : Expr) :
    (ev.run depth b e).Weighs (Event.charge 1) (e.substitute b).nodeCount := by
  induction depth generalizing b e with
  | zero => exact weighs_stop
  | succ depth ih =>
    have hinner : ∀ a, (ev.run depth ∅ a).Weighs (Event.charge 1) a.nodeCount := fun a => by
      simpa only [substitute_empty] using ih ∅ a
    -- what the operands of a rewriting cost is set against them
    have hsettle : ∀ e', (ev.settle (ev.run depth ∅) e').Weighs (Event.charge 1) (1 : Nat) := by
      intro e'
      cases hrule : ev.rewritten? e' with
      | none => exact weighs_settle_of_refused hrule
      | some e'' => exact weighs_settle_of_rewritten hrule (fun a _ => hinner a) (by omega)
    cases he : e.isNode with
    | true =>
      have hnode : (e.mapOperands (substitute b)).isNode = true := by rwa [isNode_mapOperands]
      rw [run_node ev depth b he, substitute_node he, nodeCount_node hnode, operands_mapOperands,
        List.map_map, Nat.add_comm]
      exact weighs_evaluateNode (fun a _ => ih b a) fun e' _ => hsettle e'
    | false =>
      cases e with
      | const v => exact (weighs_pure _).mono (Int.natCast_nonneg _)
      | var x =>
        rw [run, substitute_var]
        cases b.find? x with
        | none => exact (weighs_pure _).mono (Int.natCast_nonneg _)
        | some bound => exact hinner bound
      | call name args => cases he
      | term l d => cases he

/-! ## Attempts under the standard rules -/

theorem add_sq_lt_sq {m n : Nat} (h : m < n) : m + m ^ 2 < n ^ 2 :=
  calc m + m ^ 2
      < (m + 1) ^ 2 := by rw [Nat.pow_two, Nat.pow_two, Nat.add_mul, Nat.mul_add]; omega
    _ ≤ n ^ 2 := Nat.pow_le_pow_left h 2

theorem cube_add_sq_le_cube (m : Nat) : m ^ 3 + (1 + m) ^ 2 ≤ (1 + m) ^ 3 :=
  calc m ^ 3 + (1 + m) ^ 2
      = m ^ 2 * m + (1 + m) ^ 2 := by rw [Nat.pow_succ]
    _ ≤ (1 + m) ^ 2 * m + (1 + m) ^ 2 := by
      exact Nat.add_le_add_right (Nat.mul_le_mul_right m (Nat.pow_le_pow_left (by omega) 2)) _
    _ = (1 + m) ^ 3 := by rw [Nat.pow_succ (1 + m) 2, Nat.mul_add, Nat.mul_one, Nat.add_comm]

theorem HasStandardRules.nonIncreasing_nodeCount {ev : Evaluator} (hev : ev.HasStandardRules) :
    ev.NonIncreasing nodeCount where
  typeError_le _ := Nat.zero_le _
  const_le _ _ _ := Nat.zero_le _
  mapOperands_le _ _ h := nodeCount_mapOperands_le h
  rewritten_le _ _ hrule := (hev.step hrule).nodeCount_le

section

variable {ev : Evaluator} (hev : ev.HasStandardRules) {e : Expr}

include hev

/-- A node with normal operands is settled as it is. -/
theorem weighs_run_of_settle {depth n : Nat} (he : e.isNode = true)
    (hnormal : ∀ a ∈ e.operands, ev.IsNormal a)
    (hoperands : ∀ a ∈ e.operands, (ev.run depth ∅ a).Weighs (Event.charge 0) a.nodeCount)
    (hsettle : (ev.settle (ev.run depth ∅) e).Weighs (Event.charge 0) n) :
    (ev.run (depth + 1) ∅ e).Weighs (Event.charge 0)
      ((e.operands.map nodeCount).sum + n : Nat) := by
  rw [run_node ev depth ∅ he]
  refine weighs_evaluateNode hoperands fun e' he' => ?_
  have hself : e' = e := by
    rw [(rebuilt_of_result he he').eq_mapOperands hev.nonGrowing]
    exact mapOperands_eq_self fun a ha => (hnormal a ha).evaluate_eq hev.nonGrowing
  rwa [hself]

/-- In a normal expression there is nothing to rewrite. -/
theorem weighs_run_of_isNormal (h : ev.IsNormal e) (depth : Nat) :
    (ev.run depth ∅ e).Weighs (Event.charge 0) e.nodeCount := by
  induction h generalizing depth with
  | const v => exact weighs_run_of_not_isNode rfl depth
  | var x => exact weighs_run_of_not_isNode rfl depth
  | node e he hnormal hno hrule hfold ih =>
    cases depth with
    | zero => exact weighs_stop
    | succ depth =>
      rw [nodeCount_node he, Nat.add_comm 1]
      exact weighs_run_of_settle hev he hnormal (fun a ha => ih a ha depth)
        (weighs_settle_of_refused hrule)

/-- The step: the operands of what a rule gives are normal, except for a call that it builds. -/
theorem weighs_settle_of_built {eval : Expr → Run Expr} (he : e.isNode = true)
    (hoperands : ∀ a ∈ e.operands, ev.IsNormal a ∧ a ≠ typeError)
    (hnormal : ∀ a, ev.IsNormal a → (eval a).Weighs (Event.charge 0) a.nodeCount)
    (hstr : ∀ l, ev.IsNormal l → l ≠ typeError → (eval (apply .str [l])).Weighs (Event.charge 0)
      ((apply .str [l]).nodeCount + (apply .str [l]).nodeCount ^ 2 : Nat)) :
    (ev.settle eval e).Weighs (Event.charge 0) (e.nodeCount ^ 2 : Nat) := by
  have hpos := nodeCount_pos he
  have hle : e.nodeCount ≤ e.nodeCount ^ 2 := Nat.le_self_pow (by omega) _
  cases hrule : ev.rewritten? e with
  | none => exact (weighs_settle_of_refused hrule).mono (by omega)
  | some e' =>
    have hquiet (hargs : ∀ a ∈ e'.operands, ev.IsNormal a)
        (hlt : (e'.operands.map nodeCount).sum < e.nodeCount) :
        (ev.settle eval e).Weighs (Event.charge 0) (e.nodeCount ^ 2 : Nat) :=
      weighs_settle_of_rewritten hrule (fun a ha => hnormal a (hargs a ha)) (by omega)
    cases hev.step hrule with
    | str l d =>
      have hterm : ev.IsNormal (term l d) := (hoperands _ (List.mem_singleton_self _)).1
      obtain ⟨hl, hno⟩ := hterm.operands l (by simp [operands])
      let cost (a : Expr) : Nat := a.nodeCount + a.nodeCount ^ 2
      have hcost : ∀ a ∈ (typedLiteral (apply .str [l]) Xsd.string).operands,
          (eval a).Weighs (Event.charge 0) (cost a) := by
        intro a ha
        rcases List.mem_cons.mp ha with rfl | ha
        · exact hstr l hl hno
        · rw [List.mem_singleton.mp ha]
          exact hnormal _ (.const _)
      refine weighs_settle_of_rewritten hrule hcost ?_
      have hfewer := add_sq_lt_sq (nodeCount_str_lt l d)
      simp only [typedLiteral, operands, List.map_cons, List.map_nil, List.sum_cons, List.sum_nil,
        cost, nodeCount_const]
      omega
    | datatypeName l name => exact hquiet (by simp [operands]) (by simpa [operands] using hpos)
    | datatype l d hd =>
      have hterm : ev.IsNormal (term l e') := (hoperands _ (List.mem_singleton_self _)).1
      have hslot : ev.IsNormal e' := (hterm.operands e' (by simp [operands])).1
      refine hquiet (fun a ha => (hslot.operands a ha).1) ?_
      have hle' := sum_nodeCount_operands_le e'
      simp only [apply, nodeCount, totalNodes]
      omega
    | concat args hinner =>
      refine hquiet (fun a ha => (spliced_isNormal hoperands a ha).1) ?_
      have hle' := (hev.step hrule).nodeCount_le
      rw [nodeCount_node (e := apply .concat (spliced args)) rfl] at hle'
      exact Nat.lt_of_succ_le (by omega)

theorem weighs_settle_of_normal_operands (depth : Nat) (he : e.isNode = true)
    (hoperands : ∀ a ∈ e.operands, ev.IsNormal a ∧ a ≠ typeError) :
    (ev.settle (ev.run depth ∅) e).Weighs (Event.charge 0) (e.nodeCount ^ 2 : Nat) := by
  induction depth generalizing e with
  | zero =>
    exact weighs_settle_of_built hev he hoperands (fun a ha => weighs_run_of_isNormal hev ha 0)
      fun _ _ _ => weighs_stop
  | succ depth ih =>
    have hnormal (depth : Nat) : ∀ a, ev.IsNormal a →
        (ev.run depth ∅ a).Weighs (Event.charge 0) a.nodeCount :=
      fun a ha => weighs_run_of_isNormal hev ha depth
    refine weighs_settle_of_built hev he hoperands (hnormal (depth + 1)) fun l hl hno => ?_
    have hargs : ∀ a ∈ (apply .str [l]).operands, ev.IsNormal a ∧ a ≠ typeError :=
      List.forall_mem_singleton.mpr ⟨hl, hno⟩
    refine (weighs_run_of_settle hev rfl (fun a ha => (hargs a ha).1)
      (fun a ha => hnormal depth a (hargs a ha).1) (ih rfl hargs)).mono (Int.ofNat_le.mpr ?_)
    exact Nat.add_le_add_right (sum_nodeCount_operands_le _) _

theorem weighs_run_empty (depth : Nat) (e : Expr) :
    (ev.run depth ∅ e).Weighs (Event.charge 0) (e.nodeCount ^ 3 : Nat) := by
  induction depth generalizing e with
  | zero => exact weighs_stop
  | succ depth ih =>
    cases he : e.isNode with
    | false => exact (weighs_run_of_not_isNode he _).mono (Int.natCast_nonneg _)
    | true =>
      have hle : (e.operands.map fun a => a.nodeCount ^ 3).sum + e.nodeCount ^ 2 ≤
          e.nodeCount ^ 3 := by
        rw [nodeCount_node he]
        exact Nat.le_trans (Nat.add_le_add_right (sum_map_cube_le _) _) (cube_add_sq_le_cube _)
      rw [run_node ev depth ∅ he]
      refine (weighs_evaluateNode (fun a _ => ih a) fun e' he' => ?_).mono (Int.ofNat_le.mpr hle)
      have hrebuilt := rebuilt_of_result he he'
      have hno := hrebuilt.noTypeError
      obtain rfl := hrebuilt.eq_mapOperands hev.nonGrowing
      have hnormal : ∀ a ∈ (e.mapOperands (ev.evaluate ∅)).operands, ev.IsNormal a :=
        forall_operands_mapOperands.mpr fun a _ => isNormal_evaluate_empty hev a
      have hcount : (e.mapOperands (ev.evaluate ∅)).nodeCount ≤ e.nodeCount :=
        nodeCount_mapOperands_le fun a _ =>
          hev.nonIncreasing_nodeCount.evaluate_empty_le hev.nonGrowing a
      refine (weighs_settle_of_normal_operands hev depth (by rwa [isNode_mapOperands])
        fun a ha => ⟨hnormal a ha, hno a ha⟩).mono ?_
      exact Int.ofNat_le.mpr (Nat.pow_le_pow_left hcount 2)

end

/-! ## Attempts of an evaluation -/

/-- **Attempts to fold.** Under the standard rules or none, whatever the registry and the evaluator
of constants, an evaluation without a binding leaves no more warnings than it makes attempts to fold
a node. It makes at most one attempt for every node of the expression, and for every node in the
operands of what the rules give, since these are evaluated again; so if no rule applies, there is at
most one attempt for every node. In any case there are no more attempts than the cube of the number
of nodes. -/
theorem attempts_bounded {ev : Evaluator} (hev : ev.HasStandardRules) (e : Expr) :
    let asked := ev.traceOf ∅ e
    ev.run (depthFor ∅ e) ∅ e = some (ev.evaluate ∅ e, asked) ∧
      warnings asked ≤ attempts asked ∧
      attempts asked ≤ e.nodeCount + builtNodes asked ∧
      ((∀ n n', .offered n (some n') ∉ asked) → attempts asked ≤ e.nodeCount) ∧
      attempts asked ≤ e.nodeCount ^ 3 := by
  intro asked
  have hrun : ev.run (depthFor ∅ e) ∅ e = some (ev.evaluate ∅ e, asked) :=
    run_depthFor hev.nonGrowing ∅ e
  have hcharged := weighs_run ev _ ∅ e _ _ hrun
  have hcube := weighs_run_empty hev _ e _ _ hrun
  rw [sum_map_charge] at hcharged hcube
  rw [substitute_empty] at hcharged
  refine ⟨hrun, warnings_le_attempts asked, by omega, fun hnone => ?_, by omega⟩
  have hbuilt : builtNodes asked = 0 := builtNodes_eq_zero hnone
  omega

/-- Three divisions by zero, two concatenations deep: each is tried again when the concatenations
are spliced. No rule applies to a division by itself. -/
theorem attempts_bounded_at :
    let quotient := apply .div [const (.integer 1), const (.integer 0)]
    let e := apply .concat [apply .concat [quotient, quotient, quotient]]
    standard.HasStandardRules ∧
      ((e.nodeCount = 5 ∧ builtNodes (standard.traceOf ∅ e) = 3) ∧
        attempts (standard.traceOf ∅ e) ≤ 5 + 3 ∧ attempts (standard.traceOf ∅ e) ≤ 5 ^ 3) ∧
      (∀ n n', .offered n (some n') ∉ standard.traceOf ∅ quotient) ∧
        attempts (standard.traceOf ∅ quotient) ≤ 1 := by
  intro quotient e
  have hev : standard.HasStandardRules := Or.inr rfl
  have hcount : e.nodeCount = 5 := rfl
  have hbuilt : builtNodes (standard.traceOf ∅ e) = 3 := by decide +kernel
  have htrace : standard.traceOf ∅ quotient =
    [.offered quotient none, .folded quotient (.error .divisionByZero)] := rfl
  have hnone : ∀ n n', .offered n (some n') ∉ standard.traceOf ∅ quotient := by
    simp [htrace]
  obtain ⟨-, -, hcharged, -, hcube⟩ := attempts_bounded hev e
  rw [hcount, hbuilt] at hcharged
  rw [hcount] at hcube
  exact ⟨hev, ⟨⟨hcount, hbuilt⟩, hcharged, hcube⟩, hnone,
    (attempts_bounded hev quotient).2.2.2.1 hnone⟩

/-- Of these five nodes, three fail twice. -/
theorem warnings_exceed_nodes :
    let quotient := apply .div [const (.integer 1), const (.integer 0)]
    let e := apply .concat [apply .concat [quotient, quotient, quotient]]
    e.nodeCount = 5 ∧ warnings (standard.traceOf ∅ e) = 6 ∧
      ¬ warnings (standard.traceOf ∅ e) ≤ e.nodeCount := by
  intro quotient e
  have hcount : e.nodeCount = 5 := rfl
  have hwarnings : warnings (standard.traceOf ∅ e) = 6 := by decide +kernel
  exact ⟨hcount, hwarnings, by omega⟩

end Evaluator

end Residual
