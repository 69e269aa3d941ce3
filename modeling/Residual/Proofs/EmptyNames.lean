import Residual.Expr.Printer
import Residual.Proofs.Constant
import Residual.Proofs.StandardRules

/-!
# The empty name is no name

A call may have no name, or the empty one. The two are kept apart in the tree, but nothing that is
done with a call tells them apart: the table and the rules, the gate, the evaluator of constants and
the printer look at the identifier of a call, and the empty name is none. So an expression may be
evaluated before or after its empty names are dropped.

* `Expr.dropEmptyNames`: the expression without empty names.
* `Expr.substitute_dropEmptyNames`: names are dropped before or after a substitution.
* `Evaluator.HasStandardRules.rewritten?_dropEmptyNames`, `Evaluator.folded_dropEmptyNames`:
  rewriting and folding of a node.
* `Evaluator.evaluate_dropEmptyNames`: evaluation, values and printed forms do not depend on empty
  names.
-/

namespace Residual

open Residual.Expr Rule

namespace Expr

/-! ## Dropping empty names -/

mutual

/-- The expression with no name in place of the empty one, in every call. -/
def dropEmptyNames : Expr → Expr
  | const v => const v
  | var x => var x
  | call name args => call (if name = some "" then none else name) (dropAllEmptyNames args)
  | term l d => term l.dropEmptyNames d.dropEmptyNames

/-- The expressions of a list without empty names. -/
def dropAllEmptyNames : List Expr → List Expr
  | [] => []
  | e :: es => e.dropEmptyNames :: dropAllEmptyNames es

end

theorem dropAllEmptyNames_eq_map (es : List Expr) :
    dropAllEmptyNames es = es.map dropEmptyNames := by
  induction es with
  | nil => rfl
  | cons e es ih => simp [dropAllEmptyNames, ih]

theorem identifierOf_eq_ite (name : Option String) :
    identifierOf name = if name = some "" then none else name := by
  cases name with
  | none => rfl
  | some f =>
    by_cases h : f = ""
    · subst h
      rfl
    · rw [identifierOf_eq_some_iff.mpr ⟨rfl, h⟩, if_neg (by simpa using h)]

theorem identifierOf_identifierOf (name : Option String) :
    identifierOf (identifierOf name) = identifierOf name := by
  cases h : identifierOf name with
  | none => rfl
  | some f => exact identifierOf_eq_some_iff.mpr ⟨rfl, (identifierOf_eq_some_iff.mp h).2⟩

@[simp] theorem dropEmptyNames_const (v : Value) : (const v).dropEmptyNames = const v := rfl

@[simp] theorem dropEmptyNames_var (x : String) : (var x).dropEmptyNames = var x := rfl

@[simp] theorem dropEmptyNames_call (name : Option String) (args : List Expr) :
    (call name args).dropEmptyNames = call (identifierOf name) (args.map dropEmptyNames) := by
  rw [dropEmptyNames, dropAllEmptyNames_eq_map, identifierOf_eq_ite]

@[simp] theorem dropEmptyNames_term (l d : Expr) :
    (term l d).dropEmptyNames = term l.dropEmptyNames d.dropEmptyNames := rfl

@[simp] theorem dropEmptyNames_apply (op : Operator) (args : List Expr) :
    (apply op args).dropEmptyNames = apply op (args.map dropEmptyNames) := by
  rw [apply, dropEmptyNames_call, identifierOf_eq_some_iff.mpr ⟨rfl, op.name_ne_empty⟩, apply]

/-! ## What is kept -/

variable {e : Expr}

@[simp] theorem isConst_dropEmptyNames (e : Expr) : e.dropEmptyNames.isConst = e.isConst := by
  cases e <;> rfl

@[simp] theorem isNode_dropEmptyNames (e : Expr) : e.dropEmptyNames.isNode = e.isNode := by
  cases e <;> rfl

@[simp] theorem operands_dropEmptyNames (e : Expr) :
    e.dropEmptyNames.operands = e.operands.map dropEmptyNames := by
  cases e with
  | const v => rfl
  | var x => rfl
  | call name args => rw [dropEmptyNames_call]; rfl
  | term l d => rfl

@[simp] theorem identifier?_dropEmptyNames (e : Expr) :
    e.dropEmptyNames.identifier? = e.identifier? := by
  cases e with
  | const v => rfl
  | var x => rfl
  | call name args => rw [dropEmptyNames_call, identifier?, identifier?, identifierOf_identifierOf]
  | term l d => rfl

/-- Names are dropped in operands before or after these give way to others. -/
theorem mapOperands_dropEmptyNames {f g : Expr → Expr}
    (h : ∀ a ∈ e.operands, (f a).dropEmptyNames = g a.dropEmptyNames) :
    (e.mapOperands f).dropEmptyNames = e.dropEmptyNames.mapOperands g := by
  cases e with
  | const v => rfl
  | var x => rfl
  | call name args =>
    simp only [mapOperands_call, dropEmptyNames_call, List.map_map, call.injEq, true_and]
    exact List.map_congr_left h
  | term l d =>
    simp only [mapOperands_term, dropEmptyNames_term, term.injEq]
    exact ⟨h l (by simp [operands]), h d (by simp [operands])⟩

theorem substitute_dropEmptyNames (b : Binding) (e : Expr) :
    (e.substitute b).dropEmptyNames = e.dropEmptyNames.substitute (b.map dropEmptyNames) := by
  induction e using nodeInduction with
  | const v => rw [substitute_const, dropEmptyNames_const, substitute_const]
  | var x =>
    rw [dropEmptyNames_var, substitute_var, substitute_var, Dictionary.find?_map]
    cases b.find? x <;> rfl
  | node e he ih =>
    rw [substitute_node he, substitute_node (by rwa [isNode_dropEmptyNames])]
    exact mapOperands_dropEmptyNames ih

/-! ## Values and printed forms -/

theorem ofCall_identifierOf (name : Option String) (count : Nat) :
    Operator.ofCall (identifierOf name) count = Operator.ofCall name count := by
  rw [Operator.ofCall, identifierOf_identifierOf, Operator.ofCall]

theorem evaluateConstant_dropEmptyNames (e : Expr) :
    evaluateConstant e.dropEmptyNames = evaluateConstant e := by
  induction e using Expr.induction with
  | const v => rfl
  | var x => rfl
  | call name args ih =>
    have hargs : evaluateConstants (args.map dropEmptyNames) = evaluateConstants args := by
      induction args with
      | nil => rfl
      | cons a args iha =>
        rw [List.map_cons, evaluateConstants, evaluateConstants, ih a List.mem_cons_self,
          iha fun c hc => ih c (List.mem_cons_of_mem a hc)]
    rw [dropEmptyNames_call, evaluateConstant, evaluateConstant, List.length_map,
      ofCall_identifierOf, hargs]
  | term l d hl hd => rw [dropEmptyNames_term, evaluateConstant, evaluateConstant, hl, hd]

theorem text_dropEmptyNames (e : Expr) : e.dropEmptyNames.text = e.text := by
  induction e using Expr.induction with
  | const v => rfl
  | var x => rfl
  | call name args ih =>
    have hargs : (args.map dropEmptyNames).map text = args.map text := by
      rw [List.map_map]
      exact List.map_congr_left ih
    have hcall : ∀ texts, callText (identifierOf name) texts = callText name texts := by
      intro texts
      simp only [callText, infixOperator?, identifierOf_identifierOf]
    rw [dropEmptyNames_call, text, text, texts_eq_map, texts_eq_map, hargs, hcall]
  | term l d hl hd => rw [dropEmptyNames_term, text, text, hl, hd]

end Expr

/-! ## Rules -/

theorem Expr.eq_apply_of_dropEmptyNames {e : Expr} {op : Operator} {args : List Expr}
    (h : e.dropEmptyNames = apply op args) :
    ∃ args', e = apply op args' ∧ args'.map dropEmptyNames = args := by
  cases e with
  | const v => cases h
  | var x => cases h
  | term l d => cases h
  | call name args' =>
    rw [dropEmptyNames_call] at h
    obtain ⟨hname, hargs⟩ := call.inj h
    obtain ⟨rfl, -⟩ := identifierOf_eq_some_iff.mp hname
    exact ⟨args', rfl, hargs⟩

theorem Expr.eq_term_of_dropEmptyNames {e l d : Expr} (h : e.dropEmptyNames = term l d) :
    ∃ l' d', e = term l' d' := by
  cases e with
  | const v => cases h
  | var x => cases h
  | term l d => exact ⟨l, d, rfl⟩
  | call name args =>
    rw [dropEmptyNames_call] at h
    cases h

theorem Expr.eq_const_of_dropEmptyNames {e : Expr} {v : Value} (h : e.dropEmptyNames = const v) :
    e = const v := by
  cases e with
  | const w => exact h
  | var x => cases h
  | term l d => cases h
  | call name args =>
    rw [dropEmptyNames_call] at h
    cases h

theorem Rule.concatArgs?_dropEmptyNames (e : Expr) :
    concatArgs? e.dropEmptyNames = (concatArgs? e).map (List.map Expr.dropEmptyNames) := by
  cases hargs : concatArgs? e with
  | some args =>
    rw [concatArgs?_eq_some_iff.mp hargs, dropEmptyNames_apply]
    exact concatArgs?_eq_some_iff.mpr rfl
  | none =>
    refine Option.eq_none_iff_forall_ne_some.mpr fun args h => ?_
    obtain ⟨args', rfl, -⟩ := eq_apply_of_dropEmptyNames (concatArgs?_eq_some_iff.mp h)
    rw [concatArgs?_eq_some_iff.mpr rfl] at hargs
    cases hargs

theorem Rule.spliced_map_dropEmptyNames (args : List Expr) :
    spliced (args.map Expr.dropEmptyNames) = (spliced args).map Expr.dropEmptyNames := by
  rw [spliced, spliced, List.flatMap_map, List.map_flatMap]
  congr 1
  funext a
  rw [concatArgs?_dropEmptyNames]
  cases concatArgs? a <;> rfl

theorem StandardStep.dropEmptyNames {e e' : Expr} (h : StandardStep e e') :
    StandardStep e.dropEmptyNames e'.dropEmptyNames := by
  cases h with
  | str l d =>
    rw [typedLiteral, dropEmptyNames_term, dropEmptyNames_apply, dropEmptyNames_apply]
    exact .str _ _
  | datatypeName l name =>
    rw [dropEmptyNames_apply]
    exact .datatypeName _ name
  | datatype l d hd =>
    rw [dropEmptyNames_apply]
    exact .datatype _ _ fun name hname => hd name (eq_const_of_dropEmptyNames hname)
  | concat args hinner =>
    obtain ⟨inner, hinner⟩ := hinner
    rw [dropEmptyNames_apply, dropEmptyNames_apply, ← spliced_map_dropEmptyNames]
    refine .concat _ ⟨inner.map Expr.dropEmptyNames, ?_⟩
    rw [← dropEmptyNames_apply]
    exact List.mem_map_of_mem hinner

/-- A node that is rewritten without its empty names is rewritten with them. -/
theorem StandardStep.of_dropEmptyNames {e f : Expr} (h : StandardStep e.dropEmptyNames f) :
    ∃ e', StandardStep e e' := by
  have hsingle : ∀ {args : List Expr} {l d : Expr}, args.map Expr.dropEmptyNames = [term l d] →
      ∃ l' d', args = [term l' d'] := by
    intro args l d hargs
    obtain ⟨a, rfl, ha⟩ := List.map_eq_singleton_iff.mp hargs
    obtain ⟨l', d', rfl⟩ := eq_term_of_dropEmptyNames ha
    exact ⟨l', d', rfl⟩
  generalize he : e.dropEmptyNames = g at h
  cases h with
  | str l d =>
    obtain ⟨args, rfl, hargs⟩ := eq_apply_of_dropEmptyNames he
    obtain ⟨l', d', rfl⟩ := hsingle hargs
    exact ⟨_, .str l' d'⟩
  | datatypeName l name =>
    obtain ⟨args, rfl, hargs⟩ := eq_apply_of_dropEmptyNames he
    obtain ⟨l', d', rfl⟩ := hsingle hargs
    exact ⟨_, .datatype_slotForm l' d'⟩
  | datatype l d hd =>
    obtain ⟨args, rfl, hargs⟩ := eq_apply_of_dropEmptyNames he
    obtain ⟨l', d', rfl⟩ := hsingle hargs
    exact ⟨_, .datatype_slotForm l' d'⟩
  | concat args hinner =>
    obtain ⟨args', rfl, rfl⟩ := eq_apply_of_dropEmptyNames he
    obtain ⟨inner, hinner⟩ := hinner
    obtain ⟨a, ha, hconcat⟩ := List.mem_map.mp hinner
    obtain ⟨inner', rfl, -⟩ := eq_apply_of_dropEmptyNames hconcat
    exact ⟨_, .concat args' ⟨inner', ha⟩⟩

namespace Evaluator

/-! ## Evaluation -/

variable {ev : Evaluator}

theorem HasStandardRules.rewritten?_dropEmptyNames (hev : ev.HasStandardRules) (e : Expr) :
    ev.rewritten? e.dropEmptyNames = (ev.rewritten? e).map Expr.dropEmptyNames := by
  cases hrule : ev.rewritten? e with
  | some e' => exact hev.rewritten?_of_step hrule (hev.step hrule).dropEmptyNames
  | none =>
    refine Option.eq_none_iff_forall_ne_some.mpr fun f hf => ?_
    obtain ⟨e', hstep⟩ := (hev.step hf).of_dropEmptyNames
    rw [hev.rewritten?_of_step hf hstep] at hrule
    cases hrule

/-- The evaluator of constants gives the same answer whether or not empty names are dropped. -/
def IgnoresEmptyNames (ev : Evaluator) : Prop := ∀ e, ev.constants e.dropEmptyNames = ev.constants e

theorem isFoldable_dropEmptyNames (ev : Evaluator) (e : Expr) :
    ev.isFoldable e.dropEmptyNames = ev.isFoldable e := by
  simp [isFoldable, List.all_map, Function.comp_def]

theorem folded_dropEmptyNames (hconst : ev.IgnoresEmptyNames) (e : Expr) :
    (ev.folded e).dropEmptyNames = ev.folded e.dropEmptyNames := by
  rw [folded, folded, isFoldable_dropEmptyNames, hconst]
  split
  · cases ev.constants e with
    | ok v => rfl
    | error err =>
      rw [foldedTo, foldedTo]
      split <;> rfl
  · rfl

theorem onOperands_dropEmptyNames {eval eval' next next' : Expr → Expr} {e : Expr}
    (heval : ∀ a ∈ e.operands, (eval a).dropEmptyNames = eval' a.dropEmptyNames)
    (hnext : (next (e.mapOperands eval)).dropEmptyNames =
      next' (e.mapOperands eval).dropEmptyNames) :
    (onOperands eval next e).dropEmptyNames = onOperands eval' next' e.dropEmptyNames := by
  rcases onOperands_cases eval next e with ⟨a, ha, htype, heq⟩ | ⟨hno, heq⟩
  · have ha' : a.dropEmptyNames ∈ e.dropEmptyNames.operands := by
      rw [operands_dropEmptyNames]
      exact List.mem_map_of_mem ha
    rw [heq, onOperands_of_typeError ha' (by rw [← heval a ha, htype]; rfl)]
    rfl
  · rw [heq, hnext, mapOperands_dropEmptyNames heval, onOperands_of_noTypeError]
    rw [operands_dropEmptyNames, List.forall_mem_map]
    intro a ha htype
    rw [← heval a ha] at htype
    exact hno a ha (eq_const_of_dropEmptyNames htype)

theorem settled_dropEmptyNames (hev : ev.HasStandardRules) (hconst : ev.IgnoresEmptyNames)
    {eval : Expr → Expr} {e : Expr}
    (heval : ∀ a, a.size < e.size → (eval a).dropEmptyNames = eval a.dropEmptyNames) :
    (ev.settled eval e).dropEmptyNames = ev.settled eval e.dropEmptyNames := by
  rw [settled, settled, hev.rewritten?_dropEmptyNames]
  cases hrule : ev.rewritten? e with
  | none => exact folded_dropEmptyNames hconst e
  | some e' =>
    exact onOperands_dropEmptyNames
      (fun a ha => heval a (hev.nonGrowing.size_operand_lt hrule ha))
      (folded_dropEmptyNames hconst _)

theorem evaluate_empty_dropEmptyNames (hev : ev.HasStandardRules) (hconst : ev.IgnoresEmptyNames)
    (e : Expr) : (ev.evaluate ∅ e).dropEmptyNames = ev.evaluate ∅ e.dropEmptyNames := by
  induction e using unboundInduction hev.nonGrowing with
  | const v => rfl
  | var x =>
    rw [dropEmptyNames_var, evaluate_var_empty hev.nonGrowing]
    rfl
  | node e he hoperands hsmaller =>
    rw [evaluate_node hev.nonGrowing ∅ he,
      evaluate_node hev.nonGrowing ∅ (by rwa [isNode_dropEmptyNames])]
    exact onOperands_dropEmptyNames hoperands (settled_dropEmptyNames hev hconst hsmaller)

/-- **Empty names.** Under the standard rules or none and with the evaluator of constants of the
library, whatever the registry, evaluation commutes with dropping empty names: without them, in the
expression and in the bound expressions, it ends with the result that it has with them, less the
empty names. An expression has the same value or the same failure, and the same printed form, with
and without its empty names. -/
theorem evaluate_dropEmptyNames (hev : ev.HasStandardRules)
    (hconst : ev.constants = evaluateConstant) (b : Binding) (e : Expr) :
    (ev.Returns b e (ev.evaluate b e) ∧
        ev.Returns (b.map Expr.dropEmptyNames) e.dropEmptyNames (ev.evaluate b e).dropEmptyNames ∧
        (ev.evaluate b e).dropEmptyNames =
          ev.evaluate (b.map Expr.dropEmptyNames) e.dropEmptyNames) ∧
      evaluateConstant e.dropEmptyNames = evaluateConstant e ∧ e.dropEmptyNames.text = e.text := by
  have hignores : ev.IgnoresEmptyNames := fun e => by rw [hconst, evaluateConstant_dropEmptyNames]
  have hcommute : (ev.evaluate b e).dropEmptyNames =
      ev.evaluate (b.map Expr.dropEmptyNames) e.dropEmptyNames := by
    rw [evaluate_substitute hev.nonGrowing, evaluate_empty_dropEmptyNames hev hignores,
      substitute_dropEmptyNames, ← evaluate_substitute hev.nonGrowing]
  refine ⟨⟨returns_evaluate hev.nonGrowing b e, ?_, hcommute⟩,
    evaluateConstant_dropEmptyNames e, text_dropEmptyNames e⟩
  rw [hcommute]
  exact returns_evaluate hev.nonGrowing _ _

/-- The empty name is registered, and it is the name of a call among the arguments, of one that is
bound, and of one inside a typed term. A call with the empty name is handed to the evaluator of
constants, which has no value for it. -/
theorem evaluate_dropEmptyNames_at :
    let ev : Evaluator := { registry := .ofList ["", "concat", "str"], rules := some .standard }
    let nameless (name : Option String) := call name [const (.integer 1)]
    let e (name : Option String) := apply .concat [apply .concat [var "x", nameless name],
      apply .str [term (nameless name) (var "y")]]
    let b (name : Option String) : Binding := Dictionary.ofList [("x", nameless name)]
    let r (name : Option String) := apply .concat [nameless name, nameless name,
      term (apply .str [nameless name]) (const (.string Xsd.string))]
    (ev.HasStandardRules ∧ ev.constants = evaluateConstant) ∧
      ev.evaluate (b (some "")) (e (some "")) = r (some "") ∧
      ev.evaluate ((b (some "")).map Expr.dropEmptyNames) (e none) = r none ∧
      evaluateConstant (e none) = evaluateConstant (e (some "")) ∧
      (e none).text = (e (some "")).text := by
  intro ev nameless e b r
  have hev : ev.HasStandardRules := Or.inr rfl
  have hresult : ev.evaluate (b (some "")) (e (some "")) = r (some "") := rfl
  have hdrop : (e (some "")).dropEmptyNames = e none := rfl
  obtain ⟨⟨-, -, hcommute⟩, hvalue, htext⟩ :=
    evaluate_dropEmptyNames hev rfl (b (some "")) (e (some ""))
  rw [hdrop, hresult] at hcommute
  rw [hdrop] at hvalue htext
  exact ⟨⟨hev, rfl⟩, hresult, hcommute.symm, hvalue, htext⟩

end Evaluator

end Residual
