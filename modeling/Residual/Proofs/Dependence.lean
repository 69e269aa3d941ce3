import Residual.Proofs.Origin

/-!
# What a result depends on

Under the standard rules a result depends on the binding only through the variables of the
expression, and on the registry only through the identifiers that the expression and the expressions
bound to its variables mention. For the rules bring in no identifier of their own: the call that the
rule for strings builds has the name of the call that it rewrites. A binding that is missing does as
well as an empty one.

* `Expr.Mentions`: the identifiers of an expression.
* `StandardStep.mentions`, `Evaluator.mentions_evaluate_empty`: evaluation brings in no identifier.
* `Evaluator.evaluate_withRegistry`: only the identifiers mentioned matter.
* `Evaluator.runOptional`: evaluation with a binding that may be missing.
* `Evaluator.evaluation_depends_on_mentioned`: equal results from all that agrees where it matters.
-/

namespace Residual

open Residual.Expr Rule

/-! ## Identifiers in an expression -/

namespace Expr

/-- A call with this identifier occurs in the expression. -/
def Mentions (e : Expr) (f : String) : Prop :=
  ∃ n : Expr, n.OccursIn e ∧ n.identifier? = some f

variable {e : Expr} {f : String}

theorem mentions_iff : e.Mentions f ↔ e.identifier? = some f ∨ ∃ a ∈ e.operands, a.Mentions f :=
  has_iff

theorem Mentions.of_operand {a : Expr} (ha : a ∈ e.operands) (h : a.Mentions f) : e.Mentions f :=
  mentions_iff.mpr (Or.inr ⟨a, ha, h⟩)

@[simp] theorem not_mentions_const {v : Value} : ¬ (const v).Mentions f := by
  rw [mentions_iff]
  simp [identifier?, operands]

@[simp] theorem not_mentions_var {x : String} : ¬ (var x).Mentions f := by
  rw [mentions_iff]
  simp [identifier?, operands]

@[simp] theorem mentions_call {name : Option String} {args : List Expr} :
    (call name args).Mentions f ↔ identifierOf name = some f ∨ ∃ a ∈ args, a.Mentions f :=
  mentions_iff

@[simp] theorem mentions_term {l d : Expr} :
    (term l d).Mentions f ↔ l.Mentions f ∨ d.Mentions f := by
  rw [mentions_iff]
  simp [identifier?, operands]

/-- The standard rules bring in no identifier: the call that is built has the name of the call that
is rewritten. -/
theorem unbuilt_identifier (f : String) : Unbuilt fun n => n.identifier? = some f where
  call h := h
  term _ _ := nofun
  string := nofun
  iri _ := nofun

/-- If operands give way to others, only these may bring in identifiers. -/
theorem mentions_of_mapOperands {g : Expr → Expr}
    (hg : ∀ a ∈ e.operands, (g a).Mentions f → a.Mentions f) (h : (e.mapOperands g).Mentions f) :
    e.Mentions f :=
  has_of_mapOperands (unbuilt_identifier f).head hg h

theorem mentions_substitute {b : Binding} (h : (e.substitute b).Mentions f) :
    e.Mentions f ∨ ∃ x a, (var x).OccursIn e ∧ b.find? x = some a ∧ a.Mentions f :=
  has_substitute (unbuilt_identifier f).head h

end Expr

theorem StandardStep.mentions {e e' : Expr} (h : StandardStep e e') {f : String}
    (hf : e'.Mentions f) : e.Mentions f := (unbuilt_identifier f).of_step h hf

namespace Evaluator

/-! ## Identifiers in results -/

theorem inherited_identifier (ev : Evaluator) (f : String) :
    ev.Inherited fun n => n.identifier? = some f where
  toUnbuilt := unbuilt_identifier f
  folded := by
    intro e h
    rcases ev.folded_cases e with ⟨v, hv⟩ | hself
    · rw [hv] at h
      exact absurd h not_mentions_const
    · rwa [hself] at h

theorem mentions_evaluate_empty {ev : Evaluator} (hev : ev.HasStandardRules) {e : Expr} {f : String}
    (h : (ev.evaluate ∅ e).Mentions f) : e.Mentions f :=
  (ev.inherited_identifier f).of_evaluate_empty hev h

/-! ## Another registry -/

/-- The evaluator with another registry. -/
def withRegistry (ev : Evaluator) (r : Registry) : Evaluator := { ev with registry := r }

theorem HasStandardRules.withRegistry {ev : Evaluator} (hev : ev.HasStandardRules) (r : Registry) :
    (ev.withRegistry r).HasStandardRules := hev

theorem admits_congr {r r' : Registry} {name : Option String}
    (h : ∀ f, name = some f → r.contains f = r'.contains f) : r.admits name = r'.admits name := by
  cases name with
  | none => rfl
  | some f => simp only [Registry.admits, Registry.isKnown, h f rfl]

section

variable {ev : Evaluator} {r : Registry}

theorem folded_withRegistry {e : Expr}
    (h : ∀ f, e.Mentions f → ev.registry.contains f = r.contains f) :
    (ev.withRegistry r).folded e = ev.folded e := by
  have hadmits : r.admits e.identifier? = ev.registry.admits e.identifier? :=
    admits_congr fun f hf => (h f (mentions_iff.mpr (Or.inl hf))).symm
  have hfoldable : (ev.withRegistry r).isFoldable e = ev.isFoldable e := by
    simp only [isFoldable, withRegistry, hadmits]
  rw [folded, folded, hfoldable]
  rfl

variable (hev : ev.HasStandardRules)

include hev

theorem settled_withRegistry {eval eval' : Expr → Expr} {e : Expr}
    (h : ∀ f, e.Mentions f → ev.registry.contains f = r.contains f)
    (heval : ∀ a, a.size < e.size → (∀ f, a.Mentions f → e.Mentions f) →
      eval' a = eval a ∧ ∀ f, (eval a).Mentions f → a.Mentions f) :
    (ev.withRegistry r).settled eval' e = ev.settled eval e := by
  have hrewritten : (ev.withRegistry r).rewritten? e = ev.rewritten? e := rfl
  rw [settled, settled, hrewritten]
  cases hrule : ev.rewritten? e with
  | none => exact folded_withRegistry h
  | some e' =>
    dsimp only
    have hstep := hev.step hrule
    have hinner : ∀ a ∈ e'.operands,
        eval' a = eval a ∧ ∀ f, (eval a).Mentions f → a.Mentions f := fun a ha =>
      heval a (hev.nonGrowing.size_operand_lt hrule ha) fun f hf =>
        hstep.mentions (.of_operand ha hf)
    rw [onOperands_congr fun a ha => (hinner a ha).1]
    rcases onOperands_cases eval (ev.withRegistry r).folded e' with ⟨a, ha, htype, -⟩ | ⟨hno, heq⟩
    · rw [onOperands_of_typeError ha htype, onOperands_of_typeError ha htype]
    · rw [heq, onOperands_of_noTypeError hno]
      refine folded_withRegistry fun f hf => h f (hstep.mentions ?_)
      exact mentions_of_mapOperands (fun a ha => (hinner a ha).2 f) hf

/-- Without a binding, only the identifiers that the expression mentions are looked up in the
registry. -/
theorem evaluate_withRegistry_empty {e : Expr}
    (h : ∀ f, e.Mentions f → ev.registry.contains f = r.contains f) :
    (ev.withRegistry r).evaluate ∅ e = ev.evaluate ∅ e := by
  have hng := hev.nonGrowing
  have hng' := (hev.withRegistry r).nonGrowing
  induction e using unboundInduction hng with
  | const v => rfl
  | var x => rw [evaluate_var_empty hng, evaluate_var_empty hng']
  | node e he ih hsmaller =>
    have hoperands : ∀ a ∈ e.operands, (ev.withRegistry r).evaluate ∅ a = ev.evaluate ∅ a :=
      fun a ha => ih a ha fun f hf => h f (.of_operand ha hf)
    have hmentions : ∀ f, (e.mapOperands (ev.evaluate ∅)).Mentions f → e.Mentions f :=
      fun f => mentions_of_mapOperands fun a _ => mentions_evaluate_empty hev
    rw [evaluate_node hng ∅ he, evaluate_node hng' ∅ he, onOperands_congr hoperands]
    rcases onOperands_cases (ev.evaluate ∅) (ev.settled (ev.evaluate ∅)) e with
      ⟨a, ha, htype, heq⟩ | ⟨hno, heq⟩
    · rw [heq, onOperands_of_typeError ha htype]
    · rw [heq, onOperands_of_noTypeError hno]
      refine settled_withRegistry hev (fun f hf => h f (hmentions f hf)) fun a ha hmention => ?_
      exact ⟨hsmaller a ha fun f hf => h f (hmentions f (hmention f hf)),
        fun f => mentions_evaluate_empty hev⟩

theorem evaluate_withRegistry {b : Binding} {e : Expr}
    (h : ∀ f, (e.Mentions f ∨ ∃ x a, (var x).OccursIn e ∧ b.find? x = some a ∧ a.Mentions f) →
      ev.registry.contains f = r.contains f) :
    (ev.withRegistry r).evaluate b e = ev.evaluate b e := by
  rw [evaluate_substitute hev.nonGrowing, evaluate_substitute (hev.withRegistry r).nonGrowing]
  exact evaluate_withRegistry_empty hev fun f hf => h f (mentions_substitute hf)

/-- Bindings that agree on the variables of an expression give it the same result. -/
theorem evaluate_congr_binding {b b' : Binding} {e : Expr}
    (h : ∀ x, (var x).OccursIn e → b.find? x = b'.find? x) :
    ev.evaluate b e = ev.evaluate b' e := by
  rw [evaluate_substitute hev.nonGrowing, substitute_congr_of_occursIn h,
    ← evaluate_substitute hev.nonGrowing]

end

/-! ## Bindings that may be missing -/

/-- The expression bound to a variable, if there is a binding at all. -/
def boundTo? (b : Option Binding) (x : String) : Option Expr := b.bind (·.find? x)

/-- Evaluation with a binding that may be missing. Bound expressions, and what rules build, are
evaluated without any. -/
def runOptional (ev : Evaluator) : (depth : Nat) → Option Binding → Expr → Run Expr
  | 0, _, _ => .stop
  | depth + 1, b, e =>
    match e with
    | .const v => pure (.const v)
    | .var x =>
      match boundTo? b x with
      | some bound => ev.runOptional depth none bound
      | none => pure (.var x)
    | .call name args =>
      ev.evaluateNode (ev.runOptional depth b) (ev.runOptional depth none) (.call name args)
    | .term l d => ev.evaluateNode (ev.runOptional depth b) (ev.runOptional depth none) (.term l d)

/-- A missing binding is as good as an empty one. -/
theorem runOptional_eq_run (ev : Evaluator) (depth : Nat) (b : Option Binding) (e : Expr) :
    ev.runOptional depth b e = ev.run depth (b.getD ∅) e := by
  induction depth generalizing b e with
  | zero => rfl
  | succ depth ih =>
    have houter : ev.runOptional depth b = ev.run depth (b.getD ∅) := funext fun a => ih b a
    have hinner : ev.runOptional depth none = ev.run depth ∅ := funext fun a => ih none a
    cases e with
    | const v => rfl
    | var x =>
      have hbound : boundTo? b x = (b.getD ∅).find? x := by cases b <;> rfl
      cases hx : (b.getD ∅).find? x with
      | none => simp only [runOptional, run, hbound, hx]
      | some bound => simp only [runOptional, run, hbound, hx, hinner]
    | call name args => rw [runOptional, run, houter, hinner]
    | term l d => rw [runOptional, run, houter, hinner]

theorem runOptional_returns_iff {ev : Evaluator} (h : ev.NonGrowing) {b : Option Binding}
    {e r : Expr} :
    (∃ depth, (ev.runOptional depth b e).result? = some r) ↔ r = ev.evaluate (b.getD ∅) e := by
  simp only [runOptional_eq_run]
  constructor
  · intro hr
    exact Returns.unique hr (returns_evaluate h _ e)
  · rintro rfl
    exact returns_evaluate h _ e

/-- **Dependence.** Under the standard rules or none, whatever the evaluator of constants, an
expression has one result, and the same one with another binding that agrees on the variables of the
expression, and with another registry that agrees on the identifiers mentioned in the expression and
in the expressions bound to its variables. Bindings may be missing, and an evaluation without a
binding goes on like one with an empty binding. -/
theorem evaluation_depends_on_mentioned {ev : Evaluator} (hev : ev.HasStandardRules) {r : Registry}
    {b b' : Option Binding} {e : Expr}
    (hbinding : ∀ x, (var x).OccursIn e → boundTo? b x = boundTo? b' x)
    (hregistry : ∀ f,
      (e.Mentions f ∨ ∃ x a, (var x).OccursIn e ∧ boundTo? b x = some a ∧ a.Mentions f) →
        ev.registry.contains f = r.contains f) :
    (∃ result,
      (∀ s, (∃ depth, (ev.runOptional depth b e).result? = some s) ↔ s = result) ∧
      ∀ s, (∃ depth, ((ev.withRegistry r).runOptional depth b' e).result? = some s) ↔ s = result) ∧
    ∀ depth, ev.runOptional depth none e = ev.runOptional depth (some ∅) e := by
  have hfind : ∀ (b : Option Binding) (x : String), (b.getD ∅).find? x = boundTo? b x := by
    intro b x
    cases b <;> rfl
  have hsame : (ev.withRegistry r).evaluate (b'.getD ∅) e = ev.evaluate (b.getD ∅) e := by
    rw [← evaluate_withRegistry hev (b := b.getD ∅) (r := r)
      (by simpa only [hfind] using hregistry)]
    refine evaluate_congr_binding (hev.withRegistry r) fun x hx => ?_
    rw [hfind, hfind, hbinding x hx]
  refine ⟨⟨ev.evaluate (b.getD ∅) e, fun s => ?_, fun s => ?_⟩, fun depth => ?_⟩
  · exact runOptional_returns_iff hev.nonGrowing
  · rw [runOptional_returns_iff (hev.withRegistry r).nonGrowing, hsame]
  · rw [runOptional_eq_run, runOptional_eq_run]
    rfl

/-- A registry of two functions and a binding of another variable as well: the call that is built
for the string of a typed term, and what the binding brings in, need no more. -/
theorem evaluation_depends_on_mentioned_at :
    let e := apply .str [term (var "x") (const (.iri Xsd.integer))]
    let bound := apply .concat [const (.string "7"), var "y"]
    let b : Binding := Dictionary.ofList [("x", bound)]
    let b' : Binding := Dictionary.ofList [("y", const (.integer 1)), ("x", bound)]
    let r := Registry.ofList ["str", "concat"]
    (∀ x, (var x).OccursIn e → boundTo? (some b) x = boundTo? (some b') x) ∧
      (∀ f, (e.Mentions f ∨ ∃ x a, (var x).OccursIn e ∧ boundTo? (some b) x = some a ∧
        a.Mentions f) → standard.registry.contains f = r.contains f) ∧
      ∃ result, (∃ depth, (standard.runOptional depth (some b) e).result? = some result) ∧
        ∃ depth, ((standard.withRegistry r).runOptional depth (some b') e).result? =
          some result := by
  intro e bound b b' r
  have hx : ∀ x, (var x).OccursIn e → x = "x" := by
    intro x h
    simpa [e, apply] using h
  have hbinding : ∀ x, (var x).OccursIn e → boundTo? (some b) x = boundTo? (some b') x := by
    intro x h
    rw [hx x h]
    rfl
  have hregistry : ∀ f, (e.Mentions f ∨ ∃ x a, (var x).OccursIn e ∧ boundTo? (some b) x = some a ∧
      a.Mentions f) → standard.registry.contains f = r.contains f := by
    rintro f (hf | ⟨x, a, hocc, ha, hf⟩)
    · have hname : identifierOf (some Operator.str.name) = some f := by simpa [e, apply] using hf
      obtain ⟨hname, -⟩ := identifierOf_eq_some_iff.mp hname
      cases hname
      rfl
    · rw [hx x hocc] at ha
      cases ha
      have hname : identifierOf (some Operator.concat.name) = some f := by
        simpa [bound, apply] using hf
      obtain ⟨hname, -⟩ := identifierOf_eq_some_iff.mp hname
      cases hname
      rfl
  obtain ⟨⟨result, hearly, hlate⟩, -⟩ :=
    evaluation_depends_on_mentioned (Or.inr rfl) hbinding hregistry
  exact ⟨hbinding, hregistry, result, (hearly result).mpr rfl, (hlate result).mpr rfl⟩

end Evaluator

end Residual
