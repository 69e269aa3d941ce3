import Residual.Settings.Json
import Residual.Proofs.JsonForm
import Residual.Proofs.Meaning
import Residual.Proofs.NumberReader

/-!
# Results in JSON

What an evaluation gives is written as JSON and read again, if three things are seen to. Evaluation
may bring in doubles that are not finite, for which there are no numbers. The number of a double
need not be read as this double. And a binding may put deep expressions below deep ones. Evaluation
by itself makes nothing deeper: the standard rules do not, and a value that a node is folded to is
no deeper than the node.

* `StandardStep.nesting_le`, `Evaluator.nesting_evaluate_empty_le`: rewriting and evaluation do not
  make the form of an expression deeper.
* `Settings.evaluate_reread`: what is read from the text of a result, and when it is the result.
-/

namespace Residual

namespace Expr

/-! ## Depth of nodes -/

theorem nesting_const_le (v : Value) : (const v).toJson.nesting ≤ 3 :=
  nesting_const_le_iff.mpr ⟨2, rfl, v.nesting_toJson_le_two⟩

theorem nesting_typeError : typeError.toJson.nesting ≤ 1 :=
  nesting_const_le_iff.mpr ⟨0, rfl, by simp [Value.toJson]⟩

/-- A node is as deep as any value. -/
theorem three_le_nesting {e : Expr} (he : e.isNode = true) : 3 ≤ e.toJson.nesting := by
  cases e with
  | const v => cases he
  | var x => cases he
  | call name args =>
    obtain ⟨n, hn, -⟩ := nesting_call_le_iff.mp (Nat.le_refl (call name args).toJson.nesting)
    omega
  | term l d =>
    obtain ⟨n, hn, hl, -⟩ := nesting_term_le_iff.mp (Nat.le_refl (term l d).toJson.nesting)
    have hpos := nesting_pos l
    omega

theorem nesting_mapOperands_le {f : Expr → Expr} {e : Expr}
    (h : ∀ a ∈ e.operands, (f a).toJson.nesting ≤ a.toJson.nesting) :
    (e.mapOperands f).toJson.nesting ≤ e.toJson.nesting := by
  cases e with
  | const v => exact Nat.le_refl _
  | var x => exact Nat.le_refl _
  | call name args =>
    obtain ⟨n, hn, hargs⟩ := nesting_call_le_iff.mp (Nat.le_refl (call name args).toJson.nesting)
    refine nesting_call_le_iff.mpr ⟨n, hn, List.forall_mem_map.mpr fun a ha => ?_⟩
    exact Nat.le_trans (h a ha) (hargs a ha)
  | term l d =>
    obtain ⟨n, hn, hl, hd⟩ := nesting_term_le_iff.mp (Nat.le_refl (term l d).toJson.nesting)
    refine nesting_term_le_iff.mpr ⟨n, hn, Nat.le_trans (h l ?_) hl, Nat.le_trans (h d ?_) hd⟩
    · simp [operands]
    · simp [operands]

/-! ## Calls inside calls -/

/-- Calls of a function that is not registered, one inside the other. -/
def nestedCalls : Nat → Expr → Expr
  | 0, e => e
  | n + 1, e => call (some "f") [nestedCalls n e]

theorem allDoubles_nestedCalls {P : Float → Prop} {e : Expr} (he : e.AllDoubles P) (n : Nat) :
    (nestedCalls n e).AllDoubles P := by
  induction n with
  | zero => exact he
  | succ n ih => exact (allDoubles_node rfl).mpr (List.forall_mem_singleton.mpr ih)

end Expr

open Residual.Expr Rule

/-! ## Rewriting and evaluation -/

/-- The operand of a call of one operand, which is a typed term. -/
theorem nesting_apply_term {op : Operator} {l d : Expr} :
    ∃ n, (apply op [term l d]).toJson.nesting = n + 5 ∧ l.toJson.nesting ≤ n ∧
      d.toJson.nesting ≤ n := by
  obtain ⟨n, hn, hargs⟩ := nesting_call_le_iff.mp (Nat.le_refl (apply op [term l d]).toJson.nesting)
  obtain ⟨m, rfl, hl, hd⟩ := nesting_term_le_iff.mp (hargs _ (List.mem_singleton_self _))
  exact ⟨m, hn, hl, hd⟩

theorem StandardStep.nesting_le {e e' : Expr} (h : StandardStep e e') :
    e'.toJson.nesting ≤ e.toJson.nesting := by
  cases h with
  | str l d =>
    obtain ⟨n, hn, hl, -⟩ := @nesting_apply_term .str l d
    rw [hn]
    refine nesting_term_le_iff.mpr ⟨n + 3, rfl, ?_, Nat.le_trans (nesting_const_le _) (by omega)⟩
    exact nesting_call_le_iff.mpr ⟨n, rfl, by simpa using hl⟩
  | datatypeName l name =>
    exact Nat.le_trans (nesting_const_le _) (three_le_nesting rfl)
  | datatype l d _ =>
    obtain ⟨n, hn, -, hd⟩ := @nesting_apply_term .datatype l e'
    omega
  | concat args _ =>
    obtain ⟨n, hn, hargs⟩ :=
      nesting_call_le_iff.mp (Nat.le_refl (apply .concat args).toJson.nesting)
    refine nesting_call_le_iff.mpr ⟨n, hn, fun a ha => ?_⟩
    rcases mem_spliced.mp ha with ⟨ha, -⟩ | ⟨inner, hinner, ha⟩
    · exact hargs a ha
    · obtain ⟨m, rfl, hinner⟩ := nesting_call_le_iff.mp (hargs _ hinner)
      exact Nat.le_trans (hinner a ha) (Nat.le_add_right m 3)

namespace Evaluator

theorem HasStandardRules.nonIncreasing_nesting {ev : Evaluator} (hev : ev.HasStandardRules) :
    ev.NonIncreasing fun e => e.toJson.nesting where
  typeError_le e := Nat.le_trans nesting_typeError (nesting_pos e)
  const_le v _ he := Nat.le_trans (nesting_const_le v) (three_le_nesting he)
  mapOperands_le _ _ h := nesting_mapOperands_le h
  rewritten_le _ _ hrule := (hev.step hrule).nesting_le

theorem nesting_evaluate_empty_le {ev : Evaluator} (hev : ev.HasStandardRules) (e : Expr) :
    (ev.evaluate ∅ e).toJson.nesting ≤ e.toJson.nesting :=
  hev.nonIncreasing_nesting.evaluate_empty_le hev.nonGrowing e

end Evaluator

namespace Settings

open Evaluator

/-! ## Results of evaluations of texts -/

/-- **JSON in, JSON out.** A reader takes numbers as doubles in its own way, but it takes the number
of each finite double. If the doubles of a result are finite, it accepts either text that is written
for the result just if the form is not nested too deep. What it reads is the result with each double
as it takes it, and so it is the result itself if it takes the doubles as they are. The settings and
the binding do not matter. Without a binding, the form of the result of an expression that comes
from a text is never too deep. -/
theorem evaluate_reread [Json.NumberReader]
    (htakes : ∀ d : Float, d.isFinite = true → (Json.ofDouble d).double?.isSome = true)
    (s : Settings) (b : Binding) (e : Expr) :
    let r := s.evaluator.evaluate b e
    s.evaluator.Returns b e r ∧
      (r.AllDoubles (fun d => d.isFinite = true) →
        ∀ text, text = r.toJson.compact ∨ text = r.toJson.pretty →
          ((Expr.read? text).isSome = true ↔ r.toJson.nesting ≤ Json.depthLimit) ∧
            (∀ r', Expr.read? text = some r' → r.reread? = some r') ∧
            (Expr.read? text = some r ↔ r.toJson.nesting ≤ Json.depthLimit ∧
              r.AllDoubles fun d => (Json.ofDouble d).double? = some d)) ∧
      ∀ text, Expr.read? text = some e → b = ∅ → r.toJson.nesting ≤ Json.depthLimit := by
  intro r
  refine ⟨returns_evaluate s.hasStandardRules.nonGrowing b e, fun hfinite text htext => ?_, ?_⟩
  · have hread := read?_of_written htext
    have hsome : r.reread?.isSome = true :=
      isSome_reread?_iff.mpr fun d hd => htakes d (hfinite d hd)
    refine ⟨?_, fun r' hr' => ?_, read?_eq_some_self_iff htext⟩
    · rw [hread]
      split
      · rename_i hdepth
        exact iff_of_true hsome hdepth
      · rename_i hdepth
        exact iff_of_false nofun hdepth
    · rw [hread] at hr'
      split at hr'
      · exact hr'
      · cases hr'
  · rintro text he rfl
    exact Nat.le_trans (nesting_evaluate_empty_le s.hasStandardRules e)
      (nesting_toJson_le_of_read? he)

/-- A sum of doubles inside an open call. Its number is read quickly, and yet as the sum. -/
theorem evaluate_reread_at :
    let text := "\x7b\"function\":[\"f\",[\x7b\"variable\":\"x\"\x7d,\x7b\"function\":[\"+\",[" ++
      "\x7b\"constant\":\x7b\"double\":0.1\x7d\x7d," ++
      "\x7b\"constant\":\x7b\"double\":0.2\x7d\x7d]]\x7d]]\x7d"
    let e := call (some "f") [var "x", apply .add [const (.double 0.1), const (.double 0.2)]]
    let r := call (some "f") [var "x", const (.double 0.30000000000000004)]
    ((∀ d : Float, d.isFinite = true → (Json.ofDouble d).double?.isSome = true) ∧
        Expr.read? text = some e ∧ ({} : Settings).evaluator.evaluate ∅ e = r ∧
        r.AllDoubles (fun d => d.isFinite = true) ∧
        r.AllDoubles fun d => (Json.ofDouble d).double? = some d) ∧
      r.toJson.nesting ≤ Json.depthLimit ∧ Expr.read? r.toJson.compact = some r ∧
      Expr.read? r.toJson.pretty = some r := by
  intro text e r
  have htakes : ∀ d : Float, d.isFinite = true → (Json.ofDouble d).double?.isSome = true :=
    fun d hd => Option.isSome_iff_exists.mpr (Json.exists_double?_ofDouble hd)
  have htext : Expr.read? text = some e := by decide +kernel
  have hr : ({} : Settings).evaluator.evaluate ∅ e = r := by decide +kernel
  have hdouble : ∀ d, (const (.double d)).OccursIn r → d = 0.30000000000000004 := by
    intro d hd
    simpa [r] using hd
  have hfinite : r.AllDoubles fun d => d.isFinite = true := by
    intro d hd
    rw [hdouble d hd]
    decide +kernel
  have hexact : r.AllDoubles fun d => (Json.ofDouble d).double? = some d := by
    intro d hd
    rw [hdouble d hd]
    decide +kernel
  obtain ⟨-, hread, hnesting⟩ := evaluate_reread htakes {} ∅ e
  rw [hr] at hread hnesting
  have hdepth := hnesting text htext rfl
  have hself := fun text htext => (hread hfinite text htext).2.2.mpr ⟨hdepth, hexact⟩
  exact ⟨⟨htakes, htext, hr, hfinite, hexact⟩, hdepth, hself _ (Or.inl rfl), hself _ (Or.inr rfl)⟩

/-- A constant is one level deeper than the variable to which it is bound, and then too deep. A sum
is read from its number as the double next to it. And one divided by zero is infinite, so that there
is no number for it. -/
theorem evaluate_not_reread :
    let ev := ({} : Settings).evaluator
    let deep := nestedCalls 42 (var "x")
    let binding := Dictionary.insert ∅ "x" (const (.integer 0))
    let deeper := nestedCalls 42 (const (.integer 0))
    let sum := apply .add [const (.double 0.1), const (.double 1.3)]
    let rounded := const (.double 1.4000000000000001)
    let quotient := apply .div [const (.double 1.0), const (.integer 0)]
    let infinite := const (.double (1.0 / 0.0))
    (Expr.read? deep.toJson.compact = some deep ∧
        Binding.read? "\x7b\"x\":\x7b\"constant\":\x7b\"integer\":0\x7d\x7d\x7d" = some binding ∧
        ev.evaluate binding deep = deeper ∧ Expr.read? deeper.toJson.compact ≠ some deeper) ∧
      (Expr.read? sum.toJson.compact = some sum ∧ ev.evaluate ∅ sum = rounded ∧
        Expr.read? rounded.toJson.compact = some (const (.double 1.4)) ∧
        Expr.read? rounded.toJson.compact ≠ some rounded) ∧
      Expr.read? quotient.toJson.compact = some quotient ∧ ev.evaluate ∅ quotient = infinite ∧
        Expr.read? infinite.toJson.compact ≠ some infinite := by
  intro ev deep binding deeper sum rounded quotient infinite
  refine ⟨⟨?_, ?_, ?_, ?_⟩, ⟨?_, ?_, ?_, ?_⟩, ?_, ?_, ?_⟩
  · exact (read?_eq_some_self_iff (Or.inl rfl)).mpr
      ⟨by decide +kernel, allDoubles_nestedCalls (allDoubles_var "x") 42⟩
  · have hentries : (Binding.read?
        "\x7b\"x\":\x7b\"constant\":\x7b\"integer\":0\x7d\x7d\x7d").map Dictionary.entries =
          some binding.entries := by decide +kernel
    obtain ⟨b, hb, h⟩ := Option.map_eq_some_iff.mp hentries
    rw [hb]
    exact congrArg some ((Dictionary.mk.injEq ..).mpr h)
  · decide +kernel
  · intro h
    exact absurd ((read?_eq_some_self_iff (Or.inl rfl)).mp h).1 (by decide +kernel)
  all_goals decide +kernel

end Settings

end Residual
