import Residual.Proofs.StandardRules

/-!
# Registration of rules

A table of rules is the history of its registrations, read for one identifier at a time: a
registration adds its rule at the end of those of its identifier and touches no other. So the answer
of a table to a node is that of the first rule that was registered for exactly the identifier of the
node and accepts it, and registrations for different identifiers may be interleaved in any way. A
node without an identifier, and one with the empty name, has no rules, even if rules are registered
under the empty name.

* `RuleTable.rulesOf`: the rules of an identifier in a list of registrations.
* `RuleTable.rulesFor_registerAll`: registrations add their rules, each to those of its identifier.
* `RuleTable.FirstAccepting`: the answer of the first rule that accepts a call.
* `RuleTable.tryRewrite_ofList_eq_some_iff`: what a table answers, by its registrations.
* `RuleTable.answers_of_registrations`: histories with the same rules for every identifier.
-/

namespace Residual

open Residual.Expr

namespace RuleTable

variable {registrations : List (String × Rule)}

/-! ## The history of a table -/

/-- The rules that a list of registrations has for an identifier, earliest first. -/
def rulesOf (registrations : List (String × Rule)) (f : String) : List Rule :=
  registrations.filterMap fun r => if r.1 = f then some r.2 else none

/-- A table after further registrations. -/
def registerAll (t : RuleTable) (registrations : List (String × Rule)) : RuleTable :=
  registrations.foldl (fun t r => t.register r.1 r.2) t

theorem rulesOf_cons (r : String × Rule) (registrations : List (String × Rule)) (f : String) :
    rulesOf (r :: registrations) f =
      (if f = r.1 then [r.2] else []) ++ rulesOf registrations f := by
  rw [rulesOf, List.filterMap_cons]
  by_cases h : r.1 = f
  · rw [if_pos h, if_pos h.symm]
    rfl
  · rw [if_neg h, if_neg fun h' => h h'.symm]
    rfl

/-- After any registrations, the rules of an identifier are those that it had and then those
registered for it, in the order of registration. -/
theorem rulesFor_registerAll (t : RuleTable) (registrations : List (String × Rule)) (f : String) :
    (t.registerAll registrations).rulesFor f = t.rulesFor f ++ rulesOf registrations f := by
  induction registrations generalizing t with
  | nil => exact (List.append_nil _).symm
  | cons r registrations ih =>
    show ((t.register r.1 r.2).registerAll registrations).rulesFor f = _
    rw [ih, rulesFor_register, rulesOf_cons, List.append_assoc]

theorem rulesFor_ofList (registrations : List (String × Rule)) (f : String) :
    (ofList registrations).rulesFor f = rulesOf registrations f :=
  rulesFor_registerAll ∅ registrations f

/-! ## The first rule that accepts -/

/-- The answer of the first rule, among those registered for exactly this identifier, that accepts
the call. -/
def FirstAccepting (registrations : List (String × Rule)) (f : String) (c : Call) (e : Expr) :
    Prop :=
  ∃ before rule after, registrations = before ++ (f, rule) :: after ∧ rule c = some e ∧
    ∀ earlier, (f, earlier) ∈ before → earlier c = none

/-- To look through the rules of an identifier is to look through all registrations and to pass over
those for other identifiers. -/
theorem findSome?_rulesOf (registrations : List (String × Rule)) (f : String) (c : Call) :
    (rulesOf registrations f).findSome? (fun rule => rule c) =
      registrations.findSome? fun r => if r.1 = f then r.2 c else none := by
  induction registrations with
  | nil => rfl
  | cons r registrations ih =>
    rw [rulesOf_cons, List.findSome?_append, ih, List.findSome?_cons]
    by_cases h : r.1 = f
    · rw [if_pos h.symm, if_pos h, List.findSome?_cons]
      cases r.2 c <;> rfl
    · rw [if_neg fun h' => h h'.symm, if_neg h]
      rfl

theorem findSome?_rulesOf_eq_some_iff {f : String} {c : Call} {e : Expr} :
    (rulesOf registrations f).findSome? (fun rule => rule c) = some e ↔
      FirstAccepting registrations f c e := by
  rw [findSome?_rulesOf, List.findSome?_eq_some_iff]
  constructor
  · rintro ⟨before, ⟨g, rule⟩, after, hsplit, haccept, hbefore⟩
    by_cases hg : g = f
    · subst hg
      rw [if_pos rfl] at haccept
      refine ⟨before, rule, after, hsplit, haccept, fun earlier hmem => ?_⟩
      have hdecline := hbefore _ hmem
      rwa [if_pos rfl] at hdecline
    · rw [if_neg hg] at haccept
      cases haccept
  · rintro ⟨before, rule, after, hsplit, haccept, hbefore⟩
    refine ⟨before, (f, rule), after, hsplit, by rwa [if_pos rfl], ?_⟩
    rintro ⟨g, earlier⟩ hmem
    by_cases hg : g = f
    · subst hg
      rw [if_pos rfl]
      exact hbefore earlier hmem
    · rw [if_neg hg]

/-! ## Answers -/

theorem tryRewrite_eq_some_iff {t : RuleTable} {e e' : Expr} :
    t.tryRewrite e = some e' ↔ ∃ f args, f ≠ "" ∧ e = call (some f) args ∧
      (t.rulesFor f).findSome? (fun rule => rule ⟨some f, args⟩) = some e' := by
  cases e with
  | const v => exact iff_of_false nofun nofun
  | var x => exact iff_of_false nofun nofun
  | term l d => exact iff_of_false nofun nofun
  | call name args =>
    rw [tryRewrite, answer, Call.identifier?]
    constructor
    · intro h
      cases hname : identifierOf name with
      | none =>
        rw [hname] at h
        cases h
      | some f =>
        rw [hname] at h
        obtain ⟨rfl, hf⟩ := identifierOf_eq_some_iff.mp hname
        exact ⟨f, args, hf, rfl, h⟩
    · rintro ⟨f, args', hf, hcall, h⟩
      obtain ⟨rfl, rfl⟩ := call.inj hcall
      rwa [identifierOf_eq_some_iff.mpr ⟨rfl, hf⟩]

/-- The answer of a table to a call with an identifier is that of the first rule, registered for
exactly this identifier, that accepts the call. Other nodes get no answer. -/
theorem tryRewrite_ofList_eq_some_iff {e e' : Expr} :
    (ofList registrations).tryRewrite e = some e' ↔ ∃ f args, f ≠ "" ∧ e = call (some f) args ∧
      FirstAccepting registrations f ⟨some f, args⟩ e' := by
  simp only [tryRewrite_eq_some_iff, rulesFor_ofList, findSome?_rulesOf_eq_some_iff]

theorem tryRewrite_congr {t t' : RuleTable} (h : ∀ f, t.rulesFor f = t'.rulesFor f) (e : Expr) :
    t.tryRewrite e = t'.tryRewrite e := by
  refine Option.ext fun e' => ?_
  rw [tryRewrite_eq_some_iff, tryRewrite_eq_some_iff]
  simp only [h]

end RuleTable

/-! ## Evaluation with either table -/

namespace Evaluator

/-- The evaluator with another table of rules. -/
def withTable (ev : Evaluator) (t : RuleTable) : Evaluator := { ev with rules := some t }

/-- Evaluation uses a table only for its answers. -/
theorem run_withTable_congr (ev : Evaluator) {t t' : RuleTable}
    (h : ∀ e, t.tryRewrite e = t'.tryRewrite e) (depth : Nat) (b : Binding) (e : Expr) :
    (ev.withTable t).run depth b e = (ev.withTable t').run depth b e := by
  have hsettle : ∀ inner e, (ev.withTable t).settle inner e = (ev.withTable t').settle inner e := by
    intro inner e
    have hoffer : (ev.withTable t).offer e = (ev.withTable t').offer e := by
      show Run.ask (.offered e (t.tryRewrite e)) (t.tryRewrite e) =
        .ask (.offered e (t'.tryRewrite e)) (t'.tryRewrite e)
      rw [h]
    rw [settle, settle, hoffer]
    rfl
  have hnode : ∀ outer inner e, (ev.withTable t).evaluateNode outer inner e =
      (ev.withTable t').evaluateNode outer inner e := by
    intro outer inner e
    simp only [evaluateNode, hsettle]
  induction depth generalizing b e with
  | zero => rfl
  | succ depth ih =>
    have heval : ∀ b, (ev.withTable t).run depth b = (ev.withTable t').run depth b :=
      fun b => funext (ih b)
    cases e with
    | const v => rfl
    | var x =>
      rw [run, run]
      cases b.find? x with
      | none => rfl
      | some bound => exact ih ∅ bound
    | call name args => rw [run, run, hnode, heval, heval]
    | term l d => rw [run, run, hnode, heval, heval]

end Evaluator

namespace RuleTable

/-- **Registration.** Two tables, whose registrations have the same rules in the same order for
every identifier, give the same answer to every node: to a call with an identifier, that of the
first rule registered for exactly this identifier that accepts it, and none to others. Whatever the
registry, the evaluator of constants, the binding and the depth, evaluations with either table ask
the same questions and have the same result. -/
theorem answers_of_registrations {registrations registrations' : List (String × Rule)}
    (h : ∀ f, rulesOf registrations f = rulesOf registrations' f) :
    (∀ e e', (ofList registrations).tryRewrite e = some e' ↔ ∃ f args, f ≠ "" ∧
        e = call (some f) args ∧ FirstAccepting registrations f ⟨some f, args⟩ e') ∧
      (∀ e, (ofList registrations).tryRewrite e = (ofList registrations').tryRewrite e) ∧
      ∀ (ev : Evaluator) (depth : Nat) (b : Binding) (e : Expr),
        (ev.withTable (ofList registrations)).run depth b e =
          (ev.withTable (ofList registrations')).run depth b e := by
  have hsame : ∀ e, (ofList registrations).tryRewrite e = (ofList registrations').tryRewrite e :=
    tryRewrite_congr fun f => by rw [rulesFor_ofList, rulesFor_ofList, h]
  exact ⟨fun _ _ => tryRewrite_ofList_eq_some_iff, hsame, fun ev => ev.run_withTable_congr hsame⟩

/-- Rules for two functions and for the empty name, registered in another order. The first rule for
`f` declines, and the third one is not asked; a call with the empty name is left alone. -/
theorem answers_of_registrations_at :
    let decline : Rule := fun _ => none
    let rename (f : String) : Rule := fun c => some (call (some f) c.args)
    let history := [("f", decline), ("g", rename "h"), ("f", rename "g"), ("", rename "f"),
      ("f", rename "h")]
    let history' := [("", rename "f"), ("f", decline), ("f", rename "g"), ("f", rename "h"),
      ("g", rename "h")]
    (∀ f, rulesOf history f = rulesOf history' f) ∧
      (∃ e', (ofList history').tryRewrite (call (some "f") [var "x"]) = some e' ∧
        FirstAccepting history "f" ⟨some "f", [var "x"]⟩ e' ∧ e' = call (some "g") [var "x"]) ∧
      (ofList history).tryRewrite (call (some "") [var "x"]) = none ∧
      (Evaluator.standard.withTable (ofList history)).run 3 ∅ (call (some "f") [var "x"]) =
        (Evaluator.standard.withTable (ofList history')).run 3 ∅ (call (some "f") [var "x"]) := by
  intro decline rename history history'
  have hsame : ∀ f, rulesOf history f = rulesOf history' f := by
    intro f
    by_cases hf : "f" = f
    · subst hf
      rfl
    · by_cases hg : "g" = f
      · subst hg
        rfl
      · by_cases hempty : "" = f
        · subst hempty
          rfl
        · simp [rulesOf, history, history', hf, hg, hempty]
  obtain ⟨hanswer, htables, hruns⟩ := answers_of_registrations hsame
  have hfirst : (ofList history).tryRewrite (call (some "f") [var "x"]) =
      some (call (some "g") [var "x"]) := rfl
  refine ⟨hsame, ⟨_, htables _ ▸ hfirst, ?_, rfl⟩, ?_, hruns _ 3 ∅ _⟩
  · obtain ⟨f, args, -, hcall, haccept⟩ := (hanswer _ _).mp hfirst
    cases hcall
    exact haccept
  · refine Option.eq_none_iff_forall_ne_some.mpr fun e' he' => ?_
    obtain ⟨f, args, hf, hcall, -⟩ := (hanswer _ e').mp he'
    cases hcall
    exact hf rfl

end RuleTable

end Residual
