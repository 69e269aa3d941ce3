import Residual.Rule.Standard
import Residual.Proofs.Equations

/-!
# What the standard rules do

The table of the standard rules rewrites a node in four ways, and none of them makes it larger.

* `StandardStep`: the four ways.
* `RuleTable.tryRewrite_standard`: the table rewrites a node as one of them says, or not at all.
* `Evaluator.HasStandardRules`: the standard rules, or none.
* `Evaluator.HasStandardRules.nonGrowing`: evaluation ends under them.
-/

namespace Residual

open Residual.Expr Rule

/-! ## Concatenations among arguments -/

/-- The arguments with those of concatenations among them put in their place. -/
def Rule.spliced (args : List Expr) : List Expr := args.flatMap fun a => (concatArgs? a).getD [a]

theorem Rule.concatArgs?_eq_some_iff {e : Expr} {args : List Expr} :
    concatArgs? e = some args ↔ e = apply .concat args := by
  cases e with
  | const v => simp [concatArgs?, apply]
  | var x => simp [concatArgs?, apply]
  | call name args' => simp [concatArgs?, apply]
  | term l d => simp [concatArgs?, apply]

theorem Rule.mem_spliced {a : Expr} {args : List Expr} :
    a ∈ spliced args ↔
      (a ∈ args ∧ concatArgs? a = none) ∨ ∃ inner, apply .concat inner ∈ args ∧ a ∈ inner := by
  rw [spliced, List.mem_flatMap]
  constructor
  · rintro ⟨c, hc, ha⟩
    cases hargs : concatArgs? c with
    | none =>
      rw [hargs, Option.getD_none, List.mem_singleton] at ha
      subst ha
      exact Or.inl ⟨hc, hargs⟩
    | some inner =>
      rw [hargs, Option.getD_some] at ha
      exact Or.inr ⟨inner, concatArgs?_eq_some_iff.mp hargs ▸ hc, ha⟩
  · rintro (⟨ha, hargs⟩ | ⟨inner, hinner, ha⟩)
    · exact ⟨a, ha, by rw [hargs]; exact List.mem_singleton_self a⟩
    · exact ⟨_, hinner, by rwa [concatArgs?_eq_some_iff.mpr rfl]⟩

theorem Rule.spliced_eq_self {args : List Expr} (h : ∀ inner, apply .concat inner ∉ args) :
    spliced args = args := by
  induction args with
  | nil => rfl
  | cons a args ih =>
    have ha : concatArgs? a = none := by
      cases hargs : concatArgs? a with
      | none => rfl
      | some inner =>
        exact absurd (concatArgs?_eq_some_iff.mp hargs ▸ List.mem_cons_self) (h inner)
    have hargs := ih fun inner hmem => h inner (List.mem_cons_of_mem a hmem)
    rw [spliced] at hargs ⊢
    rw [List.flatMap_cons, ha, hargs]
    rfl

/-- A sum over the arguments does not grow, if a concatenation counts as much as its arguments. -/
theorem Rule.sum_map_spliced_le {μ : Expr → Nat}
    (h : ∀ inner, (inner.map μ).sum ≤ μ (apply .concat inner)) (args : List Expr) :
    ((spliced args).map μ).sum ≤ (args.map μ).sum := by
  induction args with
  | nil => exact Nat.le_refl _
  | cons a args ih =>
    rw [spliced, List.flatMap_cons, List.map_append, List.sum_append, List.map_cons, List.sum_cons]
    refine Nat.add_le_add ?_ ih
    cases hargs : concatArgs? a with
    | none => exact Nat.le_of_eq (List.sum_singleton)
    | some inner =>
      rw [concatArgs?_eq_some_iff.mp hargs, Option.getD_some]
      exact h inner

/-! ## The four ways of rewriting -/

/-- One rewriting by a standard rule. -/
inductive StandardStep : Expr → Expr → Prop
  /-- The string of a typed term is that of its text. -/
  | str (l d : Expr) :
    StandardStep (apply .str [term l d]) (typedLiteral (apply .str [l]) Xsd.string)
  /-- The datatype of a typed term that has it as a string. -/
  | datatypeName (l : Expr) (name : String) :
    StandardStep (apply .datatype [term l (const (.string name))]) (const (.iri name))
  /-- The datatype of any other typed term. -/
  | datatype (l d : Expr) (h : ∀ name, d ≠ const (.string name)) :
    StandardStep (apply .datatype [term l d]) d
  /-- Concatenations inside a concatenation. -/
  | concat (args : List Expr) (h : ∃ inner, apply .concat inner ∈ args) :
    StandardStep (apply .concat args) (apply .concat (spliced args))

/-- The datatype of a typed term, given the second part of the term: a string counts as the IRI of
that name. -/
def Expr.slotForm : Expr → Expr
  | const (.string name) => const (.iri name)
  | e => e

theorem Expr.slotForm_eq_self {e : Expr} (h : ∀ name, e ≠ const (.string name)) :
    e.slotForm = e := by
  unfold slotForm
  split
  · exact absurd rfl (h _)
  · rfl

theorem StandardStep.datatype_slotForm (l d : Expr) :
    StandardStep (apply .datatype [term l d]) d.slotForm := by
  by_cases h : ∃ name, d = const (.string name)
  · obtain ⟨name, rfl⟩ := h
    exact .datatypeName l name
  · have hname : ∀ name, d ≠ const (.string name) := fun name hd => h ⟨name, hd⟩
    rw [slotForm_eq_self hname]
    exact .datatype l d hname

theorem RuleTable.rulesFor_standard (f : String) :
    standard.rulesFor f =
      if f = Operator.str.name then [strOfTerm]
      else if f = Operator.datatype.name then [datatypeOfTerm]
      else if f = Operator.concat.name then [flattenConcat]
      else [] := by
  have hempty : (∅ : RuleTable).rulesFor f = [] := rfl
  have hsd : Operator.datatype.name ≠ Operator.str.name := by decide
  have hsc : Operator.concat.name ≠ Operator.str.name := by decide
  have hdc : Operator.concat.name ≠ Operator.datatype.name := by decide
  simp only [standard, ofList, List.foldl_cons, List.foldl_nil, rulesFor_register, hempty,
    List.nil_append]
  by_cases hs : f = Operator.str.name
  · simp [hs, hsd.symm, hsc.symm]
  · by_cases hd : f = Operator.datatype.name
    · simp [hd, hsd, hdc.symm]
    · simp [hs, hd]

theorem Rule.strOfTerm_eq_some_iff {c : Call} {e' : Expr} :
    strOfTerm c = some e' ↔
      ∃ l d, c.args = [term l d] ∧ e' = typedLiteral (apply .str [l]) Xsd.string := by
  unfold strOfTerm
  split
  · rename_i l d hargs
    rw [hargs]
    constructor
    · intro h
      exact ⟨l, d, rfl, (Option.some.inj h).symm⟩
    · rintro ⟨l', d', hl, rfl⟩
      cases hl
      rfl
  · rename_i hargs
    constructor
    · intro h
      cases h
    · rintro ⟨l, d, hl, -⟩
      exact absurd hl (hargs l d)

theorem Rule.datatypeOfTerm_eq_some_iff {c : Call} {e' : Expr} :
    datatypeOfTerm c = some e' ↔
      (∃ l name, c.args = [term l (const (.string name))] ∧ e' = const (.iri name)) ∨
        ∃ l d, c.args = [term l d] ∧ (∀ name, d ≠ const (.string name)) ∧ e' = d := by
  unfold datatypeOfTerm
  split
  · rename_i l name hargs
    rw [hargs]
    constructor
    · intro h
      exact Or.inl ⟨l, name, rfl, (Option.some.inj h).symm⟩
    · rintro (⟨l', name', hl, rfl⟩ | ⟨l', d, hl, hd, -⟩)
      · cases hl
        rfl
      · cases hl
        exact absurd rfl (hd name)
  · rename_i l d hno hargs
    rw [hargs]
    constructor
    · intro h
      exact Or.inr ⟨l, d, rfl, hno, (Option.some.inj h).symm⟩
    · rintro (⟨l', name', hl, -⟩ | ⟨l', d', hl, hd, rfl⟩)
      · cases hl
        exact absurd rfl (hno name')
      · cases hl
        rfl
  · rename_i hno hargs
    constructor
    · intro h
      cases h
    · rintro (⟨l, name, hl, -⟩ | ⟨l, d, hl, -, -⟩)
      · exact absurd hl (hargs l _)
      · exact absurd hl (hargs l d)

theorem Rule.flattenConcat_eq_some_iff {c : Call} {e' : Expr} :
    flattenConcat c = some e' ↔
      (∃ inner, apply .concat inner ∈ c.args) ∧ e' = call c.name (spliced c.args) := by
  have hany : (c.args.any fun a => (concatArgs? a).isSome) = true ↔
      ∃ inner, apply .concat inner ∈ c.args := by
    rw [List.any_eq_true]
    constructor
    · rintro ⟨a, ha, hsome⟩
      obtain ⟨inner, hinner⟩ := Option.isSome_iff_exists.mp hsome
      exact ⟨inner, concatArgs?_eq_some_iff.mp hinner ▸ ha⟩
    · rintro ⟨inner, hinner⟩
      exact ⟨_, hinner, by rw [concatArgs?_eq_some_iff.mpr rfl]; rfl⟩
  unfold flattenConcat
  split
  · rename_i h
    constructor
    · intro he
      exact ⟨hany.mp h, (Option.some.inj he).symm⟩
    · rintro ⟨-, rfl⟩
      rfl
  · rename_i h
    constructor
    · intro he
      cases he
    · rintro ⟨hinner, -⟩
      exact absurd (hany.mpr hinner) h

theorem Expr.identifierOf_eq_some_iff {name : Option String} {f : String} :
    identifierOf name = some f ↔ name = some f ∧ f ≠ "" := by
  simp [identifierOf, Option.filter_eq_some_iff]

theorem RuleTable.tryRewrite_standard {e e' : Expr} :
    standard.tryRewrite e = some e' ↔ StandardStep e e' := by
  constructor
  · intro h
    cases e with
    | const v => cases h
    | var x => cases h
    | term l d => cases h
    | call name args =>
      rw [tryRewrite, answer, Call.identifier?] at h
      split at h
      · cases h
      · rename_i f hf
        obtain ⟨rfl, -⟩ := identifierOf_eq_some_iff.mp hf
        rw [rulesFor_standard] at h
        split at h
        · rename_i hname
          obtain ⟨l, d, hargs, rfl⟩ := strOfTerm_eq_some_iff.mp (by simpa using h)
          subst hname hargs
          exact .str l d
        · split at h
          · rename_i hname
            rcases datatypeOfTerm_eq_some_iff.mp (by simpa using h) with
              ⟨l, s, hargs, rfl⟩ | ⟨l, d, hargs, hd, rfl⟩
            · subst hname hargs
              exact .datatypeName l s
            · subst hname hargs
              exact .datatype l _ hd
          · split at h
            · rename_i hname
              obtain ⟨hinner, rfl⟩ := flattenConcat_eq_some_iff.mp (by simpa using h)
              subst hname
              exact .concat args hinner
            · cases h
  · intro h
    have hname : ∀ (op : Operator) (args : List Expr), standard.tryRewrite (apply op args) =
        (standard.rulesFor op.name).findSome? fun rule => rule ⟨some op.name, args⟩ := by
      intro op args
      rw [apply, tryRewrite, answer, Call.identifier?,
        identifierOf_eq_some_iff.mpr ⟨rfl, by cases op <;> decide⟩]
    cases h with
    | str l d =>
      rw [hname, rulesFor_standard]
      rfl
    | datatypeName l s =>
      rw [hname, rulesFor_standard]
      rfl
    | datatype l d hd =>
      rw [hname, rulesFor_standard]
      have := datatypeOfTerm_eq_some_iff (c := ⟨some Operator.datatype.name, [term l e']⟩).mpr
        (Or.inr ⟨l, e', rfl, hd, rfl⟩)
      simpa [show Operator.datatype.name ≠ Operator.str.name by decide] using this
    | concat args hinner =>
      rw [hname, rulesFor_standard]
      have := flattenConcat_eq_some_iff (c := ⟨some Operator.concat.name, args⟩).mpr ⟨hinner, rfl⟩
      simpa [show Operator.concat.name ≠ Operator.str.name by decide,
        show Operator.concat.name ≠ Operator.datatype.name by decide, apply] using this

theorem StandardStep.concat_inside {args : List Expr} {e' : Expr}
    (h : StandardStep (apply .concat args) e') : ∃ inner, apply .concat inner ∈ args := by
  generalize he : apply .concat args = e at h
  cases h with
  | str l d => simp [apply, Operator.name] at he
  | datatypeName l s => simp [apply, Operator.name] at he
  | datatype l d hd => simp [apply, Operator.name] at he
  | concat args' hinner =>
    cases he
    exact hinner

theorem StandardStep.term_inside {e e' : Expr} (h : StandardStep (apply .str [e]) e') :
    ∃ l d, e = term l d := by
  generalize he : apply .str [e] = f at h
  cases h with
  | str l d =>
    cases he
    exact ⟨l, d, rfl⟩
  | datatypeName l s => simp [apply, Operator.name] at he
  | datatype l d hd => simp [apply, Operator.name] at he
  | concat args hinner => simp [apply, Operator.name] at he

/-- A node that is rewritten has an operand that is no constant. -/
theorem StandardStep.exists_open {e e' : Expr} (h : StandardStep e e') :
    ∃ a ∈ e.operands, a.isConst = false := by
  cases h with
  | str l d => exact ⟨term l d, List.mem_singleton_self _, rfl⟩
  | datatypeName l s => exact ⟨term l _, List.mem_singleton_self _, rfl⟩
  | datatype l d hd => exact ⟨term l _, List.mem_singleton_self _, rfl⟩
  | concat args hinner =>
    obtain ⟨inner, hmem⟩ := hinner
    exact ⟨_, hmem, rfl⟩

theorem StandardStep.size_le {e e' : Expr} (h : StandardStep e e') : e'.size ≤ e.size := by
  cases h with
  | str l d =>
    have hd := size_pos d
    simp only [typedLiteral, apply, size, totalSize]
    omega
  | datatypeName l s => exact size_pos _
  | datatype l d hd =>
    simp only [apply, size, totalSize]
    omega
  | concat args hinner =>
    simp only [apply, size, totalSize_eq_sum]
    refine Nat.add_le_add_left (sum_map_spliced_le (fun inner => ?_) args) 1
    rw [apply, size, totalSize_eq_sum]
    exact Nat.le_add_left _ _

namespace Evaluator

/-- The standard rules, or none. -/
def HasStandardRules (ev : Evaluator) : Prop := ev.rules = none ∨ ev.rules = some .standard

theorem HasStandardRules.step {ev : Evaluator} (h : ev.HasStandardRules) {e e' : Expr}
    (hrule : ev.rewritten? e = some e') : StandardStep e e' := by
  unfold rewritten? at hrule
  rcases h with h | h
  · rw [h] at hrule
    cases hrule
  · rw [h] at hrule
    exact RuleTable.tryRewrite_standard.mp hrule

/-- If one node is rewritten, the standard rules are there, and they rewrite all nodes they can. -/
theorem HasStandardRules.rewritten?_of_step {ev : Evaluator} (h : ev.HasStandardRules)
    {e e' f f' : Expr} (hrule : ev.rewritten? e = some e') (hstep : StandardStep f f') :
    ev.rewritten? f = some f' := by
  rcases h with h | h
  · rw [rewritten?, h] at hrule
    cases hrule
  · rw [rewritten?, h]
    exact RuleTable.tryRewrite_standard.mpr hstep

theorem HasStandardRules.rewritten?_of_const {ev : Evaluator} (h : ev.HasStandardRules) {e : Expr}
    (he : ∀ a ∈ e.operands, a.isConst = true) : ev.rewritten? e = none := by
  cases hrule : ev.rewritten? e with
  | none => rfl
  | some e' =>
    obtain ⟨a, ha, hopen⟩ := (h.step hrule).exists_open
    rw [he a ha] at hopen
    cases hopen

theorem HasStandardRules.nonGrowing {ev : Evaluator} (h : ev.HasStandardRules) : ev.NonGrowing :=
  fun _ _ hrule => (h.step hrule).size_le

end Evaluator

end Residual
