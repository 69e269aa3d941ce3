import Mathlib.Algebra.GroupWithZero.Nat
import Residual.Expr.Substitution

/-!
# Nodes of expressions

Calls and typed terms are treated alike here, as nodes with operands. A node is changed by changing
its operands, and what is proved of an expression is proved of its operands first.

* `Expr.mapOperands`: the node with every operand changed.
* `Expr.nodeInduction`: induction with a single case for calls and typed terms.
* `Expr.OccursIn`: occurrence at any depth.
* `Expr.size_lt_of_mem_operands`: an operand is smaller than its node.
* `Expr.substitute_node`: substitution acts on the operands of a node.
-/

namespace Residual.Expr

/-! ## Nodes -/

/-- The node with every operand changed. -/
def mapOperands (f : Expr → Expr) (e : Expr) : Expr := e.withOperands (e.operands.map f)

@[simp] theorem mapOperands_call (f : Expr → Expr) (name : Option String) (args : List Expr) :
    (call name args).mapOperands f = call name (args.map f) := rfl

@[simp] theorem mapOperands_term (f : Expr → Expr) (l d : Expr) :
    (term l d).mapOperands f = term (f l) (f d) := rfl

@[simp] theorem isNode_mapOperands (f : Expr → Expr) (e : Expr) :
    (e.mapOperands f).isNode = e.isNode := by
  cases e <;> rfl

@[simp] theorem operands_mapOperands (f : Expr → Expr) (e : Expr) :
    (e.mapOperands f).operands = e.operands.map f := by
  cases e <;> rfl

theorem forall_operands_mapOperands {f : Expr → Expr} {e : Expr} {P : Expr → Prop} :
    (∀ a ∈ (e.mapOperands f).operands, P a) ↔ ∀ a ∈ e.operands, P (f a) := by
  rw [operands_mapOperands, List.forall_mem_map]

theorem mapOperands_congr {f g : Expr → Expr} {e : Expr} (h : ∀ a ∈ e.operands, f a = g a) :
    e.mapOperands f = e.mapOperands g := by
  rw [mapOperands, mapOperands, List.map_congr_left h]

theorem mapOperands_mapOperands (f g : Expr → Expr) (e : Expr) :
    (e.mapOperands f).mapOperands g = e.mapOperands (fun a => g (f a)) := by
  cases e <;> simp [mapOperands, withOperands, operands, Function.comp_def]

theorem mapOperands_eq_self {f : Expr → Expr} {e : Expr} (h : ∀ a ∈ e.operands, f a = a) :
    e.mapOperands f = e := by
  rw [mapOperands, List.map_congr_left h, List.map_id', withOperands_operands]

theorem isConst_iff {e : Expr} : e.isConst = true ↔ ∃ v, e = const v := by
  cases e <;> simp [isConst]

theorem value?_eq_some {e : Expr} {v : Value} (h : e.value? = some v) : e = const v := by
  cases e with
  | const w => exact congrArg const (Option.some.inj h)
  | var x => cases h
  | call name args => cases h
  | term l d => cases h

/-- Induction over trees in which calls and typed terms are one case. -/
@[elab_as_elim]
theorem nodeInduction {motive : Expr → Prop} (const : ∀ v, motive (const v))
    (var : ∀ x, motive (var x))
    (node : ∀ e, e.isNode = true → (∀ a ∈ e.operands, motive a) → motive e) (e : Expr) :
    motive e := by
  induction e using Expr.induction with
  | const v => exact const v
  | var x => exact var x
  | call name args ih => exact node _ rfl ih
  | term l d hl hd => exact node _ rfl (by simp [operands, hl, hd])

theorem operands_withOperands {e : Expr} {es : List Expr} (h : es.length = e.operands.length) :
    (e.withOperands es).operands = es := by
  cases e with
  | const v => exact (List.length_eq_zero_iff.mp h).symm
  | var x => exact (List.length_eq_zero_iff.mp h).symm
  | call name args => rfl
  | term l d =>
    match es, h with
    | [_, _], _ => rfl

/-! ## Occurrence -/

/-- An expression occurs in itself, and in every node in one of whose operands it occurs. -/
inductive OccursIn (a : Expr) : Expr → Prop
  | here : OccursIn a a
  | inside {c e : Expr} (hc : c ∈ e.operands) (h : OccursIn a c) : OccursIn a e

theorem occursIn_iff {a e : Expr} : a.OccursIn e ↔ a = e ∨ ∃ c ∈ e.operands, a.OccursIn c := by
  constructor
  · intro h
    cases h with
    | here => exact Or.inl rfl
    | inside hc h => exact Or.inr ⟨_, hc, h⟩
  · rintro (rfl | ⟨c, hc, h⟩)
    · exact .here
    · exact .inside hc h

@[simp] theorem occursIn_const {a : Expr} {v : Value} : a.OccursIn (const v) ↔ a = const v := by
  rw [occursIn_iff]
  simp [operands]

@[simp] theorem occursIn_var {a : Expr} {x : String} : a.OccursIn (var x) ↔ a = var x := by
  rw [occursIn_iff]
  simp [operands]

@[simp] theorem occursIn_call {a : Expr} {name : Option String} {args : List Expr} :
    a.OccursIn (call name args) ↔ a = call name args ∨ ∃ c ∈ args, a.OccursIn c :=
  occursIn_iff

@[simp] theorem occursIn_term {a l d : Expr} :
    a.OccursIn (term l d) ↔ a = term l d ∨ a.OccursIn l ∨ a.OccursIn d := by
  rw [occursIn_iff]
  simp [operands]

/-! ## The type error -/

theorem isTypeError_iff {e : Expr} : e.isTypeError = true ↔ e = typeError := by
  cases e with
  | const v => cases v <;> simp [isTypeError, typeError]
  | var x => simp [isTypeError, typeError]
  | call name args => simp [isTypeError, typeError]
  | term l d => simp [isTypeError, typeError]

theorem const_ne_typeError {v : Value} (h : v ≠ .typeError) : const v ≠ typeError :=
  fun h' => h (const.inj h')

/-! ## Sizes -/

theorem totalSize_eq_sum (es : List Expr) : totalSize es = (es.map size).sum := by
  induction es with
  | nil => rfl
  | cons e es ih => rw [totalSize, ih, List.map_cons, List.sum_cons]

theorem size_pos (e : Expr) : 0 < e.size := by
  cases e <;> simp only [size] <;> omega

theorem size_node {e : Expr} (h : e.isNode = true) : e.size = 1 + totalSize e.operands := by
  cases e with
  | const v => simp [isNode] at h
  | var x => simp [isNode] at h
  | call name args => rfl
  | term l d => simp [size, operands, totalSize]

theorem size_le_totalSize {a : Expr} {es : List Expr} (h : a ∈ es) : a.size ≤ totalSize es := by
  induction es with
  | nil => simp at h
  | cons e es ih =>
    rw [totalSize]
    rcases List.mem_cons.mp h with rfl | h
    · exact Nat.le_add_right _ _
    · exact Nat.le_trans (ih h) (Nat.le_add_left _ _)

theorem isNode_of_mem_operands {a e : Expr} (h : a ∈ e.operands) : e.isNode = true := by
  cases e <;> simp_all [operands, isNode]

theorem size_lt_of_mem_operands {a e : Expr} (h : a ∈ e.operands) : a.size < e.size := by
  have hsum := size_le_totalSize h
  rw [size_node (isNode_of_mem_operands h)]
  omega

theorem totalSize_map_le {f g : Expr → Expr} {es : List Expr}
    (h : ∀ a ∈ es, (f a).size ≤ (g a).size) : totalSize (es.map f) ≤ totalSize (es.map g) := by
  induction es with
  | nil => exact Nat.le_refl _
  | cons e es ih =>
    have he := h e List.mem_cons_self
    have hes := ih fun a ha => h a (List.mem_cons_of_mem e ha)
    simp only [List.map_cons, totalSize]
    omega

theorem size_mapOperands_le {f g : Expr → Expr} {e : Expr}
    (h : ∀ a ∈ e.operands, (f a).size ≤ (g a).size) :
    (e.mapOperands f).size ≤ (e.mapOperands g).size := by
  cases hn : e.isNode with
  | false => cases e <;> simp_all [isNode, mapOperands, withOperands]
  | true =>
    rw [size_node (by simpa using hn), size_node (by simpa using hn), operands_mapOperands,
      operands_mapOperands]
    exact Nat.add_le_add_left (totalSize_map_le h) 1

theorem size_mapOperands_le_self {f : Expr → Expr} {e : Expr}
    (h : ∀ a ∈ e.operands, (f a).size ≤ a.size) : (e.mapOperands f).size ≤ e.size := by
  have hle := size_mapOperands_le (g := id) h
  rwa [mapOperands_eq_self (f := id) fun _ _ => rfl] at hle

/-! ## Substitution -/

theorem substitute_node {b : Binding} {e : Expr} (h : e.isNode = true) :
    e.substitute b = e.mapOperands (substitute b) := by
  cases e with
  | const v => simp [isNode] at h
  | var x => simp [isNode] at h
  | call name args => rw [substitute, substituteAll_eq_map, mapOperands_call]
  | term l d => rw [substitute, mapOperands_term]

theorem substitute_var (b : Binding) (x : String) :
    (var x).substitute b = (b.find? x).getD (var x) := by
  rw [substitute]

theorem substitute_const (b : Binding) (v : Value) : (const v).substitute b = const v := by
  rw [substitute]

/-- Only the variables that occur in an expression are looked up. -/
theorem substitute_congr_of_occursIn {b b' : Binding} {e : Expr}
    (h : ∀ x, (var x).OccursIn e → b.find? x = b'.find? x) : e.substitute b = e.substitute b' := by
  induction e using nodeInduction with
  | const v => rw [substitute_const, substitute_const]
  | var x => rw [substitute_var, substitute_var, h x .here]
  | node e he ih =>
    rw [substitute_node he, substitute_node he]
    exact mapOperands_congr fun a ha => ih a ha fun x hx => h x (.inside ha hx)

theorem substitute_empty (e : Expr) : e.substitute ∅ = e := by
  induction e using nodeInduction with
  | const v => rw [substitute_const]
  | var x => rw [substitute_var]; rfl
  | node e he ih => rw [substitute_node he, mapOperands_eq_self ih]

theorem size_substitute_lt_of_mem_operands {b : Binding} {a e : Expr} (h : a ∈ e.operands) :
    (a.substitute b).size < (e.substitute b).size := by
  rw [substitute_node (isNode_of_mem_operands h)]
  exact size_lt_of_mem_operands (by simpa using ⟨a, h, rfl⟩)

end Residual.Expr
