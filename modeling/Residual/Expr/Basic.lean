import Residual.Operator
import Residual.Value.Basic

/-!
# Expressions

An expression is a tree of calls and typed-term constructors over constants and variables. A call
names an operator or a function; the name may be missing, and the empty name counts as missing.

* `Expr.induction`: induction over trees, with the hypothesis for every argument of a call.
* `Expr.operands`, `Expr.withOperands`: the arguments of a node, and the node with others.
* `Expr.isGround`, `Expr.size`: absence of variables, and the number of nodes.
-/

namespace Residual

/-- A tree over constants and variables. -/
inductive Expr where
  /-- A value. -/
  | const (value : Value)
  /-- A variable, to be found in a binding. -/
  | var (name : String)
  /-- The call of an operator or function. -/
  | call (name : Option String) (args : List Expr)
  /-- The literal with a given text and datatype. -/
  | term (lexical datatype : Expr)

namespace Expr

instance : Inhabited Expr := ⟨const .typeError⟩

/-! ## Induction and equality -/

@[elab_as_elim]
theorem induction {motive : Expr → Prop} (const : ∀ v, motive (const v)) (var : ∀ x, motive (var x))
    (call : ∀ name args, (∀ a ∈ args, motive a) → motive (call name args))
    (term : ∀ l d, motive l → motive d → motive (term l d)) (e : Expr) : motive e :=
  e.rec (motive_1 := motive) (motive_2 := fun args => ∀ a ∈ args, motive a) const var call term
    (by simp) (fun a args ha hargs => by simpa using ⟨ha, hargs⟩)

mutual

/-- Decides equality of trees. -/
def decEq : (a b : Expr) → Decidable (a = b)
  | const v, const w =>
    if h : v = w then isTrue (congrArg const h) else isFalse fun e => h (const.inj e)
  | var x, var y =>
    if h : x = y then isTrue (congrArg var h) else isFalse fun e => h (var.inj e)
  | call f as, call g bs =>
    if h : f = g then
      match decEqList as bs with
      | isTrue h' => isTrue (h ▸ h' ▸ rfl)
      | isFalse h' => isFalse fun e => h' (call.inj e).2
    else isFalse fun e => h (call.inj e).1
  | term l d, term l' d' =>
    match decEq l l', decEq d d' with
    | isTrue h, isTrue h' => isTrue (h ▸ h' ▸ rfl)
    | isFalse h, _ => isFalse fun e => h (term.inj e).1
    | _, isFalse h => isFalse fun e => h (term.inj e).2
  | const _, var _ => isFalse nofun
  | const _, call _ _ => isFalse nofun
  | const _, term _ _ => isFalse nofun
  | var _, const _ => isFalse nofun
  | var _, call _ _ => isFalse nofun
  | var _, term _ _ => isFalse nofun
  | call _ _, const _ => isFalse nofun
  | call _ _, var _ => isFalse nofun
  | call _ _, term _ _ => isFalse nofun
  | term _ _, const _ => isFalse nofun
  | term _ _, var _ => isFalse nofun
  | term _ _, call _ _ => isFalse nofun

/-- Decides equality of lists of trees. -/
def decEqList : (as bs : List Expr) → Decidable (as = bs)
  | [], [] => isTrue rfl
  | a :: as, b :: bs =>
    match decEq a b, decEqList as bs with
    | isTrue h, isTrue h' => isTrue (h ▸ h' ▸ rfl)
    | isFalse h, _ => isFalse fun e => h (List.cons.inj e).1
    | _, isFalse h => isFalse fun e => h (List.cons.inj e).2
  | [], _ :: _ => isFalse nofun
  | _ :: _, [] => isFalse nofun

end

instance : DecidableEq Expr := decEq

/-! ## Building -/

/-- The type error as an expression. -/
def typeError : Expr := const .typeError

/-- The call of an operator. -/
def apply (op : Operator) (args : List Expr) : Expr := call (some op.name) args

/-- A typed term whose datatype is given as a string. -/
def typedLiteral (lexical : Expr) (datatype : String) : Expr :=
  term lexical (const (.string datatype))

/-! ## Kinds of nodes -/

def isConst : Expr → Bool
  | const _ => true
  | _ => false

def isVar : Expr → Bool
  | var _ => true
  | _ => false

/-- Calls and typed terms, the nodes that have operands. -/
def isNode : Expr → Bool
  | call _ _ | term _ _ => true
  | _ => false

def isTypeError : Expr → Bool
  | const .typeError => true
  | _ => false

def value? : Expr → Option Value
  | const v => some v
  | _ => none

/-- A function name as an identifier: the empty name is none. -/
def identifierOf (name : Option String) : Option String := name.filter (· ≠ "")

/-- The identifier of a named call. -/
def identifier? : Expr → Option String
  | call name _ => identifierOf name
  | _ => none

/-! ## Operands -/

/-- The arguments of a call, or the two parts of a typed term. -/
def operands : Expr → List Expr
  | call _ args => args
  | term l d => [l, d]
  | _ => []

/-- The same node with other operands. Only two operands fit a typed term. -/
def withOperands : Expr → List Expr → Expr
  | call name _, args => call name args
  | term _ _, [l, d] => term l d
  | e, _ => e

@[simp] theorem withOperands_operands (e : Expr) : e.withOperands e.operands = e := by
  cases e <;> rfl

mutual

/-- Whether no variable occurs. -/
def isGround : Expr → Bool
  | const _ => true
  | var _ => false
  | call _ args => allGround args
  | term l d => l.isGround && d.isGround

/-- Whether no variable occurs in any expression of a list. -/
def allGround : List Expr → Bool
  | [] => true
  | e :: es => e.isGround && allGround es

end

theorem allGround_eq_all (es : List Expr) : allGround es = es.all isGround := by
  induction es with
  | nil => rfl
  | cons e es ih => simp [allGround, ih]

mutual

/-- The number of nodes, constants and variables included. -/
def size : Expr → Nat
  | const _ => 1
  | var _ => 1
  | call _ args => 1 + totalSize args
  | term l d => 1 + (l.size + d.size)

/-- The number of nodes of all expressions of a list. -/
def totalSize : List Expr → Nat
  | [] => 0
  | e :: es => e.size + totalSize es

end

end Expr

/-- A call as the rewrite rules see it. -/
structure Call where
  name : Option String
  args : List Expr
  deriving DecidableEq

namespace Call

def identifier? (c : Call) : Option String := Expr.identifierOf c.name

end Call

end Residual
