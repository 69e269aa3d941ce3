import Residual.Dictionary
import Residual.Operator

/-!
# The registry of functions

The registry holds the identifiers that the back end knows. Only calls of these, of the comparison
operators, and calls without an identifier may be folded.

* `Registry.register`, `Registry.unregister`: with the answer whether anything changed.
* `Registry.isKnown`, `Registry.admits`: what may be folded.
* `Registry.admits_builtins`: all operators may be, once they are registered.
-/

namespace Residual

/-- A set of function identifiers. -/
structure Registry where
  identifiers : Dictionary Unit

namespace Registry

def empty : Registry := ⟨∅⟩

instance : EmptyCollection Registry := ⟨empty⟩

def contains (r : Registry) (name : String) : Bool := r.identifiers.contains name

def insert (r : Registry) (name : String) : Registry := ⟨r.identifiers.insert name ()⟩

def erase (r : Registry) (name : String) : Registry := ⟨r.identifiers.erase name⟩

/-- Adds an identifier, and tells whether it was new. -/
def register (r : Registry) (name : String) : Bool × Registry :=
  (!r.contains name, r.insert name)

/-- Removes an identifier, and tells whether it was there. -/
def unregister (r : Registry) (name : String) : Bool × Registry :=
  (r.contains name, r.erase name)

def size (r : Registry) : Nat := r.identifiers.size

def isEmpty (r : Registry) : Bool := r.identifiers.isEmpty

/-- The identifiers in ascending order. -/
def names (r : Registry) : List String := r.identifiers.names

def insertAll (r : Registry) (names : List String) : Registry := names.foldl insert r

def ofList (names : List String) : Registry := insertAll ∅ names

/-- The names of all operators but the comparisons, which need no registration. -/
def builtins : Registry :=
  ofList ((Operator.all.filter fun op => !op.isComparison).map Operator.name)

/-- Whether calls of the identifier may be folded. -/
def isKnown (r : Registry) (name : String) : Bool :=
  (Operator.ofName? name).any (·.isComparison) || r.contains name

/-- Whether a call may be folded. One without an identifier always may. -/
def admits (r : Registry) (name : Option String) : Bool :=
  match name with
  | none => true
  | some f => f == "" || r.isKnown f

theorem contains_insert (r : Registry) (name other : String) :
    (r.insert name).contains other = (decide (other = name) || r.contains other) := by
  simp only [contains, insert, Dictionary.contains, Dictionary.find?_insert]
  by_cases h : other = name <;> simp [h]

theorem contains_erase (r : Registry) (name other : String) :
    (r.erase name).contains other = (!decide (other = name) && r.contains other) := by
  simp only [contains, erase, Dictionary.contains, Dictionary.find?_erase]
  by_cases h : other = name <;> simp [h]

theorem contains_insertAll (r : Registry) (names : List String) (f : String) :
    (r.insertAll names).contains f = (decide (f ∈ names) || r.contains f) := by
  induction names generalizing r with
  | nil => simp [insertAll]
  | cons name names ih =>
    change ((r.insert name).insertAll names).contains f = _
    rw [ih, contains_insert, ← Bool.or_assoc]
    by_cases h : f = name <;> simp [h]

theorem admits_insertAll {r : Registry} {name : Option String} (h : r.admits name = true)
    (names : List String) : (r.insertAll names).admits name = true := by
  cases name with
  | none => rfl
  | some f =>
    simp only [admits, isKnown, contains_insertAll, Bool.or_eq_true] at h ⊢
    rcases h with h | h | h
    · exact Or.inl h
    · exact Or.inr (Or.inl h)
    · exact Or.inr (Or.inr (Or.inr h))

/-- All operators may be folded: the comparisons always, and the others once they are registered. -/
theorem admits_builtins (op : Operator) : builtins.admits (some op.name) = true := by
  rw [admits, isKnown, Operator.ofName?_eq_some_iff.mpr rfl, Option.any_some]
  cases hcompare : op.isComparison with
  | true => simp
  | false =>
    have hmem : op.name ∈ (Operator.all.filter fun op => !op.isComparison).map Operator.name :=
      List.mem_map_of_mem (List.mem_filter.mpr ⟨op.mem_all, by rw [hcompare]; rfl⟩)
    rw [builtins, ofList, contains_insertAll, decide_eq_true hmem]
    simp

end Registry

end Residual
