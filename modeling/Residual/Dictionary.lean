/-!
# Dictionaries

A dictionary is a finite map from names. No name occurs twice, so that its size counts names.

* `Dictionary.find?`, `Dictionary.insert`, `Dictionary.erase`: with the laws of a map.
* `Dictionary.sorted`: the entries in the order of their names.
-/

namespace Residual

/-- A finite map from names to values of `α`. -/
structure Dictionary (α : Type) where
  entries : List (String × α)
  nodup : (entries.map Prod.fst).Nodup

namespace Dictionary

variable {α β : Type}

def empty : Dictionary α := ⟨[], List.nodup_nil⟩

instance : EmptyCollection (Dictionary α) := ⟨empty⟩

instance : Inhabited (Dictionary α) := ⟨empty⟩

def find? (d : Dictionary α) (name : String) : Option α := d.entries.lookup name

def contains (d : Dictionary α) (name : String) : Bool := (d.find? name).isSome

def size (d : Dictionary α) : Nat := d.entries.length

def isEmpty (d : Dictionary α) : Bool := d.entries.isEmpty

theorem nodup_filter (d : Dictionary α) (p : String × α → Bool) :
    ((d.entries.filter p).map Prod.fst).Nodup :=
  (List.filter_sublist.map Prod.fst).nodup d.nodup

/-- Removes a name. -/
def erase (d : Dictionary α) (name : String) : Dictionary α :=
  ⟨d.entries.filter (·.1 != name), d.nodup_filter _⟩

/-- Gives a name a value, in place of the one it may have had. -/
def insert (d : Dictionary α) (name : String) (a : α) : Dictionary α where
  entries := (name, a) :: (d.erase name).entries
  nodup := by
    rw [List.map_cons, List.nodup_cons]
    refine ⟨?_, (d.erase name).nodup⟩
    simp [erase]

/-- The dictionary of a list of entries, where a later entry replaces an earlier one. -/
def ofList (entries : List (String × α)) : Dictionary α :=
  entries.foldl (fun d e => d.insert e.1 e.2) empty

/-- Changes every value. -/
def map (f : α → β) (d : Dictionary α) : Dictionary β where
  entries := d.entries.map fun e => (e.1, f e.2)
  nodup := by simpa [List.map_map, Function.comp_def] using d.nodup

/-- The entries in ascending order of their names. -/
def sorted (d : Dictionary α) : List (String × α) :=
  d.entries.mergeSort fun a b => decide (a.1 ≤ b.1)

/-- The names in ascending order. -/
def names (d : Dictionary α) : List String := d.sorted.map Prod.fst

/-! ## Laws of a map -/

@[simp] theorem find?_empty (name : String) : (empty : Dictionary α).find? name = none := rfl

theorem lookup_filter_ne (es : List (String × α)) (name other : String) :
    (es.filter (·.1 != name)).lookup other = if other = name then none else es.lookup other := by
  induction es with
  | nil => simp
  | cons e es ih =>
    obtain ⟨k, a⟩ := e
    by_cases hk : k = name
    · rw [List.filter_cons_of_neg (by simp [hk]), ih]
      by_cases ho : other = name
      · simp [ho]
      · have hne : (other == k) = false := beq_eq_false_iff_ne.mpr (hk ▸ ho)
        simp [ho, List.lookup_cons, hne]
    · rw [List.filter_cons_of_pos (by simp [hk]), List.lookup_cons, List.lookup_cons, ih]
      by_cases ho : other = k
      · simp [ho, hk]
      · simp [beq_eq_false_iff_ne.mpr ho]

theorem find?_erase (d : Dictionary α) (name other : String) :
    (d.erase name).find? other = if other = name then none else d.find? other :=
  lookup_filter_ne d.entries name other

theorem find?_insert (d : Dictionary α) (name other : String) (a : α) :
    (d.insert name a).find? other = if other = name then some a else d.find? other := by
  by_cases h : other = name
  · simp [find?, insert, h]
  · have := find?_erase d name other
    simp only [h, if_false] at this ⊢
    simp only [find?, insert, List.lookup_cons, beq_eq_false_iff_ne.mpr h]
    exact this

theorem find?_map (f : α → β) (d : Dictionary α) (name : String) :
    (d.map f).find? name = (d.find? name).map f := by
  simp only [find?, map]
  induction d.entries with
  | nil => rfl
  | cons e es ih =>
    obtain ⟨k, a⟩ := e
    rw [List.map_cons, List.lookup_cons, List.lookup_cons, ih]
    cases name == k <;> rfl

end Dictionary

end Residual
