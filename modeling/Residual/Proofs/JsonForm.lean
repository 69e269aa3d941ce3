import Residual.Expr.Json
import Residual.Proofs.JsonText
import Residual.Proofs.Layout
import Residual.Proofs.Tree

/-!
# JSON forms read back

The form of an expression is read as this expression, with two provisos: its containers are not
nested too deep for the reader, and its doubles are read as themselves. How a number is taken as a
double is left open here, so that all of this holds of every way to do it. Many other forms are read
as well, and none of them is less deep than the one that is written.

* `Json.nesting`: how deep the containers of a value are nested.
* `Value.reread?`, `Expr.reread?`: with each double as it is read from the number written for it.
* `Value.ofJson?_toJson`, `Expr.ofJson?_toJson`: what is read from a form.
* `Expr.reread?_eq_some_self_iff`: when this is the expression itself.
* `Value.nesting_toJson_le`, `Expr.nesting_toJson_le`: what is read from within a depth is written
  within this depth.
* `Expr.writable_toJson`: forms have texts.
* `Expr.reread_without_doubles`: what is read from a text without doubles may be written and read
  again.
-/

namespace Residual

/-! ## Lists read item by item -/

theorem mapM_map_eq_some_iff {α β : Type} {write : α → β} {read : β → Option α} {xs : List α} :
    (xs.map write).mapM read = some xs ↔ ∀ x ∈ xs, read (write x) = some x := by
  induction xs with
  | nil => simp
  | cons x xs ih =>
    rw [List.map_cons, List.mapM_cons, List.forall_mem_cons, ← ih]
    cases read (write x) with
    | none => simp
    | some y =>
      cases (xs.map write).mapM read with
      | none => simp
      | some ys => simp

theorem mapM_eq_some_self_iff {α : Type} {f : α → Option α} {xs : List α} :
    xs.mapM f = some xs ↔ ∀ x ∈ xs, f x = some x := by
  have h : (xs.map id).mapM f = some xs ↔ ∀ x ∈ xs, f (id x) = some x := mapM_map_eq_some_iff
  rwa [List.map_id] at h

/-- Items that are read under a condition are read if all of them meet it. -/
theorem mapM_map_of_condition {α β γ : Type} {write : α → β} {read : β → Option γ} {p : α → Prop}
    [DecidablePred p] {f : α → Option γ} {xs : List α}
    (h : ∀ x ∈ xs, read (write x) = if p x then f x else none) :
    (xs.map write).mapM read = if ∀ x ∈ xs, p x then xs.mapM f else none := by
  induction xs with
  | nil => simp
  | cons x xs ih =>
    obtain ⟨hx, hxs⟩ := List.forall_mem_cons.mp h
    rw [List.map_cons, List.mapM_cons, List.mapM_cons, hx, ih hxs]
    by_cases hp : p x
    · by_cases hps : ∀ y ∈ xs, p y
      · rw [if_pos hp, if_pos hps, if_pos (List.forall_mem_cons.mpr ⟨hp, hps⟩)]
      · rw [if_neg hps, if_neg fun hall => hps (List.forall_mem_cons.mp hall).2]
        cases (if p x then f x else none) <;> rfl
    · rw [if_neg hp, if_neg fun hall => hp (List.forall_mem_cons.mp hall).1]
      rfl

theorem isSome_mapM_iff {α β : Type} {f : α → Option β} {xs : List α} :
    (xs.mapM f).isSome = true ↔ ∀ x ∈ xs, (f x).isSome = true := by
  induction xs with
  | nil => simp
  | cons x xs ih =>
    rw [List.mapM_cons, List.forall_mem_cons, ← ih]
    cases f x with
    | none => simp
    | some y => cases xs.mapM f <;> simp

theorem length_of_mapM_eq_some {α β : Type} {f : α → Option β} {xs : List α} {ys : List β}
    (h : xs.mapM f = some ys) : ys.length = xs.length := by
  induction xs generalizing ys with
  | nil =>
    rw [List.mapM_nil] at h
    cases h
    rfl
  | cons x xs ih =>
    rw [List.mapM_cons] at h
    obtain ⟨y, -, h⟩ := Option.bind_eq_some_iff.mp h
    obtain ⟨zs, hzs, h⟩ := Option.bind_eq_some_iff.mp h
    cases h
    rw [List.length_cons, List.length_cons, ih hzs]

theorem exists_of_mapM_eq_some {α β : Type} {read : α → Option β} {js : List α} {xs : List β}
    (h : js.mapM read = some xs) : ∀ x ∈ xs, ∃ j ∈ js, read j = some x := by
  induction js generalizing xs with
  | nil =>
    rw [List.mapM_nil] at h
    cases h
    simp
  | cons j js ih =>
    rw [List.mapM_cons] at h
    obtain ⟨x, hx, h⟩ := Option.bind_eq_some_iff.mp h
    obtain ⟨xs, hxs, h⟩ := Option.bind_eq_some_iff.mp h
    cases h
    refine List.forall_mem_cons.mpr ⟨⟨j, List.mem_cons_self, hx⟩, fun y hy => ?_⟩
    obtain ⟨j', hj', hread⟩ := ih hxs y hy
    exact ⟨j', List.mem_cons_of_mem j hj', hread⟩

namespace Json

open Residual.Decimal

/-! ## Strings -/

theorem characters?_map_toNat (cs : List Char) : characters? (cs.map Char.toNat) = some cs := by
  induction cs with
  | nil => rfl
  | cons c cs ih =>
    have hvalid : c.toNat < 0xD800 ∨ (0xDFFF < c.toNat ∧ c.toNat < 0x110000) := c.valid
    have hhigh : isHighSurrogate c.toNat = false := by
      simp [isHighSurrogate]
      omega
    have hlow : isLowSurrogate c.toNat = false := by
      simp [isLowSurrogate]
      omega
    rw [List.map_cons, characters?.eq_def]
    simp only [hhigh, hlow, ih, Char.ofNat_toNat, Bool.false_eq_true, if_false, Option.map_some]

@[simp] theorem text?_pointsOf (s : String) : text? (pointsOf s) = some s := by
  rw [text?, pointsOf, characters?_map_toNat, Option.map_some, String.ofList_toList]

@[simp] theorem string?_ofString (s : String) : (ofString s).string? = some s := text?_pointsOf s

theorem pointsOf_lt (s : String) : ∀ p ∈ pointsOf s, p < 0x110000 := by
  intro p hp
  obtain ⟨c, -, rfl⟩ := List.mem_map.mp hp
  have hvalid : c.toNat < 0xD800 ∨ (0xDFFF < c.toNat ∧ c.toNat < 0x110000) := c.valid
  omega

theorem writable_ofString (s : String) : (ofString s).Writable := .string _ (pointsOf_lt s)

/-! ## Numbers -/

theorem int?_ofInt (n : Int) : (ofInt n).int? = some n := by
  unfold ofInt int?
  dsimp only
  rw [natural_digits]
  by_cases hn : n < 0
  · rw [if_pos hn, if_pos rfl, if_neg (by omega)]
    exact congrArg some (by omega)
  · rw [if_neg hn, if_neg (by decide)]
    exact congrArg some (by omega)

@[simp] theorem int64?_ofInt64 (n : Int64) : (ofInt64 n).int64? = some n := by
  rw [int64?, ofInt64, int?_ofInt, Option.bind_some]
  exact inInt64?_eq_some_iff.mpr rfl

theorem writable_ofInt (n : Int) : (ofInt n).Writable := by
  refine .number _ ⟨isDigits_digits _, nofun, nofun⟩ (Token.isNumber_iff.mpr ⟨?_, nofun, ?_⟩)
  · dsimp only
    split <;> simp
  · by_cases hn : n = 0
    · exact Or.inl (by rw [hn]; exact digits_zero)
    · exact Or.inr ⟨digits_ne_nil _, head?_digits (Int.natAbs_ne_zero.mpr hn)⟩

theorem writable_ofDouble (d : Float) : (ofDouble d).Writable := by
  unfold ofDouble
  split
  · exact .number _ (Layout.isWellFormed_numeral _ d) (Layout.isNumber_numeral _ d)
  · exact .null

/-! ## Records and variants -/

theorem writable_record {members : List (String × Json)} (h : ∀ m ∈ members, m.2.Writable) :
    (record members).Writable := by
  refine .object _ (fun m hm => ?_) (fun m hm => ?_)
  · obtain ⟨m', -, rfl⟩ := List.mem_map.mp hm
    exact pointsOf_lt m'.1
  · obtain ⟨m', hm', rfl⟩ := List.mem_map.mp hm
    exact h m' hm'

@[simp] theorem variant?_record (name : String) (j : Json) :
    (record [(name, j)]).variant? = some (name, j) := by
  simp [record, variant?]

theorem namedMembers?_record (members : List (String × Json)) :
    namedMembers? (members.map fun m => (pointsOf m.1, m.2)) = some members := by
  refine mapM_map_eq_some_iff.mpr fun m _ => ?_
  rw [text?_pointsOf, Option.map_some]

theorem fields?_record {a b : String} (h : a ≠ b) (x y : Json) :
    fields? false [a, b] (record [(a, x), (b, y)]) = some [some x, some y] := by
  have hb : b ≠ a := h.symm
  rw [record, fields?, namedMembers?_record]
  simp [member?, h, hb]

/-! ## Depth -/

mutual

/-- How deep containers are nested in a value. -/
def nesting : Json → Nat
  | array items => 1 + itemNesting items
  | object members => 1 + memberNesting members
  | _ => 0

/-- How deep containers are nested in the items of an array. -/
def itemNesting : List Json → Nat
  | [] => 0
  | j :: js => max j.nesting (itemNesting js)

/-- How deep containers are nested in the members of an object. -/
def memberNesting : List (List Nat × Json) → Nat
  | [] => 0
  | (_, j) :: ms => max j.nesting (memberNesting ms)

end

theorem itemNesting_le_iff {items : List Json} {n : Nat} :
    itemNesting items ≤ n ↔ ∀ j ∈ items, j.nesting ≤ n := by
  induction items with
  | nil => simp [itemNesting]
  | cons j js ih => rw [itemNesting, Nat.max_le, ih, List.forall_mem_cons]

theorem memberNesting_le_iff {members : List (List Nat × Json)} {n : Nat} :
    memberNesting members ≤ n ↔ ∀ m ∈ members, m.2.nesting ≤ n := by
  induction members with
  | nil => simp [memberNesting]
  | cons m ms ih => rw [memberNesting, Nat.max_le, ih, List.forall_mem_cons]

theorem nesting_array_le_succ {items : List Json} {n : Nat} :
    (array items).nesting ≤ n + 1 ↔ ∀ j ∈ items, j.nesting ≤ n := by
  rw [← itemNesting_le_iff, nesting]
  omega

theorem nesting_record_le_succ {members : List (String × Json)} {n : Nat} :
    (record members).nesting ≤ n + 1 ↔ ∀ m ∈ members, m.2.nesting ≤ n := by
  have h : (record members).nesting ≤ n + 1 ↔
      memberNesting (members.map fun m => (pointsOf m.1, m.2)) ≤ n := by
    rw [record, nesting]
    omega
  rw [h, memberNesting_le_iff, List.forall_mem_map]

@[simp] theorem nesting_null : null.nesting = 0 := by rw [nesting] <;> simp

@[simp] theorem nesting_bool (b : Bool) : (bool b).nesting = 0 := by rw [nesting] <;> simp

@[simp] theorem nesting_ofString (s : String) : (ofString s).nesting = 0 := by
  rw [ofString, nesting] <;> simp

@[simp] theorem nesting_ofInt64 (n : Int64) : (ofInt64 n).nesting = 0 := by
  rw [ofInt64, ofInt, nesting] <;> simp

@[simp] theorem nesting_ofDouble (d : Float) : (ofDouble d).nesting = 0 := by
  unfold ofDouble
  split <;> rw [nesting] <;> simp

@[simp] theorem nesting_array_ne_zero (items : List Json) : (array items).nesting ≠ 0 := by
  rw [nesting]
  omega

@[simp] theorem nesting_record_ne_zero (members : List (String × Json)) :
    (record members).nesting ≠ 0 := by
  rw [record, nesting]
  omega

end Json

namespace Value

/-! ## Values -/

theorem writable_toJson (v : Value) : v.toJson.Writable := by
  cases v with
  | boolean b => exact Json.writable_record (by simpa using .bool b)
  | integer n =>
    exact Json.writable_record (by simpa [Json.ofInt64] using Json.writable_ofInt n.toInt)
  | double d => exact Json.writable_record (by simpa using Json.writable_ofDouble d)
  | string s => exact Json.writable_record (by simpa using Json.writable_ofString s)
  | langString s lang =>
    refine Json.writable_record ?_
    simpa using Json.writable_record (by simp [Json.writable_ofString])
  | typed lexical datatype =>
    refine Json.writable_record ?_
    simpa using Json.writable_record (by simp [Json.writable_ofString])
  | iri name => exact Json.writable_record (by simpa using Json.writable_ofString name)
  | typeError => exact Json.writable_ofString _

theorem stringPair?_record {a b : String} (h : a ≠ b) (x y : String) :
    stringPair? [a, b] (.record [(a, .ofString x), (b, .ofString y)]) = some (x, y) := by
  rw [stringPair?, Json.fields?_record h]
  simp

theorem nesting_toJson_le_two (v : Value) : v.toJson.nesting ≤ 2 := by
  cases v <;> simp [toJson, Json.nesting_record_le_succ]

section

variable [Json.NumberReader]

theorem ofJson?_record (depth : Nat) (kind : String) (j : Json) :
    ofJson? (depth + 1) (.record [(kind, j)]) = ofVariant? depth kind j := by
  have h := Json.variant?_record kind j
  unfold Json.record at h ⊢
  unfold ofJson?
  dsimp only
  rw [h]

theorem ofJson?_cases {depth : Nat} {j : Json} {v : Value} (h : ofJson? depth j = some v) :
    v = typeError ∨ ∃ n kind j', depth = n + 1 ∧ ofVariant? n kind j' = some v := by
  unfold ofJson? at h
  split at h
  · split at h
    · cases h
      exact Or.inl rfl
    · cases h
  · split at h
    · exact Or.inr ⟨_, _, _, rfl, h⟩
    · cases h

/-- What is read from within a depth is written within this depth. -/
theorem nesting_toJson_le {depth : Nat} {j : Json} {v : Value} (h : ofJson? depth j = some v) :
    v.toJson.nesting ≤ depth := by
  rcases ofJson?_cases h with rfl | ⟨n, kind, j', rfl, hv⟩
  · simp [toJson]
  · unfold ofVariant? at hv
    split_ifs at hv with h₁ h₂ h₃ h₄ h₅ h₆ h₇ h₈
    · obtain ⟨b, -, rfl⟩ := Option.map_eq_some_iff.mp hv
      simp [toJson, Json.nesting_record_le_succ]
    · obtain ⟨m, -, rfl⟩ := Option.map_eq_some_iff.mp hv
      simp [toJson, Json.nesting_record_le_succ]
    · obtain ⟨d, -, rfl⟩ := Option.map_eq_some_iff.mp hv
      simp [toJson, Json.nesting_record_le_succ]
    · obtain ⟨s, -, rfl⟩ := Option.map_eq_some_iff.mp hv
      simp [toJson, Json.nesting_record_le_succ]
    · obtain ⟨name, -, rfl⟩ := Option.map_eq_some_iff.mp hv
      simp [toJson, Json.nesting_record_le_succ]
    · obtain ⟨p, -, rfl⟩ := Option.map_eq_some_iff.mp hv
      obtain ⟨m, rfl⟩ := Nat.exists_eq_succ_of_ne_zero (Nat.ne_of_gt h₆.2)
      simp [toJson, Json.nesting_record_le_succ]
    · obtain ⟨p, -, rfl⟩ := Option.map_eq_some_iff.mp hv
      obtain ⟨m, rfl⟩ := Nat.exists_eq_succ_of_ne_zero (Nat.ne_of_gt h₇.2)
      simp [toJson, Json.nesting_record_le_succ]
    · split at hv
      · cases hv
        simp [toJson]
      · cases hv

/-- A double is read from the number that is written for it, as another double or not at all. All
other values are read as themselves. -/
def reread? : Value → Option Value
  | double d => (Json.ofDouble d).double?.map double
  | v => some v

theorem reread?_eq_some_self_iff {v : Value} :
    v.reread? = some v ↔ ∀ d, v = double d → (Json.ofDouble d).double? = some d := by
  cases v <;> simp [reread?]

theorem isSome_reread?_iff {v : Value} :
    v.reread?.isSome = true ↔ ∀ d, v = double d → (Json.ofDouble d).double?.isSome = true := by
  cases v <;> simp [reread?]

theorem ofJson?_record_of_variant {kind : String} {j : Json} {result : Option Value}
    (h : ∀ n, ofVariant? n kind j = if j.nesting ≤ n then result else none) (depth : Nat) :
    ofJson? depth (.record [(kind, j)]) =
      if (Json.record [(kind, j)]).nesting ≤ depth then result else none := by
  cases depth with
  | zero =>
    rw [if_neg fun hdepth => Json.nesting_record_ne_zero _ (Nat.le_zero.mp hdepth)]
    rfl
  | succ depth =>
    rw [ofJson?_record, h]
    simp only [Json.nesting_record_le_succ, List.forall_mem_singleton]

/-- What is read from the form of a value. -/
theorem ofJson?_toJson (depth : Nat) (v : Value) :
    ofJson? depth v.toJson = if v.toJson.nesting ≤ depth then v.reread? else none := by
  cases v with
  | boolean b =>
    exact ofJson?_record_of_variant (fun n => by simp [ofVariant?, Json.bool?, reread?]) depth
  | integer n => exact ofJson?_record_of_variant (fun n => by simp [ofVariant?, reread?]) depth
  | double d => exact ofJson?_record_of_variant (fun n => by simp [ofVariant?, reread?]) depth
  | string s => exact ofJson?_record_of_variant (fun n => by simp [ofVariant?, reread?]) depth
  | iri name => exact ofJson?_record_of_variant (fun n => by simp [ofVariant?, reread?]) depth
  | langString s lang =>
    refine ofJson?_record_of_variant (fun n => ?_) depth
    cases n with
    | zero => simp [ofVariant?]
    | succ n => simp [ofVariant?, stringPair?_record, Json.nesting_record_le_succ, reread?]
  | typed lexical datatype =>
    refine ofJson?_record_of_variant (fun n => ?_) depth
    cases n with
    | zero => simp [ofVariant?]
    | succ n => simp [ofVariant?, stringPair?_record, Json.nesting_record_le_succ, reread?]
  | typeError =>
    rw [toJson, Json.nesting_ofString, if_pos (Nat.zero_le _)]
    simp [ofJson?, Json.ofString, reread?]

end

end Value

namespace Expr

/-! ## Forms and their parts -/

theorem toJson_call (name : Option String) (args : List Expr) :
    (call name args).toJson = .record [("function", .record [
      ("name", name.elim .null .ofString), ("args", .array (args.map toJson))])] := by
  cases name <;> simp [toJson, allToJson_eq_map]

theorem writable_toJson (e : Expr) : e.toJson.Writable := by
  induction e using induction with
  | const v =>
    rw [toJson]
    exact Json.writable_record (by simpa using v.writable_toJson)
  | var x =>
    rw [toJson]
    exact Json.writable_record (by simpa using Json.writable_ofString x)
  | call name args ih =>
    have hargs : (Json.array (args.map toJson)).Writable := .array _ (List.forall_mem_map.mpr ih)
    have hname : (name.elim .null .ofString : Json).Writable := by
      cases name with
      | none => exact .null
      | some f => exact Json.writable_ofString f
    rw [toJson_call]
    refine Json.writable_record ?_
    simpa using Json.writable_record (by simpa using ⟨hname, hargs⟩)
  | term l d hl hd =>
    rw [toJson]
    refine Json.writable_record ?_
    simpa using Json.writable_record (by simpa using ⟨hl, hd⟩)

theorem nesting_const_le_iff {depth : Nat} {v : Value} :
    (const v).toJson.nesting ≤ depth ↔ ∃ n, depth = n + 1 ∧ v.toJson.nesting ≤ n := by
  rw [toJson]
  cases depth with
  | zero => simp
  | succ n => simp [Json.nesting_record_le_succ]

theorem nesting_var_le_iff {depth : Nat} {x : String} :
    (var x).toJson.nesting ≤ depth ↔ ∃ n, depth = n + 1 := by
  rw [toJson]
  cases depth with
  | zero => simp
  | succ n => simp [Json.nesting_record_le_succ]

theorem nesting_call_le_iff {depth : Nat} {name : Option String} {args : List Expr} :
    (call name args).toJson.nesting ≤ depth ↔
      ∃ n, depth = n + 3 ∧ ∀ a ∈ args, a.toJson.nesting ≤ n := by
  have hname : (name.elim .null .ofString : Json).nesting = 0 := by cases name <;> simp
  rw [toJson_call]
  match depth with
  | 0 => simp
  | 1 => simp [Json.nesting_record_le_succ]
  | 2 => simp [Json.nesting_record_le_succ, hname]
  | n + 3 => simp [Json.nesting_record_le_succ, Json.nesting_array_le_succ, hname]

theorem nesting_term_le_iff {depth : Nat} {l d : Expr} :
    (term l d).toJson.nesting ≤ depth ↔
      ∃ n, depth = n + 2 ∧ l.toJson.nesting ≤ n ∧ d.toJson.nesting ≤ n := by
  rw [toJson]
  match depth with
  | 0 => simp
  | 1 => simp [Json.nesting_record_le_succ]
  | n + 2 => simp [Json.nesting_record_le_succ]

theorem nesting_pos (e : Expr) : 0 < e.toJson.nesting := by
  cases e with
  | const v =>
    obtain ⟨n, hn, -⟩ := nesting_const_le_iff.mp (Nat.le_refl (const v).toJson.nesting)
    omega
  | var x =>
    obtain ⟨n, hn⟩ := nesting_var_le_iff.mp (Nat.le_refl (var x).toJson.nesting)
    omega
  | call name args =>
    obtain ⟨n, hn, -⟩ := nesting_call_le_iff.mp (Nat.le_refl (call name args).toJson.nesting)
    omega
  | term l d =>
    obtain ⟨n, hn, -⟩ := nesting_term_le_iff.mp (Nat.le_refl (term l d).toJson.nesting)
    omega

/-! ## Doubles -/

/-- Whether all doubles of an expression have a property. -/
def AllDoubles (P : Float → Prop) (e : Expr) : Prop := ∀ d, (const (.double d)).OccursIn e → P d

section

variable {P : Float → Prop}

theorem allDoubles_const {v : Value} : (const v).AllDoubles P ↔ ∀ d, v = .double d → P d := by
  refine forall_congr' fun d => ?_
  rw [occursIn_const, const.injEq, eq_comm]

theorem allDoubles_var (x : String) : (var x).AllDoubles P := by
  intro d h
  cases occursIn_var.mp h

theorem allDoubles_node {e : Expr} (he : e.isNode = true) :
    e.AllDoubles P ↔ ∀ a ∈ e.operands, a.AllDoubles P := by
  constructor
  · exact fun h a ha d hd => h d (.inside ha hd)
  · intro h d hd
    rcases occursIn_iff.mp hd with rfl | ⟨a, ha, hd⟩
    · cases he
    · exact h a ha d hd

end

/-! ## Reading -/

theorem callOf?_cases {read : Json → Option Expr} {j : Json} {e : Expr}
    (h : callOf? read j = some e) : ∃ name args, ∃ items : List Json, e = call name args ∧
      items.mapM read = some args := by
  unfold callOf? at h
  obtain ⟨fields, -, h⟩ := Option.bind_eq_some_iff.mp h
  split at h
  · rename_i items
    obtain ⟨f, -, h⟩ := Option.bind_eq_some_iff.mp h
    obtain ⟨args, hargs, h⟩ := Option.bind_eq_some_iff.mp h
    cases h
    exact ⟨f, args, items, rfl, hargs⟩
  · cases h

theorem termOf?_cases {read : Json → Option Expr} {j : Json} {e : Expr}
    (h : termOf? read j = some e) : ∃ l d jl jd, e = term l d ∧ read jl = some l ∧
      read jd = some d := by
  unfold termOf? at h
  obtain ⟨fields, -, h⟩ := Option.bind_eq_some_iff.mp h
  split at h
  · rename_i jl jd
    obtain ⟨l, hl, h⟩ := Option.bind_eq_some_iff.mp h
    obtain ⟨d, hd, h⟩ := Option.bind_eq_some_iff.mp h
    cases h
    exact ⟨l, d, jl, jd, rfl, hl, hd⟩
  · cases h

section

variable [Json.NumberReader]

theorem ofJson?_constant (depth : Nat) (j : Json) :
    ofJson? (depth + 1) (.record [("constant", j)]) = (Value.ofJson? depth j).map const := by
  rw [ofJson?.eq_def]
  simp

theorem ofJson?_variable (depth : Nat) (j : Json) :
    ofJson? (depth + 1) (.record [("variable", j)]) = j.string?.map var := by
  rw [ofJson?.eq_def]
  simp

theorem ofJson?_function (depth : Nat) (j : Json) :
    ofJson? (depth + 3) (.record [("function", j)]) = callOf? (ofJson? depth) j := by
  rw [ofJson?.eq_def]
  simp

theorem ofJson?_rdfTerm (depth : Nat) (j : Json) :
    ofJson? (depth + 2) (.record [("rdf_term", j)]) = termOf? (ofJson? depth) j := by
  rw [ofJson?.eq_def]
  simp

/-- The kinds of expressions that are read, and how deep their parts may be then. -/
theorem ofJson?_cases {depth : Nat} {j : Json} {e : Expr} (h : ofJson? depth j = some e) :
    (∃ n v j', depth = n + 1 ∧ e = const v ∧ Value.ofJson? n j' = some v) ∨
      (∃ n x, depth = n + 1 ∧ e = var x) ∨
      (∃ n name args, ∃ items : List Json, depth = n + 3 ∧ e = call name args ∧
        items.mapM (ofJson? n) = some args) ∨
      ∃ n l d jl jd, depth = n + 2 ∧ e = term l d ∧ ofJson? n jl = some l ∧
        ofJson? n jd = some d := by
  rw [ofJson?.eq_def] at h
  match depth, hvariant : j.variant? with
  | 0, _ => cases h
  | n + 1, none =>
    rw [hvariant] at h
    cases h
  | n + 1, some (kind, j') =>
    rw [hvariant] at h
    dsimp only at h
    split_ifs at h
    · obtain ⟨v, hv, rfl⟩ := Option.map_eq_some_iff.mp h
      exact Or.inl ⟨n, v, j', rfl, rfl, hv⟩
    · obtain ⟨x, -, rfl⟩ := Option.map_eq_some_iff.mp h
      exact Or.inr (Or.inl ⟨n, x, rfl, rfl⟩)
    · match n with
      | 0 | 1 => cases h
      | n + 2 =>
        obtain ⟨name, args, items, rfl, hargs⟩ := callOf?_cases h
        exact Or.inr (Or.inr (Or.inl ⟨n, name, args, items, rfl, rfl, hargs⟩))
    · match n with
      | 0 => cases h
      | n + 1 =>
        obtain ⟨l, d, jl, jd, rfl, hl, hd⟩ := termOf?_cases h
        exact Or.inr (Or.inr (Or.inr ⟨n, l, d, jl, jd, rfl, rfl, hl, hd⟩))

/-- What is read from within a depth is written within this depth. -/
theorem nesting_toJson_le {depth : Nat} {j : Json} {e : Expr} (h : ofJson? depth j = some e) :
    e.toJson.nesting ≤ depth := by
  induction depth using Nat.strongRecOn generalizing j e with
  | ind depth ih =>
    rcases ofJson?_cases h with ⟨n, v, j', rfl, rfl, hv⟩ | ⟨n, x, rfl, rfl⟩ |
      ⟨n, name, args, items, rfl, rfl, hargs⟩ | ⟨n, l, d, jl, jd, rfl, rfl, hl, hd⟩
    · exact nesting_const_le_iff.mpr ⟨n, rfl, Value.nesting_toJson_le hv⟩
    · exact nesting_var_le_iff.mpr ⟨n, rfl⟩
    · refine nesting_call_le_iff.mpr ⟨n, rfl, fun a ha => ?_⟩
      obtain ⟨item, -, ha⟩ := exists_of_mapM_eq_some hargs a ha
      exact ih n (by omega) ha
    · exact nesting_term_le_iff.mpr ⟨n, rfl, ih n (by omega) hl, ih n (by omega) hd⟩

mutual

/-- The expression with each double as it is read from the number that is written for it, if all are
read. -/
def reread? : Expr → Option Expr
  | const v => v.reread?.map const
  | var x => some (var x)
  | call name args => (rereadAll? args).map (call name)
  | term l d => do return term (← l.reread?) (← d.reread?)

def rereadAll? : List Expr → Option (List Expr)
  | [] => some []
  | e :: es => do return (← e.reread?) :: (← rereadAll? es)

end

theorem rereadAll?_eq_mapM (es : List Expr) : rereadAll? es = es.mapM reread? := by
  induction es with
  | nil => rfl
  | cons e es ih => rw [rereadAll?, List.mapM_cons, ih]

theorem reread?_node {e : Expr} (he : e.isNode = true) :
    e.reread? = (e.operands.mapM reread?).map e.withOperands := by
  cases e with
  | const v => cases he
  | var x => cases he
  | call name args => rw [reread?, rereadAll?_eq_mapM]; rfl
  | term l d =>
    rw [reread?, operands, List.mapM_cons, List.mapM_cons, List.mapM_nil]
    cases l.reread? with
    | none => rfl
    | some l' => cases d.reread? <;> rfl

theorem isSome_reread?_iff {e : Expr} : e.reread?.isSome = true ↔
    e.AllDoubles fun d => (Json.ofDouble d).double?.isSome = true := by
  induction e using nodeInduction with
  | const v => rw [reread?, Option.isSome_map, Value.isSome_reread?_iff, allDoubles_const]
  | var x => exact iff_of_true rfl (allDoubles_var x)
  | node e he ih =>
    rw [reread?_node he, Option.isSome_map, isSome_mapM_iff, allDoubles_node he]
    exact forall₂_congr ih

theorem reread?_eq_some_self_iff {e : Expr} : e.reread? = some e ↔
    e.AllDoubles fun d => (Json.ofDouble d).double? = some d := by
  induction e using nodeInduction with
  | const v =>
    rw [allDoubles_const, ← Value.reread?_eq_some_self_iff, reread?, Option.map_eq_some_iff]
    simp
  | var x => exact iff_of_true rfl (allDoubles_var x)
  | node e he ih =>
    rw [allDoubles_node he, ← forall₂_congr ih, ← mapM_eq_some_self_iff, reread?_node he,
      Option.map_eq_some_iff]
    constructor
    · rintro ⟨es, hes, hself⟩
      have hoperands := operands_withOperands (length_of_mapM_eq_some hes)
      rw [hself] at hoperands
      rw [hes, hoperands]
    · exact fun h => ⟨e.operands, h, e.withOperands_operands⟩

/-! ## Reading what is written -/

theorem ofJson?_toJson_zero (e : Expr) :
    ofJson? 0 e.toJson = if e.toJson.nesting ≤ 0 then e.reread? else none := by
  rw [if_neg (Nat.not_le_of_lt e.nesting_pos), ofJson?.eq_def]

theorem ofJson?_toJson_call (name : Option String) {args : List Expr}
    (h : ∀ n, ∀ a ∈ args, ofJson? n a.toJson = if a.toJson.nesting ≤ n then a.reread? else none)
    (depth : Nat) : ofJson? depth (call name args).toJson =
      if (call name args).toJson.nesting ≤ depth then (call name args).reread? else none := by
  have hname : Json.optionalString? (some (name.elim .null .ofString)) = some name := by
    cases name with
    | none => rfl
    | some f => simpa [Json.optionalString?, Json.ofString] using Json.string?_ofString f
  match depth with
  | 0 => exact ofJson?_toJson_zero _
  | 1 | 2 =>
    rw [if_neg (by simp [nesting_call_le_iff]), toJson_call, ofJson?.eq_def]
    simp
  | n + 3 =>
    have hargs : (args.map toJson).mapM (ofJson? n) =
        if ∀ a ∈ args, a.toJson.nesting ≤ n then args.mapM reread? else none :=
      mapM_map_of_condition (h n)
    have hnesting : (call name args).toJson.nesting ≤ n + 3 ↔ ∀ a ∈ args, a.toJson.nesting ≤ n := by
      simp [nesting_call_le_iff]
    simp only [hnesting]
    rw [toJson_call, ofJson?_function, callOf?, Json.fields?_record (by decide), reread?,
      rereadAll?_eq_mapM]
    simp only [Option.pure_def, Option.bind_eq_bind, Option.bind_some, hname, hargs]
    split
    · cases args.mapM reread? <;> rfl
    · rfl

theorem ofJson?_toJson_term {l d : Expr}
    (hl : ∀ n, ofJson? n l.toJson = if l.toJson.nesting ≤ n then l.reread? else none)
    (hd : ∀ n, ofJson? n d.toJson = if d.toJson.nesting ≤ n then d.reread? else none)
    (depth : Nat) : ofJson? depth (term l d).toJson =
      if (term l d).toJson.nesting ≤ depth then (term l d).reread? else none := by
  match depth with
  | 0 => exact ofJson?_toJson_zero _
  | 1 =>
    rw [if_neg (by simp [nesting_term_le_iff]), toJson, ofJson?.eq_def]
    simp
  | n + 2 =>
    have hnesting : (term l d).toJson.nesting ≤ n + 2 ↔
        l.toJson.nesting ≤ n ∧ d.toJson.nesting ≤ n := by
      simp [nesting_term_le_iff]
    simp only [hnesting]
    rw [toJson, ofJson?_rdfTerm, termOf?, Json.fields?_record (by decide), reread?]
    simp only [Option.pure_def, Option.bind_eq_bind, Option.bind_some, hl, hd]
    by_cases hboth : l.toJson.nesting ≤ n ∧ d.toJson.nesting ≤ n
    · rw [if_pos hboth.1, if_pos hboth.2, if_pos hboth]
    · rw [if_neg hboth]
      rcases not_and_or.mp hboth with hdeep | hdeep
      · rw [if_neg hdeep]
        rfl
      · rw [if_neg hdeep]
        cases (if l.toJson.nesting ≤ n then l.reread? else none) <;> rfl

/-- **Reading what is written.** The form of an expression is read if it is not too deep, and each
double as it is read from its number. -/
theorem ofJson?_toJson (depth : Nat) (e : Expr) :
    ofJson? depth e.toJson = if e.toJson.nesting ≤ depth then e.reread? else none := by
  induction e using induction generalizing depth with
  | const v =>
    cases depth with
    | zero => exact ofJson?_toJson_zero _
    | succ n =>
      rw [toJson, ofJson?_constant, Value.ofJson?_toJson, reread?]
      simp only [Json.nesting_record_le_succ, List.forall_mem_singleton]
      split <;> rfl
  | var x =>
    cases depth with
    | zero => exact ofJson?_toJson_zero _
    | succ n =>
      rw [if_pos (nesting_var_le_iff.mpr ⟨n, rfl⟩), toJson, ofJson?_variable, reread?]
      simp
  | call name args ih => exact ofJson?_toJson_call name (fun n a ha => ih a ha n) depth
  | term l d hl hd => exact ofJson?_toJson_term hl hd depth

/-! ## Texts -/

/-- What is read from either text that is written for an expression. -/
theorem read?_of_written {e : Expr} {text : String}
    (h : text = e.toJson.compact ∨ text = e.toJson.pretty) :
    read? text = if e.toJson.nesting ≤ Json.depthLimit then e.reread? else none := by
  have hread : Json.read? text = some e.toJson := by
    rcases h with rfl | rfl
    · exact Json.read?_compact e.writable_toJson
    · exact Json.read?_pretty e.writable_toJson
  rw [read?, hread, Option.bind_some, ofJson?_toJson]

theorem read?_eq_some_self_iff {e : Expr} {text : String}
    (h : text = e.toJson.compact ∨ text = e.toJson.pretty) :
    read? text = some e ↔ e.toJson.nesting ≤ Json.depthLimit ∧
      e.AllDoubles fun d => (Json.ofDouble d).double? = some d := by
  rw [read?_of_written h, ← reread?_eq_some_self_iff]
  simp

theorem nesting_toJson_le_of_read? {s : String} {e : Expr} (h : read? s = some e) :
    e.toJson.nesting ≤ Json.depthLimit := by
  obtain ⟨j, -, hj⟩ := Option.bind_eq_some_iff.mp h
  exact nesting_toJson_le hj

/-- Whatever text an expression without doubles was read from, the expression may be written and is
read again, in either layout. -/
theorem reread_without_doubles {s : String} {e : Expr} (h : read? s = some e)
    (hd : ∀ d, ¬ (const (.double d)).OccursIn e) :
    read? e.toJson.compact = some e ∧ read? e.toJson.pretty = some e := by
  have hnesting := nesting_toJson_le_of_read? h
  have hdoubles : e.AllDoubles fun d => (Json.ofDouble d).double? = some d :=
    fun d hocc => absurd hocc (hd d)
  exact ⟨(read?_eq_some_self_iff (Or.inl rfl)).mpr ⟨hnesting, hdoubles⟩,
    (read?_eq_some_self_iff (Or.inr rfl)).mpr ⟨hnesting, hdoubles⟩⟩

end

/-- A call as an array with a name that is null, a typed term with another member, an escape, and
the type error as a variant. -/
theorem reread_without_doubles_at :
    let text := "\x7b\"function\": [null, [\x7b\"rdf_term\":\x7b\"datatype\":\x7b\"constant\":" ++
      "\x7b\"iri\":\"\\u0061\"\x7d\x7d,\"more\":0,\"lexical\":\x7b\"variable\":\"x\"\x7d\x7d\x7d," ++
      "\x7b\"constant\":\x7b\"type_error\":null\x7d\x7d]]\x7d"
    let e := call none [term (var "x") (const (.iri "a")), typeError]
    (read? text = some e ∧ ∀ d, ¬ (const (.double d)).OccursIn e) ∧
      read? e.toJson.compact = some e ∧ read? e.toJson.pretty = some e := by
  intro text e
  have h : read? text = some e := by decide +kernel
  have hd : ∀ d, ¬ (const (.double d)).OccursIn e := by
    intro d hd
    simp [e, typeError] at hd
  exact ⟨⟨h, hd⟩, reread_without_doubles h hd⟩

end Expr

end Residual
