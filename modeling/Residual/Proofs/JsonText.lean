import Mathlib.Tactic.SplitIfs
import Residual.Json.Reader
import Residual.Json.Printer
import Residual.Proofs.Numeral

/-!
# Reading what is written

A JSON value is written as tokens, and the tokens as characters; spaces may stand between them. Read
again, the characters give the tokens and the tokens the value, however the text is spaced. The one
thing to see to is that no word runs into the next token: after every word there is a mark, a space
or the end.

* `Json.Writable`: values whose numbers and strings have texts.
* `Token.Spells`: a text that is scanned as given tokens, whatever follows.
* `Json.spells_compact`, `Json.spells_lines`: both printers spell the tokens of a value.
* `Json.steps_tokens`: the tokens of a value are read as this value.
* `Json.read?_compact`, `Json.read?_pretty`: so both texts are.
-/

namespace Residual.Json

open Residual.Decimal

/-! ## Values that can be written -/

/-- Numbers in the form of the format, and strings of code points. -/
inductive Writable : Json → Prop
  | null : Writable null
  | bool (b : Bool) : Writable (bool b)
  | number (n : Numeral) (hn : n.IsWellFormed) (hnumber : Token.isNumber n = true) :
    Writable (number n)
  | string (points : List Nat) (h : ∀ p ∈ points, p < 0x110000) : Writable (string points)
  | array (items : List Json) (h : ∀ j ∈ items, Writable j) : Writable (array items)
  | object (members : List (List Nat × Json)) (hname : ∀ m ∈ members, ∀ p ∈ m.1, p < 0x110000)
    (h : ∀ m ∈ members, Writable m.2) : Writable (object members)

@[elab_as_elim]
theorem induction {motive : Json → Prop} (null : motive null) (bool : ∀ b, motive (bool b))
    (number : ∀ n, motive (number n)) (string : ∀ points, motive (string points))
    (array : ∀ items, (∀ j ∈ items, motive j) → motive (array items))
    (object : ∀ members, (∀ m ∈ members, motive m.2) → motive (object members)) (j : Json) :
    motive j :=
  j.rec (motive_1 := motive) (motive_2 := fun items => ∀ j ∈ items, motive j)
    (motive_3 := fun members => ∀ m ∈ members, motive m.2) (motive_4 := fun m => motive m.2)
    null bool number string array object (by simp)
    (fun _ _ hj hjs => List.forall_mem_cons.mpr ⟨hj, hjs⟩) (by simp)
    (fun _ _ hm hms => List.forall_mem_cons.mpr ⟨hm, hms⟩) (fun _ _ hj => hj)

namespace Token

/-! ## Words -/

/-- A character inside a word. -/
def IsPlain (c : Char) : Prop := isSpace c = false ∧ ofMark? c = none ∧ c ≠ '"'

/-- The text does not go on with a word. -/
def EndsWord (cs : List Char) : Prop := ∀ c ∈ cs.head?, isSpace c = true ∨ ∃ t, ofMark? c = some t

theorem mark_cases {c : Char} {t : Token} (h : ofMark? c = some t) :
    (c = '[' ∧ t = beginArray) ∨ (c = ']' ∧ t = endArray) ∨ (c = '\x7b' ∧ t = beginObject) ∨
      (c = '\x7d' ∧ t = endObject) ∨ (c = ',' ∧ t = comma) ∨ (c = ':' ∧ t = colon) := by
  unfold ofMark? at h
  split_ifs at h with h₁ h₂ h₃ h₄ h₅ h₆
  all_goals simp_all

theorem scanFrom_mark {c : Char} {t : Token} (h : ofMark? c = some t) (cs : List Char) :
    scanFrom .none (c :: cs) = (scanFrom .none cs).map (t :: ·) := by
  rcases mark_cases h with ⟨rfl, rfl⟩ | ⟨rfl, rfl⟩ | ⟨rfl, rfl⟩ | ⟨rfl, rfl⟩ | ⟨rfl, rfl⟩ |
    ⟨rfl, rfl⟩ <;> rfl

theorem scanFrom_space {c : Char} (h : isSpace c = true) (cs : List Char) :
    scanFrom .none (c :: cs) = scanFrom .none cs := by
  rw [scanFrom, if_pos h]

theorem scanFrom_wordEnd {letters cs : List Char} {t : Token}
    (ht : ofWord? letters.reverse = some t) (hcs : EndsWord cs) :
    scanFrom (.word letters) cs = (scanFrom .none cs).map (t :: ·) := by
  cases cs with
  | nil =>
    rw [scanFrom, scanFrom, ht]
    rfl
  | cons c cs =>
    by_cases hspace : isSpace c = true
    · rw [scanFrom_space hspace, scanFrom, if_pos hspace, ht]
    · obtain ⟨mark, hmark⟩ := (hcs c rfl).resolve_left hspace
      rw [scanFrom_mark hmark, scanFrom, if_neg hspace, hmark, ht, Option.map_map]
      rfl

theorem scanFrom_letters {word : List Char} (hword : ∀ c ∈ word, IsPlain c)
    (letters cs : List Char) :
    scanFrom (.word letters) (word ++ cs) = scanFrom (.word (word.reverse ++ letters)) cs := by
  induction word generalizing letters with
  | nil => rfl
  | cons c word ih =>
    obtain ⟨⟨hspace, hmark, -⟩, hword⟩ := List.forall_mem_cons.mp hword
    rw [List.cons_append, scanFrom, if_neg (Bool.eq_false_iff.mp hspace), hmark]
    dsimp only
    rw [ih hword, List.reverse_cons, List.append_assoc, List.singleton_append]

theorem scanFrom_word {word cs : List Char} {t : Token} (hne : word ≠ [])
    (hword : ∀ c ∈ word, IsPlain c) (ht : ofWord? word = some t) (hcs : EndsWord cs) :
    scanFrom .none (word ++ cs) = (scanFrom .none cs).map (t :: ·) := by
  cases word with
  | nil => exact absurd rfl hne
  | cons c word =>
    obtain ⟨⟨hspace, hmark, hquote⟩, hword⟩ := List.forall_mem_cons.mp hword
    rw [List.cons_append, scanFrom, if_neg (Bool.eq_false_iff.mp hspace), if_neg hquote, hmark]
    dsimp only
    rw [scanFrom_letters hword, scanFrom_wordEnd _ hcs]
    rwa [List.reverse_append, List.reverse_reverse]

/-! ## Strings -/

theorem hexValue?_digitChar {d : Nat} (h : d < 16) : hexValue? d.digitChar = some d := by
  have hall : ∀ d < 16, hexValue? (Nat.digitChar d) = some d := by decide
  exact hall d h

theorem toNat_ofNat {p : Nat} (h : p < 0x110000) (hp : ¬ (0xD800 ≤ p ∧ p < 0xE000)) :
    (Char.ofNat p).toNat = p := by
  have hvalid : p.isValidChar := by
    unfold Nat.isValidChar
    omega
  rw [Char.ofNat, dif_pos hvalid]
  rfl

theorem scanFrom_point {p : Nat} (h : p < 0x110000) (points : List Nat) (cs : List Char) :
    scanFrom (.string points .none) (renderPoint p ++ cs) =
      scanFrom (.string (p :: points) .none) cs := by
  unfold renderPoint
  split_ifs with h₁ h₂ h₃ h₄ h₅ h₆ h₇ h₈
  · subst h₁; rfl
  · subst h₂; rfl
  · subst h₃; rfl
  · subst h₄; rfl
  · subst h₅; rfl
  · subst h₆; rfl
  · subst h₇; rfl
  · -- four digits in base sixteen
    have hlt : p < 65536 := by omega
    have hcode : 16 * (16 * (16 * (16 * 0 + p / 4096) + p / 256 % 16) + p / 16 % 16) + p % 16 = p := by
      omega
    simp only [List.map_cons, List.map_nil, List.cons_append, List.nil_append, scanFrom]
    rw [hexValue?_digitChar (by omega), hexValue?_digitChar (by omega),
      hexValue?_digitChar (by omega), hexValue?_digitChar (by omega)]
    simp only [hcode]
    rfl
  · have hp := toNat_ofNat h (fun hs => h₈ (Or.inr hs))
    have hquote : Char.ofNat p ≠ '"' := by
      intro heq
      rw [heq] at hp
      exact h₁ hp.symm
    have hbackslash : Char.ofNat p ≠ '\\' := by
      intro heq
      rw [heq] at hp
      exact h₂ hp.symm
    rw [List.singleton_append, scanFrom, if_neg hquote, if_neg hbackslash, hp, if_neg (by omega)]

theorem scanFrom_points {ps : List Nat} (h : ∀ p ∈ ps, p < 0x110000) (points : List Nat)
    (cs : List Char) :
    scanFrom (.string points .none) (ps.flatMap renderPoint ++ '"' :: cs) =
      (scanFrom .none cs).map (string (points.reverse ++ ps) :: ·) := by
  induction ps generalizing points with
  | nil =>
    rw [List.flatMap_nil, List.nil_append, List.append_nil, scanFrom, if_pos rfl]
  | cons p ps ih =>
    obtain ⟨hp, hps⟩ := List.forall_mem_cons.mp h
    rw [List.flatMap_cons, List.append_assoc, scanFrom_point hp, ih hps, List.reverse_cons,
      List.append_assoc, List.singleton_append]

/-! ## Texts that spell tokens -/

/-- The text is scanned as these tokens, if no word follows. -/
def Spells (cs : List Char) (ts : List Token) : Prop :=
  ∀ rest, EndsWord rest → scanFrom .none (cs ++ rest) = (scanFrom .none rest).map (ts ++ ·)

theorem endsWord_nil : EndsWord [] := by
  intro c hc
  cases hc

theorem endsWord_mark {c : Char} {t : Token} (h : ofMark? c = some t) (cs : List Char) :
    EndsWord (c :: cs) := by
  intro c' hc'
  cases hc'
  exact Or.inr ⟨t, h⟩

theorem endsWord_space {c : Char} (h : isSpace c = true) (cs : List Char) : EndsWord (c :: cs) := by
  intro c' hc'
  cases hc'
  exact Or.inl h

namespace Spells

variable {cs ds : List Char} {ts us : List Token}

theorem nil : Spells [] [] := by
  intro rest _
  cases h : scanFrom .none rest <;> simp [h]

theorem scan_eq (h : Spells cs ts) : scan cs = some ts := by
  have hscan := h [] endsWord_nil
  rw [List.append_nil] at hscan
  rw [scan, hscan, scanFrom, Option.map_some, List.append_nil]

theorem append (h : Spells cs ts) (h' : Spells ds us)
    (hends : ∀ rest, EndsWord rest → EndsWord (ds ++ rest)) : Spells (cs ++ ds) (ts ++ us) := by
  intro rest hrest
  rw [List.append_assoc, h _ (hends rest hrest), h' rest hrest, Option.map_map]
  congr 1
  funext vs
  exact (List.append_assoc ts us vs).symm

theorem mark {c : Char} {t : Token} (hc : ofMark? c = some t) (h : Spells cs ts) :
    Spells (c :: cs) (t :: ts) := by
  intro rest hrest
  rw [List.cons_append, scanFrom_mark hc, h rest hrest, Option.map_map]
  rfl

theorem space {c : Char} (hc : isSpace c = true) (h : Spells cs ts) : Spells (c :: cs) ts := by
  intro rest hrest
  rw [List.cons_append, scanFrom_space hc, h rest hrest]

theorem spaces (n : Nat) (h : Spells cs ts) : Spells (List.replicate n ' ' ++ cs) ts := by
  induction n with
  | zero => exact h
  | succ n ih => exact space rfl ih

theorem word {t : Token} (hne : cs ≠ []) (hcs : ∀ c ∈ cs, IsPlain c) (ht : ofWord? cs = some t) :
    Spells cs [t] := by
  intro rest hrest
  exact scanFrom_word hne hcs ht hrest

theorem string {points : List Nat} (h : ∀ p ∈ points, p < 0x110000) :
    Spells (render (.string points)) [.string points] := by
  intro rest _
  rw [render, List.cons_append, List.append_assoc, scanFrom]
  exact scanFrom_points h [] rest

/-- After a text, a mark and what follows it. -/
theorem append_mark {c : Char} {t : Token} (h : Spells cs ts) (hc : ofMark? c = some t)
    (h' : Spells ds us) : Spells (cs ++ c :: ds) (ts ++ t :: us) :=
  h.append (mark hc h') fun rest _ => endsWord_mark hc (ds ++ rest)

end Spells

/-! ## Numbers -/

theorem isPlain_of_isDigit {c : Char} (h : c.isDigit = true) : IsPlain c := by
  have hne : ∀ d : Char, d.isDigit = false → c ≠ d := fun _ => ne_of_isDigit h
  refine ⟨?_, ?_, hne '"' rfl⟩
  · simp [isSpace, hne ' ' rfl, hne '\t' rfl, hne '\n' rfl, hne '\r' rfl]
  · simp [ofMark?, hne '[' rfl, hne ']' rfl, hne '\x7b' rfl, hne '\x7d' rfl, hne ',' rfl,
      hne ':' rfl]

theorem isPlain_render {n : Numeral} (hn : n.IsWellFormed) : ∀ c ∈ n.render, IsPlain c :=
  (Numeral.writes_render hn).forall_mem (fun _ => isPlain_of_isDigit)
    (by simp [IsPlain, isSpace, ofMark?])

/-- A number begins with a sign or a digit, by which it is told from the other words. -/
theorem head?_render {n : Numeral} (hn : n.IsWellFormed) (hnumber : isNumber n = true) :
    ∃ c, n.render.head? = some c ∧ (c = '-' ∨ c.isDigit = true) := by
  obtain ⟨sign, whole, fraction, exponent⟩ := n
  rw [Numeral.render_eq]
  cases sign with
  | some s =>
    cases s with
    | minus => exact ⟨'-', rfl, Or.inl rfl⟩
    | plus => simp [isNumber] at hnumber
  | none =>
    cases whole with
    | nil => simp [isNumber] at hnumber
    | cons d ds => exact ⟨d, rfl, Or.inr (hn.whole d List.mem_cons_self)⟩

theorem ofWord?_render {n : Numeral} (hn : n.IsWellFormed) (hnumber : isNumber n = true) :
    ofWord? n.render = some (.number n) := by
  obtain ⟨c, hc, hstart⟩ := head?_render hn hnumber
  have hne : ∀ {d : Char} {ds : List Char}, d ≠ '-' → d.isDigit = false → n.render ≠ d :: ds := by
    intro d ds hminus hdigit h
    rw [h] at hc
    cases hc
    rcases hstart with rfl | hstart
    · exact hminus rfl
    · rw [hdigit] at hstart
      cases hstart
  rw [ofWord?, if_neg (hne (by decide) rfl), if_neg (hne (by decide) rfl),
    if_neg (hne (by decide) rfl), Numeral.read?_render hn, Option.filter_some, if_pos hnumber]
  rfl

theorem Spells.number {n : Numeral} (hn : n.IsWellFormed) (hnumber : isNumber n = true) :
    Spells (render (.number n)) [.number n] := by
  refine word ?_ (isPlain_render hn) (ofWord?_render hn hnumber)
  obtain ⟨c, hc, -⟩ := head?_render hn hnumber
  intro h
  rw [render, List.head?_eq_some_iff] at *
  simp_all

theorem Spells.null : Spells (render .null) [.null] := by
  refine word (by decide) ?_ rfl
  simp [render, IsPlain, isSpace, ofMark?]

theorem Spells.bool (b : Bool) : Spells (render (.bool b)) [.bool b] := by
  cases b
  · refine word (by decide) ?_ rfl
    simp [render, IsPlain, isSpace, ofMark?]
  · refine word (by decide) ?_ rfl
    simp [render, IsPlain, isSpace, ofMark?]

end Token

open Token

/-! ## On one line -/

theorem spells_itemTokens {items : List Json}
    (h : ∀ j ∈ items, Spells (j.tokens.flatMap render) j.tokens) :
    Spells ((itemTokens items).flatMap render) (itemTokens items) := by
  induction items with
  | nil => exact Spells.nil
  | cons j js ih =>
    obtain ⟨hj, hjs⟩ := List.forall_mem_cons.mp h
    cases js with
    | nil => exact hj
    | cons j' js =>
      rw [itemTokens, List.flatMap_append, List.flatMap_cons]
      · exact hj.append_mark rfl (ih hjs)
      · simp

theorem spells_memberTokens {members : List (List Nat × Json)}
    (hname : ∀ m ∈ members, ∀ p ∈ m.1, p < 0x110000)
    (h : ∀ m ∈ members, Spells (m.2.tokens.flatMap render) m.2.tokens) :
    Spells ((memberTokens members).flatMap render) (memberTokens members) := by
  induction members with
  | nil => exact Spells.nil
  | cons m ms ih =>
    obtain ⟨name, j⟩ := m
    obtain ⟨hj, hms⟩ := List.forall_mem_cons.mp h
    obtain ⟨hn, hnames⟩ := List.forall_mem_cons.mp hname
    cases ms with
    | nil =>
      rw [memberTokens, List.flatMap_cons, List.flatMap_cons]
      exact (Spells.string hn).append_mark rfl hj
    | cons m' ms =>
      rw [memberTokens, List.flatMap_cons, List.flatMap_cons, List.flatMap_append,
        List.flatMap_cons]
      · exact (Spells.string hn).append_mark rfl (hj.append_mark rfl (ih hnames hms))
      · simp

theorem spells_compact {j : Json} (h : j.Writable) : Spells (j.tokens.flatMap render) j.tokens := by
  induction h with
  | null => simpa [tokens] using Spells.null
  | bool b => simpa [tokens] using Spells.bool b
  | number n hn hnumber => simpa [tokens] using Spells.number hn hnumber
  | string points hpoints => simpa [tokens] using Spells.string hpoints
  | array items _ ih =>
    rw [tokens, List.flatMap_cons, List.flatMap_append]
    exact Spells.mark rfl ((spells_itemTokens ih).append_mark rfl Spells.nil)
  | object members hname _ ih =>
    rw [tokens, List.flatMap_cons, List.flatMap_append]
    exact Spells.mark rfl ((spells_memberTokens hname ih).append_mark rfl Spells.nil)

/-! ## On several lines -/

theorem Token.Spells.newline {cs : List Char} {ts : List Token} (level : Nat) (h : Spells cs ts) :
    Spells (newline level ++ cs) ts :=
  Spells.space rfl (Spells.spaces _ h)

/-- After a text, a new line and what stands on it. -/
theorem Token.Spells.append_newline {cs ds : List Char} {ts us : List Token} (h : Spells cs ts)
    (level : Nat) (h' : Spells ds us) : Spells (cs ++ (Json.newline level ++ ds)) (ts ++ us) :=
  h.append (h'.newline level) fun _ _ => endsWord_space rfl _

theorem spells_itemLines {items : List Json} {level : Nat}
    (h : ∀ j ∈ items, Spells (lines level j) j.tokens) :
    Spells (itemLines level items) (itemTokens items) := by
  induction items with
  | nil => exact Spells.nil
  | cons j js ih =>
    obtain ⟨hj, hjs⟩ := List.forall_mem_cons.mp h
    cases js with
    | nil => exact hj.newline level
    | cons j' js =>
      rw [itemLines, itemTokens]
      · exact (hj.newline level).append_mark rfl (ih hjs)
      · simp
      · simp

theorem spells_memberLines {members : List (List Nat × Json)} {level : Nat}
    (hname : ∀ m ∈ members, ∀ p ∈ m.1, p < 0x110000)
    (h : ∀ m ∈ members, Spells (lines level m.2) m.2.tokens) :
    Spells (memberLines level members) (memberTokens members) := by
  induction members with
  | nil => exact Spells.nil
  | cons m ms ih =>
    obtain ⟨name, j⟩ := m
    obtain ⟨hj, hms⟩ := List.forall_mem_cons.mp h
    obtain ⟨hn, hnames⟩ := List.forall_mem_cons.mp hname
    have hmember : Spells (newline level ++ render (.string name) ++ [':', ' '] ++ lines level j)
        (.string name :: .colon :: j.tokens) := by
      simp only [List.append_assoc]
      exact Spells.newline level ((Spells.string hn).append_mark rfl (Spells.space rfl hj))
    cases ms with
    | nil => exact hmember
    | cons m' ms =>
      rw [memberLines, memberTokens]
      · exact hmember.append_mark rfl (ih hnames hms)
      · simp
      · simp

theorem spells_lines {j : Json} (h : j.Writable) (level : Nat) :
    Spells (lines level j) j.tokens := by
  induction h generalizing level with
  | null => exact Spells.null
  | bool b => exact Spells.bool b
  | number n hn hnumber => exact Spells.number hn hnumber
  | string points hpoints => exact Spells.string hpoints
  | array items _ ih =>
    rw [lines, tokens]
    split
    · rename_i hempty
      rw [List.isEmpty_iff.mp hempty]
      exact Spells.mark rfl (Spells.mark rfl Spells.nil)
    · simp only [List.append_assoc]
      exact Spells.mark rfl ((spells_itemLines fun j hj => ih j hj _).append_newline level
        (Spells.mark rfl Spells.nil))
  | object members hname _ ih =>
    rw [lines, tokens]
    split
    · rename_i hempty
      rw [List.isEmpty_iff.mp hempty]
      exact Spells.mark rfl (Spells.mark rfl Spells.nil)
    · simp only [List.append_assoc]
      exact Spells.mark rfl ((spells_memberLines hname fun m hm => ih m hm _).append_newline level
        (Spells.mark rfl Spells.nil))

/-! ## From tokens to values -/

theorem steps_cons {expected expected' : Expected} {stack stack' : List Frame} {t : Token}
    (h : step expected stack t = some (expected', stack')) (ts : List Token) :
    steps expected stack (t :: ts) = steps expected' stack' ts := by
  rw [steps, h]

/-- A value may stand at the beginning of an array, where its end may stand as well. -/
theorem steps_itemOrEnd (j : Json) (stack : List Frame) (ts : List Token) :
    steps .itemOrEnd stack (j.tokens ++ ts) = steps .value (.item [] :: stack) (j.tokens ++ ts) := by
  cases j <;> rfl

/-- The value is complete after its tokens. -/
def ReadsTokens (j : Json) : Prop :=
  ∀ stack ts, steps .value stack (j.tokens ++ ts) = steps (.afterValue j) stack ts

theorem steps_itemTokens {j : Json} {js : List Json} (hj : ReadsTokens j)
    (hjs : ∀ j ∈ js, ReadsTokens j) (earlier : List Json) (stack : List Frame) (ts : List Token) :
    steps .value (.item earlier :: stack) (itemTokens (j :: js) ++ .endArray :: ts) =
      steps (.afterValue (array (earlier.reverse ++ j :: js))) stack ts := by
  induction js generalizing j earlier with
  | nil =>
    rw [itemTokens, hj]
    refine (steps_cons rfl ts).trans ?_
    rw [List.reverse_cons]
  | cons j' js ih =>
    obtain ⟨hj', hjs⟩ := List.forall_mem_cons.mp hjs
    rw [itemTokens, List.append_assoc, hj, List.cons_append]
    · refine (steps_cons rfl _).trans ?_
      rw [ih hj' hjs, List.reverse_cons, List.append_assoc, List.singleton_append]
    · simp

theorem steps_memberTokens {m : List Nat × Json} {ms : List (List Nat × Json)}
    (hm : ReadsTokens m.2) (hms : ∀ m ∈ ms, ReadsTokens m.2) (earlier : List (List Nat × Json))
    (stack : List Frame) (ts : List Token) :
    steps (.member earlier) stack (memberTokens (m :: ms) ++ .endObject :: ts) =
      steps (.afterValue (object (earlier.reverse ++ m :: ms))) stack ts := by
  induction ms generalizing m earlier with
  | nil =>
    obtain ⟨name, j⟩ := m
    rw [memberTokens, List.cons_append, List.cons_append]
    refine (steps_cons rfl _).trans ((steps_cons rfl _).trans ?_)
    rw [hm]
    refine (steps_cons rfl ts).trans ?_
    rw [List.reverse_cons]
  | cons m' ms ih =>
    obtain ⟨name, j⟩ := m
    obtain ⟨hm', hms⟩ := List.forall_mem_cons.mp hms
    rw [memberTokens, List.cons_append, List.cons_append, List.append_assoc, List.cons_append]
    · refine (steps_cons rfl _).trans ((steps_cons rfl _).trans ?_)
      rw [hm]
      refine (steps_cons rfl _).trans ?_
      rw [ih hm' hms, List.reverse_cons, List.append_assoc, List.singleton_append]
    · simp

theorem steps_tokens (j : Json) : ReadsTokens j := by
  induction j using induction with
  | null => exact fun _ _ => rfl
  | bool b => exact fun _ _ => rfl
  | number n => exact fun _ _ => rfl
  | string points => exact fun _ _ => rfl
  | array items ih =>
    intro stack ts
    rw [tokens, List.cons_append, List.append_assoc]
    refine (steps_cons rfl _).trans ?_
    cases items with
    | nil => rfl
    | cons j js =>
      obtain ⟨hj, hjs⟩ := List.forall_mem_cons.mp ih
      have hfirst : ∃ us, itemTokens (j :: js) = j.tokens ++ us := by
        cases js with
        | nil => exact ⟨[], (List.append_nil _).symm⟩
        | cons j' js => exact ⟨.comma :: itemTokens (j' :: js), by rw [itemTokens]; simp⟩
      obtain ⟨us, hus⟩ := hfirst
      have hitems := steps_itemTokens hj hjs [] stack ts
      rw [hus, List.append_assoc, ← steps_itemOrEnd, ← List.append_assoc, ← hus] at hitems
      exact hitems
  | object members ih =>
    intro stack ts
    rw [tokens, List.cons_append, List.append_assoc]
    refine (steps_cons rfl _).trans ?_
    cases members with
    | nil => rfl
    | cons m ms =>
      obtain ⟨hm, hms⟩ := List.forall_mem_cons.mp ih
      have hmembers := steps_memberTokens hm hms [] stack ts
      obtain ⟨name, j⟩ := m
      -- an object begins with a name, as it goes on with one after a comma
      cases ms <;> exact hmembers

theorem ofTokens?_tokens (j : Json) : ofTokens? j.tokens = some j := by
  have h := steps_tokens j [] []
  rw [List.append_nil] at h
  rw [ofTokens?, h]
  rfl

theorem read?_ofList {cs : List Char} {j : Json} (h : Spells cs j.tokens) :
    read? (String.ofList cs) = some j := by
  rw [read?, String.toList_ofList, h.scan_eq, Option.bind_some, ofTokens?_tokens]

theorem read?_compact {j : Json} (h : j.Writable) : read? j.compact = some j :=
  read?_ofList (spells_compact h)

theorem read?_pretty {j : Json} (h : j.Writable) : read? j.pretty = some j :=
  read?_ofList (spells_lines h 0)

end Residual.Json
