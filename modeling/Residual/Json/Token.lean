import Residual.Json.Basic

/-!
# JSON tokens

A text is a sequence of marks, words and strings, with white space between them. A word is a
longest run of other characters; it has to be a literal name or a number.

* `Token.scan`: the tokens of a text.
* `Token.render`: the text of a token.
-/

namespace Residual.Json

open Residual.Decimal

inductive Token where
  | beginArray
  | endArray
  | beginObject
  | endObject
  | comma
  | colon
  | null
  | bool (b : Bool)
  | number (n : Numeral)
  | string (points : List Nat)
  deriving DecidableEq

namespace Token

/-! ## Marks and words -/

def isSpace (c : Char) : Bool := c = ' ' || c = '\t' || c = '\n' || c = '\r'

def ofMark? (c : Char) : Option Token :=
  if c = '[' then some beginArray
  else if c = ']' then some endArray
  else if c = '\x7b' then some beginObject
  else if c = '\x7d' then some endObject
  else if c = ',' then some comma
  else if c = ':' then some colon
  else none

/-- Whether a numeral is a number of this format: no plus sign, no superfluous leading zero, and
digits on both sides of a point. -/
def isNumber (n : Numeral) : Bool :=
  n.sign != some .plus && n.fraction != some []
    && (n.whole == ['0'] || (n.whole != [] && n.whole.head? != some '0'))

def ofWord? (cs : List Char) : Option Token :=
  if cs = ['n', 'u', 'l', 'l'] then some null
  else if cs = ['t', 'r', 'u', 'e'] then some (bool true)
  else if cs = ['f', 'a', 'l', 's', 'e'] then some (bool false)
  else ((Numeral.read? cs).filter isNumber).map number

/-! ## Strings -/

/-- The escapes by a single letter, with the code points that they stand for. -/
def letterEscapes : List (Char × Nat) :=
  [('"', 0x22), ('\\', 0x5C), ('/', 0x2F), ('b', 0x08), ('f', 0x0C), ('n', 0x0A), ('r', 0x0D),
   ('t', 0x09)]

/-- The value of a digit in base sixteen, of either case. -/
def hexValue? (c : Char) : Option Nat :=
  if '0' ≤ c ∧ c ≤ '9' then some (c.toNat - '0'.toNat)
  else if 'a' ≤ c ∧ c ≤ 'f' then some (c.toNat - 'a'.toNat + 10)
  else if 'A' ≤ c ∧ c ≤ 'F' then some (c.toNat - 'A'.toNat + 10)
  else none

/-- How much of an escape inside a string has been read. -/
inductive Escape where
  | none
  | backslash
  /-- So many digits of a code, and their value. -/
  | code (count value : Nat)

/-- How a code point is written inside a string. -/
def renderPoint (p : Nat) : List Char :=
  if p = 0x22 then ['\\', '"']
  else if p = 0x5C then ['\\', '\\']
  else if p = 0x08 then ['\\', 'b']
  else if p = 0x09 then ['\\', 't']
  else if p = 0x0A then ['\\', 'n']
  else if p = 0x0C then ['\\', 'f']
  else if p = 0x0D then ['\\', 'r']
  else if p < 0x20 ∨ (0xD800 ≤ p ∧ p < 0xE000) then
    ['\\', 'u'] ++ [p / 4096, p / 256 % 16, p / 16 % 16, p % 16].map Nat.digitChar
  else [Char.ofNat p]

/-! ## Texts -/

/-- The lexeme in which a position of a text lies, with what has been read of it in reverse. -/
inductive Lexeme where
  | none
  | word (letters : List Char)
  | string (points : List Nat) (escape : Escape)

/-- The tokens of the rest of a text, of which a part of a lexeme has been read. -/
def scanFrom : Lexeme → List Char → Option (List Token)
  | .none, [] => some []
  | .word letters, [] => (ofWord? letters.reverse).map ([·])
  | .string _ _, [] => none
  | .none, c :: cs =>
    if isSpace c then scanFrom .none cs
    else if c = '"' then scanFrom (.string [] .none) cs
    else
      match ofMark? c with
      | some mark => (scanFrom .none cs).map (mark :: ·)
      | none => scanFrom (.word [c]) cs
  | .word letters, c :: cs =>
    if isSpace c then
      match ofWord? letters.reverse with
      | some word => (scanFrom .none cs).map (word :: ·)
      | none => none
    else
      match ofMark? c with
      | some mark =>
        match ofWord? letters.reverse with
        | some word => (scanFrom .none cs).map (word :: mark :: ·)
        | none => none
      | none => scanFrom (.word (c :: letters)) cs
  | .string points .none, c :: cs =>
    if c = '"' then (scanFrom .none cs).map (string points.reverse :: ·)
    else if c = '\\' then scanFrom (.string points .backslash) cs
    else if c.toNat < 0x20 then none
    else scanFrom (.string (c.toNat :: points) .none) cs
  | .string points .backslash, c :: cs =>
    if c = 'u' then scanFrom (.string points (.code 0 0)) cs
    else
      match letterEscapes.lookup c with
      | some p => scanFrom (.string (p :: points) .none) cs
      | none => none
  | .string points (.code count value), c :: cs =>
    match hexValue? c with
    | none => none
    | some d =>
      let value := 16 * value + d
      if count = 3 then scanFrom (.string (value :: points) .none) cs
      else scanFrom (.string points (.code (count + 1) value)) cs

/-- The tokens of a text. -/
def scan (cs : List Char) : Option (List Token) := scanFrom .none cs

/-- The text of a token. -/
def render : Token → List Char
  | beginArray => ['[']
  | endArray => [']']
  | beginObject => ['\x7b']
  | endObject => ['\x7d']
  | comma => [',']
  | colon => [':']
  | null => ['n', 'u', 'l', 'l']
  | bool true => ['t', 'r', 'u', 'e']
  | bool false => ['f', 'a', 'l', 's', 'e']
  | number n => n.render
  | string points => '"' :: (points.flatMap renderPoint ++ ['"'])

end Token

end Residual.Json
