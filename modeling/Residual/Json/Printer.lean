import Residual.Json.Token

/-!
# Writing JSON

* `Json.compact`: the text without any space, which is that of the tokens one after the other.
* `Json.pretty`: every item and member on a line of its own, indented by two spaces a level.
-/

namespace Residual.Json

/-! ## On one line -/

mutual

/-- The tokens of a value. -/
def tokens : Json → List Token
  | null => [.null]
  | bool b => [.bool b]
  | number n => [.number n]
  | string points => [.string points]
  | array items => .beginArray :: (itemTokens items ++ [.endArray])
  | object members => .beginObject :: (memberTokens members ++ [.endObject])

/-- The tokens of the items of an array. -/
def itemTokens : List Json → List Token
  | [] => []
  | [j] => tokens j
  | j :: js => tokens j ++ .comma :: itemTokens js

/-- The tokens of the members of an object. -/
def memberTokens : List (List Nat × Json) → List Token
  | [] => []
  | [(name, j)] => .string name :: .colon :: tokens j
  | (name, j) :: js => .string name :: .colon :: (tokens j ++ .comma :: memberTokens js)

end

def compact (j : Json) : String := String.ofList (j.tokens.flatMap Token.render)

/-! ## On several lines -/

/-- A new line at a level of indentation. -/
def newline (level : Nat) : List Char := '\n' :: List.replicate (2 * level) ' '

mutual

/-- The lines of a value that begins at a level of indentation. -/
def lines (level : Nat) : Json → List Char
  | null => Token.render .null
  | bool b => Token.render (.bool b)
  | number n => Token.render (.number n)
  | string points => Token.render (.string points)
  | array items =>
    if items.isEmpty then ['[', ']']
    else ['['] ++ itemLines (level + 1) items ++ newline level ++ [']']
  | object members =>
    if members.isEmpty then ['\x7b', '\x7d']
    else ['\x7b'] ++ memberLines (level + 1) members ++ newline level ++ ['\x7d']

/-- The lines of the items of an array. -/
def itemLines (level : Nat) : List Json → List Char
  | [] => []
  | [j] => newline level ++ lines level j
  | j :: js => newline level ++ lines level j ++ ',' :: itemLines level js

/-- The lines of the members of an object. -/
def memberLines (level : Nat) : List (List Nat × Json) → List Char
  | [] => []
  | [(name, j)] => newline level ++ Token.render (.string name) ++ [':', ' '] ++ lines level j
  | (name, j) :: js =>
    newline level ++ Token.render (.string name) ++ [':', ' '] ++ lines level j
      ++ ',' :: memberLines level js

end

def pretty (j : Json) : String := String.ofList (lines 0 j)

end Residual.Json
