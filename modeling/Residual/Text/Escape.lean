/-!
# Escapes in printed literals

The text of a literal is printed between quotes. Four characters are escaped there, so that the
first bare quote is the closing one. Each of them is replaced in the whole text before the next one
is. The backslash has to be the first: the escapes of the others bring in backslashes, which must
stay as they are.

* `replaceAll`: a text in place of every occurrence of a character.
* `escapes`, `escape`: the escaped characters, and a text with all of them replaced.
* `quote`: a text between quotes.
-/

namespace Residual.Text

/-- Puts a text in place of every occurrence of a character. -/
def replaceAll (c : Char) (text : List Char) (cs : List Char) : List Char :=
  cs.flatMap fun d => if d = c then text else [d]

/-- Replaces the characters of a table one after the other. -/
def replaceInTurn (table : List (Char × List Char)) (cs : List Char) : List Char :=
  table.foldl (fun cs p => replaceAll p.1 p.2 cs) cs

/-- The escaped characters and what is printed for them, in the order in which they are replaced. -/
def escapes : List (Char × List Char) :=
  [('\\', ['\\', '\\']), ('"', ['\\', '"']), ('\n', ['\\', 'n']), ('\r', ['\\', 'r'])]

/-- A text as it is printed between quotes. A text without any of the four characters is left as it
is. -/
def escape (cs : List Char) : List Char :=
  if cs.any fun c => c = '"' ∨ c = '\\' ∨ c = '\n' ∨ c = '\r' then replaceInTurn escapes cs else cs

/-- A text between quotes. -/
def quote (s : String) : String := "\"" ++ String.ofList (escape s.toList) ++ "\""

end Residual.Text
