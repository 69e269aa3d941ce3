import Residual.Text.InvisibleTable

/-!
# Names as they are shown in summaries

A summary lists names between quotes with every character visible: the common control characters
by a letter, every other character without a form of its own by its code point.

* `showName`: a name in this form.
-/

namespace Residual.Text

/-- The digits of a code point in base sixteen, in lower case and without leading zeros. -/
def hexDigits (n : Nat) : List Char := Nat.toDigits 16 n

def showChar (c : Char) : List Char :=
  if c = '\x00' then ['\\', '0']
  else if c = '\t' then ['\\', 't']
  else if c = '\r' then ['\\', 'r']
  else if c = '\n' then ['\\', 'n']
  else if c = '"' then ['\\', '"']
  else if c = '\\' then ['\\', '\\']
  else if inRanges invisibleRanges c then
    ['\\', 'u', '\x7b'] ++ hexDigits c.toNat ++ ['\x7d']
  else [c]

def showName (s : String) : String := "\"" ++ String.ofList (s.toList.flatMap showChar) ++ "\""

end Residual.Text
