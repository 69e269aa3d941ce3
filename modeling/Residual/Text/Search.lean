/-!
# Texts inside texts

* `occursIn`: whether a text is found somewhere in another one.
-/

namespace Residual.Text

/-- Whether `needle` stands somewhere in the text. -/
def occursIn (needle : List Char) : List Char → Bool
  | [] => needle.isEmpty
  | c :: cs => needle.isPrefixOf (c :: cs) || occursIn needle cs

end Residual.Text
