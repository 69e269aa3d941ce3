/-!
# Datatype names

The IRIs of the datatypes that literals may carry.
-/

namespace Residual

namespace Xsd

def string : String := "http://www.w3.org/2001/XMLSchema#string"
def boolean : String := "http://www.w3.org/2001/XMLSchema#boolean"
def integer : String := "http://www.w3.org/2001/XMLSchema#integer"
def int : String := "http://www.w3.org/2001/XMLSchema#int"
def long : String := "http://www.w3.org/2001/XMLSchema#long"
def short : String := "http://www.w3.org/2001/XMLSchema#short"
def decimal : String := "http://www.w3.org/2001/XMLSchema#decimal"
def float : String := "http://www.w3.org/2001/XMLSchema#float"
def double : String := "http://www.w3.org/2001/XMLSchema#double"

/-- The datatypes whose lexical forms are read as 64-bit integers. -/
def integral : List String := [int, long, short, integer]

/-- The datatypes whose lexical forms are read as doubles. -/
def fractional : List String := [decimal, float, double]

end Xsd

namespace Rdf

/-- The datatype of a string with a language tag. -/
def langString : String := "http://www.w3.org/1999/02/22-rdf-syntax-ns#langString"

end Rdf

end Residual
