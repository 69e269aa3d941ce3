import Residual.Vocabulary
import Residual.Value.Lexical
import Residual.Text.Escape

/-!
# Values

A value is an RDF term without variables: an IRI, a literal, or the type error, which stands for
the outcome of a comparison that makes no sense. Literals of four datatypes have values of their
own; a literal of any other datatype, or with an ill-formed text, keeps its text.

* `Value.ofLexical`: the literal with a given text and datatype.
* `Value.lexicalForm`, `Value.datatype?`, `Value.lang?`: the parts of a literal.
* `Value.text`: the printed form.
-/

namespace Residual

/-- An RDF term, or the type error. Equality is that of the parts; in particular a double equals
itself, and `0.0` differs from `-0.0`. -/
inductive Value where
  | boolean (b : Bool)
  | integer (n : Int64)
  | double (d : Float)
  | string (s : String)
  | langString (s lang : String)
  | typed (lexical datatype : String)
  | iri (name : String)
  | typeError
  deriving DecidableEq

namespace Value

instance : Inhabited Value := ⟨typeError⟩

/-! ## Kinds -/

def isTypeError : Value → Bool
  | typeError => true
  | _ => false

def isIri : Value → Bool
  | iri _ => true
  | _ => false

def isLiteral : Value → Bool
  | iri _ | typeError => false
  | _ => true

/-! ## Literals by text and datatype -/

/-- The value of a well-formed text of one of the datatypes that have values of their own. -/
def native? (lexical datatype : String) : Option Value :=
  if datatype = Xsd.string then some (string lexical)
  else if datatype = Xsd.boolean then (Lexical.boolean? lexical).map boolean
  else if datatype = Xsd.integer then (Lexical.integer? lexical).map integer
  else if datatype = Xsd.double then (Lexical.double? lexical).map double
  else none

/-- The literal with the given text and datatype. A text that is no value keeps its spelling. -/
def ofLexical (lexical datatype : String) : Value :=
  (native? lexical datatype).getD (typed lexical datatype)

/-- The text of a literal, or the name of an IRI. The type error has none. -/
def lexicalForm : Value → String
  | boolean b => Lexical.ofBoolean b
  | integer n => Lexical.ofInteger n
  | double d => Lexical.ofDouble d
  | string s => s
  | langString s _ => s
  | typed lexical _ => lexical
  | iri name => name
  | typeError => ""

/-- The datatype of a literal. -/
def datatype? : Value → Option String
  | boolean _ => some Xsd.boolean
  | integer _ => some Xsd.integer
  | double _ => some Xsd.double
  | string _ => some Xsd.string
  | langString _ _ => some Rdf.langString
  | typed _ datatype => some datatype
  | iri _ | typeError => none

/-- The language tag of a literal, empty if it has none. -/
def lang? : Value → Option String
  | langString _ lang => some lang
  | iri _ | typeError => none
  | _ => some ""

/-- The text of a string, with or without a language tag. -/
def string? : Value → Option String
  | string s => some s
  | langString s _ => some s
  | _ => none

/-! ## Printed form -/

/-- The text by which a value is printed. Only the text between quotes is escaped. -/
def text : Value → String
  | boolean b => Lexical.ofBoolean b
  | integer n => Lexical.ofInteger n
  | double d => "\"" ++ Lexical.ofDouble d ++ "\"^^<" ++ Xsd.double ++ ">"
  | string s => Text.quote s
  | langString s lang => Text.quote s ++ "@" ++ lang
  | typed lexical datatype => Text.quote lexical ++ "^^<" ++ datatype ++ ">"
  | iri name => "<" ++ name ++ ">"
  | typeError => "typeError()"

end Value

end Residual
