namespace TypedDecl.Code

inductive Delim
  | paren
  | bracket
  | brace
  deriving DecidableEq, Repr

namespace Delim

def opening : Delim → Char
  | paren => '('
  | bracket => '['
  | brace => '\x7b'

def closing : Delim → Char
  | paren => ')'
  | bracket => ']'
  | brace => '\x7d'

end Delim

/-- An identifier. A raw one is written with the mark `r#` and is never a keyword. -/
structure Ident where
  raw : Bool
  name : String
  deriving DecidableEq, Repr

namespace Ident

def text (i : Ident) : String :=
  if i.raw then "r#" ++ i.name else i.name

def plain (name : String) : Ident := ⟨false, name⟩

end Ident

inductive Token
  | ident (i : Ident)
  | punct (c : Char) (joint : Bool)
  | literal (text : String)
  | opening (d : Delim)
  | closing (d : Delim)
  deriving DecidableEq, Repr

namespace Token

def text : Token → String
  | ident i => i.text
  | punct c _ => c.toString
  | literal text => text
  | opening d => d.opening.toString
  | closing d => d.closing.toString

def word (s : String) : Token := ident (Ident.plain s)

/-- The characters of an operator: all but the last are joined to the next. -/
def operator : List Char → List Token
  | [] => []
  | [c] => [punct c false]
  | c :: d :: cs => punct c true :: operator (d :: cs)

def group (d : Delim) (content : List Token) : List Token :=
  opening d :: content ++ [closing d]

/-- A lifetime: a joined apostrophe and a name. -/
def lifetime (i : Ident) : List Token := [punct '\'' true, ident i]

end Token

end TypedDecl.Code
