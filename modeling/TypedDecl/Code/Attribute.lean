import TypedDecl.Code.MacroCall

namespace TypedDecl.Code

/-- What an attribute says beyond its path. -/
inductive AttributeBody
  | none
  | group (delim : Delim) (content : Row)
  /-- An expression behind an equals sign. -/
  | value (row : Row)
  deriving DecidableEq, Repr

structure Attribute where
  inner : Bool
  path : PlainPath
  body : AttributeBody
  deriving DecidableEq, Repr

namespace AttributeBody

def tokens : AttributeBody → List Token
  | none => []
  | group delim content => Token.group delim content.tokens
  | value row => Token.operator ['='] ++ row.tokens

end AttributeBody

namespace Attribute

def tokens (a : Attribute) : List Token :=
  Token.operator ['#'] ++ (if a.inner then Token.operator ['!'] else []) ++
    Token.group .bracket (a.path.tokens ++ a.body.tokens)

def listTokens (attributes : List Attribute) : List Token := attributes.flatMap tokens

end Attribute

end TypedDecl.Code
