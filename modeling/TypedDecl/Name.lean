import TypedDecl.Code.Keyword

namespace TypedDecl.Name

def isWord (c : Char) : Bool :=
  c.isAlphanum || c = '_'

/-- A word character as it is, and an underscore for any other. -/
def wordChar (c : Char) : Char :=
  if isWord c then c else '_'

/-- What stands before the characters so that they do not begin with a digit or nothing. -/
def lead : List Char → List Char
  | [] => ['_']
  | c :: _ => if c.isDigit then ['_'] else []

def sanitizeChars (cs : List Char) : List Char :=
  lead (cs.map wordChar) ++ cs.map wordChar

/-- The identifier for an arbitrary name. One character becomes one character; an underscore comes
first where the result would be empty or begin with a digit. Keywords stay as they are. -/
def sanitize (s : String) : String :=
  String.ofList (sanitizeChars s.toList)

/-- A sanitized name as it begins a path: keywords get the raw mark. -/
def pathSegment (s : String) : String :=
  if (Code.Ident.parse? s).isSome then s else "r#" ++ s

end TypedDecl.Name
