namespace TypedDecl.Toml

inductive Value
  | text (s : String)
  | bool (b : Bool)
  | integer (n : Int)
  /-- A number with a point or an exponent, as it is written without underscores. -/
  | float (digits : String)
  /-- A date, a time of day or both, in its usual form. -/
  | date (shown : String)
  | list (items : List Value)
  | table (entries : List (String × Value))
  deriving Repr

/-- Readers take what they recognise off the front of a text. -/
abbrev Parser (α : Type) := List Char → Option (α × List Char)

def isBlank (c : Char) : Bool := c = ' ' || c = '\t'

def skipBlanks (cs : List Char) : List Char := cs.dropWhile isBlank

def newline? : List Char → Option (List Char)
  | '\n' :: cs => some cs
  | '\r' :: '\n' :: cs => some cs
  | _ => none

/-- A character that stands for itself in comments and, quotes and backslashes aside, in strings. -/
def isPlain (c : Char) : Bool := c = '\t' || (32 ≤ c.toNat && c.toNat ≠ 127)

def skipComment : List Char → List Char
  | '#' :: cs => cs.dropWhile isPlain
  | cs => cs

/-- Past what may stand behind a value or a header: blanks, a comment and the line end. -/
def lineEnd? (cs : List Char) : Option (List Char) :=
  match skipComment (skipBlanks cs) with
  | [] => some []
  | cs => newline? cs

/-- Past blanks, comments and line ends. The text may end with a comment. The first argument bounds
their number. -/
def skipLines : Nat → List Char → Option (List Char)
  | 0, _ => none
  | fuel + 1, cs =>
    match skipBlanks cs with
    | '#' :: cs =>
      match cs.dropWhile isPlain with
      | [] => some []
      | cs => (newline? cs).bind (skipLines fuel)
    | '\n' :: cs => skipLines fuel cs
    | '\r' :: cs => (newline? ('\r' :: cs)).bind (skipLines fuel)
    | cs => some cs

def skipAll (cs : List Char) : Option (List Char) := skipLines (cs.length + 1) cs

end TypedDecl.Toml
