import TypedDecl.Code.Token

namespace TypedDecl.Code

namespace Token

/-- The delimiters that are open after a token, the innermost first. -/
def nestStep (stack : List Delim) : Token → Option (List Delim)
  | opening d => some (d :: stack)
  | closing d =>
    match stack with
    | top :: stack => if top = d then some stack else none
    | [] => none
  | _ => some stack

/-- The delimiters that are open after a row. There is no answer if one closes that is not open. -/
def nest : List Delim → List Token → Option (List Delim)
  | stack, [] => some stack
  | stack, t :: ts => (t.nestStep stack).bind fun stack => nest stack ts

/-- Every group that begins in the row ends in it. -/
def Closed (ts : List Token) : Prop := nest [] ts = some []

instance : DecidablePred Closed := fun ts => inferInstanceAs (Decidable (nest [] ts = some []))

end Token

structure Row where
  tokens : List Token
  closed : Token.Closed tokens
  deriving DecidableEq, Repr

namespace Row

/-- The row of these tokens, if it stands on its own. -/
def of? (ts : List Token) : Option Row :=
  if h : Token.Closed ts then some ⟨ts, h⟩ else none

end Row

end TypedDecl.Code
