import TypedDecl.Code.Item.Layout
import TypedDecl.Declaration.Tokens
import TypedDecl.Header
import TypedDecl.Namespace

namespace TypedDecl

structure RenderOptions where
  /-- The path of what tables and fields are built on. -/
  runtime : String
  license : Option String
  provenance : Provenance
  deriving DecidableEq, Repr

/-- Tokens as the text of a file. Rows inside each other are fewer than the tokens. -/
def formatTokens (ts : List Code.Token) : Except Error String :=
  match Code.Item.listOfTokens? ts with
  | some items =>
    match Code.Item.format? ts.length items with
    | some text => .ok text
    | none => .error .noLayout
  | none => .error .invalidCode

/-- The text of a file, without what stands before the code. -/
def renderCode (ns : String) (ds : List Declaration) (runtime : String) : Except Error String := do
  let items ← Declaration.listTokens runtime ds
  let ts ← Namespace.tokens ns items
  formatTokens ts

def render (ns : String) (ds : List Declaration) (options : RenderOptions) :
    Except Error String :=
  (renderCode ns ds options.runtime).map
    (Header.text options.license options.provenance ++ ·)

end TypedDecl
