import TypedDecl.Code.Row

namespace TypedDecl.Code

structure PlainPath where
  global : Bool
  names : List Ident
  deriving DecidableEq, Repr

namespace PlainPath

def colons : List Token := Token.operator [':', ':']

def tokens (p : PlainPath) : List Token :=
  (if p.global then colons else []) ++
    ((p.names.map fun i => [Token.ident i]).intersperse colons).flatten

def text (p : PlainPath) : String :=
  (if p.global then "::" else "") ++ "::".intercalate (p.names.map Ident.text)

def isWord (p : PlainPath) (w : String) : Bool := p = ⟨false, [Ident.plain w]⟩

end PlainPath

structure MacroCall where
  path : PlainPath
  delim : Delim
  content : Row
  deriving DecidableEq, Repr

namespace MacroCall

def tokens (m : MacroCall) : List Token :=
  m.path.tokens ++ Token.operator ['!'] ++ Token.group m.delim m.content.tokens

def inBraces (m : MacroCall) : Bool := m.delim = .brace

end MacroCall

end TypedDecl.Code
