import TypedDecl.Code.Lexer

namespace TypedDecl.Code

/-- Words that a plain identifier cannot be. -/
def keywords : List String :=
  ["_", "abstract", "as", "async", "await", "become", "box", "break", "const", "continue", "crate",
   "do", "dyn", "else", "enum", "extern", "false", "final", "fn", "for", "if", "impl", "in", "let",
   "loop", "macro", "match", "mod", "move", "mut", "override", "priv", "pub", "ref", "return",
   "Self", "self", "static", "struct", "super", "trait", "true", "try", "type", "typeof", "unsafe",
   "unsized", "use", "virtual", "where", "while", "yield"]

namespace Ident

def isName (i : Ident) : Bool :=
  i.raw || !keywords.contains i.name

/-- The one identifier that the text consists of, blanks and comments aside. -/
def parse? (s : String) : Option Ident :=
  match Token.read? s with
  | some [.ident i] => if i.isName then some i else none
  | _ => none

/-- A name as an identifier: as it is, or else with the raw mark. -/
def ofName? (s : String) : Option Ident :=
  parse? s <|> parse? ("r#" ++ s)

end Ident

end TypedDecl.Code
