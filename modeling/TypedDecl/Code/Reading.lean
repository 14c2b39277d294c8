import TypedDecl.Code.Item.Parser

namespace TypedDecl.Code

namespace Grammar

def nested (more : Nat) : Nat → Grammar
  | 0 => none more
  | depth + 1 =>
    { more
      bound := fun kinds ts => Parser.bound (nested more depth) kinds ts
      ty := fun plus ts => Parser.ty (nested more depth) plus ts
      pat := fun ts => Parser.pat (nested more depth) ts
      expr := fun free least ts => Parser.expr (nested more depth) free least ts
      early := fun ts => Parser.early (nested more depth) ts
      block := fun inner ts => Parser.block (nested more depth) inner ts
      item := fun ts => Parser.item (nested more depth) ts }

def forRow (ts : List Token) : Grammar := nested (ts.length + 2) (ts.length * 4 + 4)

end Grammar

namespace Ty

/-- The type that a whole row of tokens is. -/
def ofTokens? (ts : List Token) : Option Ty :=
  Parser.all? ((Grammar.forRow ts).ty true) ts

def parse? (s : String) : Option Ty :=
  (Token.read? s).bind ofTokens?

end Ty

namespace Path

def parse? (s : String) : Option Path :=
  (Token.read? s).bind fun ts => Parser.all? (Parser.path (Grammar.forRow ts) false) ts

end Path

namespace Expr

def ofTokens? (ts : List Token) : Option Expr :=
  Parser.all? (Grammar.forRow ts).value ts

end Expr

namespace Item

def ofTokens? (ts : List Token) : Option Item :=
  Parser.all? (Grammar.forRow ts).item ts

/-- The items that a whole row of tokens is. -/
def listOfTokens? (ts : List Token) : Option (List Item) :=
  Parser.all? (Parser.all (Grammar.forRow ts).item (ts.length + 1)) ts

end Item

end TypedDecl.Code
