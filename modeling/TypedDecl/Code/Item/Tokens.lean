import TypedDecl.Code.Parser

namespace TypedDecl.Code.Item

open Token (word operator group)

def docTokens (text : String) : List Token := Lexer.docTokens false text.toList

def attributeTokens (lead : String) (args : List String) : List Token :=
  operator ['#'] ++ group .bracket
    (word lead :: group .paren ((args.map fun a => [word a]).intersperse (operator [','])).flatten)

def publicTokens (ts : List Token) : List Token := word "pub" :: ts

def pathTokens (lead : List Token) (names : List String) : List Token :=
  lead ++ names.flatMap fun n => operator Parser.colons ++ [word n]

def selfPath (names : List String) : List Token := pathTokens [word "Self"] names

def callTokens (function : List Token) (args : List Token) : List Token :=
  function ++ group .paren args

def commaTokens (rows : List (List Token)) : List Token :=
  rows.flatMap fun row => row ++ operator [',']

/-- Rows with a comma between each two. -/
def argTokens (rows : List (List Token)) : List Token :=
  (rows.intersperse (operator [','])).flatten

def typedTokens (lead : List Token) (type : List Token) : List Token :=
  lead ++ operator [':'] ++ type

def constantTokens (i : Ident) (type value : List Token) : List Token :=
  word "const" :: typedTokens [.ident i] type ++ operator ['='] ++ value ++ operator [';']

def functionTokens (i : Ident) (params output body : List Token) : List Token :=
  word "fn" :: .ident i :: group .paren params ++ operator Parser.arrow ++ output ++
    group .brace body

def aliasTokens (i : Ident) (type : List Token) : List Token :=
  word "type" :: .ident i :: operator ['='] ++ type ++ operator [';']

def unitTokens (i : Ident) : List Token :=
  word "struct" :: .ident i :: operator [';']

def tupleTokens (i : Ident) (fields : List Token) : List Token :=
  word "struct" :: .ident i :: group .paren fields ++ operator [';']

def recordTokens (i : Ident) (fields : List Token) : List Token :=
  word "struct" :: .ident i :: group .brace fields

def implTokens (i : Ident) (members : List Token) : List Token :=
  word "impl" :: .ident i :: group .brace members

def traitTokens (trait : List Token) (i : Ident) (members : List Token) : List Token :=
  word "impl" :: trait ++ word "for" :: .ident i :: group .brace members

def moduleTokens (i : Ident) (items : List Token) : List Token :=
  word "mod" :: .ident i :: group .brace items

def borrowTokens (ts : List Token) : List Token := operator ['&'] ++ ts

def letTokens (bound : String) (value : List Token) : List Token :=
  word "let" :: word bound :: operator ['='] ++ value ++ operator [';']

end TypedDecl.Code.Item
