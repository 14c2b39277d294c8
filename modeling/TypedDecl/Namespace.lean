import TypedDecl.Code.Item.Tokens
import TypedDecl.Declaration.Spelling
import TypedDecl.Unicode.Blank

namespace TypedDecl.Namespace

open Code (Token)
open Code.Item

/-- The texts between the separators; `acc` holds the characters since the last one, in reverse. -/
def segmentsGo : List Char → List Char → List (List Char)
  | acc, [] => [acc.reverse]
  | acc, ':' :: ':' :: cs => acc.reverse :: segmentsGo [] cs
  | acc, c :: cs => if c = '.' then acc.reverse :: segmentsGo [] cs else segmentsGo (c :: acc) cs

def segments (text : String) : List String :=
  (segmentsGo [] text.toList).map fun cs => String.ofList (Unicode.trimChars cs)

/-- What the names of the generated code need to be let through. -/
def allowances : List Token :=
  attributeTokens "allow"
    ["non_camel_case_types", "non_snake_case", "non_upper_case_globals", "dead_code"]

/-- Items in one module per name, the last name innermost. The last name is also checked first. -/
def nest (names : List String) (items : List Token) : Except Error (List Token) :=
  names.foldrM
    (fun n inner => (Declaration.ident n).map fun i => publicTokens (moduleTokens i inner)) items

def tokens (text : String) (items : List Token) : Except Error (List Token) :=
  if (segments text).all String.isEmpty then .error .emptyNamespace
  else (nest (segments text) items).map (allowances ++ ·)

end TypedDecl.Namespace
