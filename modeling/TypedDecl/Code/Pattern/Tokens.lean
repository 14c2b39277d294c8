import TypedDecl.Code.Pattern
import TypedDecl.Code.Type.Tokens

namespace TypedDecl.Code

open Token (operator word)

namespace PatEnd

def tokens : PatEnd → List Token
  | literal negative text => literalTokens negative text
  | path p => p.tokens
  | block row => row

/-- Those of the end of a range, if it has one. -/
def optionTokens : Option PatEnd → List Token
  | none => []
  | some e => e.tokens

end PatEnd

def rangeSign (closed : Bool) : List Char := if closed then ['.', '.', '='] else ['.', '.']

mutual

def Pat.tokens : Pat → List Token
  | .wild => [word "_"]
  | .rest => operator ['.', '.']
  | .name borrowed writable i sub =>
    wordIf "ref" borrowed ++ wordIf "mut" writable ++ .ident i ::
      (match sub with
        | none => []
        | some pat => operator ['@'] ++ pat.tokens)
  | .value e => e.tokens
  | .range first closed last =>
    PatEnd.optionTokens first ++ operator (rangeSign closed) ++ PatEnd.optionTokens last
  | .cases lead cases => signIf ['|'] lead ++ Pat.listTokens ['|'] cases
  | .paren inner => Token.group .paren inner.tokens
  | .tuple items trailing =>
    Token.group .paren (Pat.listTokens [','] items ++ commaIf trailing)
  | .applied path items trailing =>
    path.tokens ++ Token.group .paren (Pat.listTokens [','] items ++ commaIf trailing)
  | .record path fields trailing rest =>
    path.tokens ++ Token.group .brace (FieldPat.listTokens fields ++ commaIf trailing ++
      (match rest with
        | none => []
        | some attributes => Attribute.listTokens attributes ++ operator ['.', '.']))
  | .slice items trailing =>
    Token.group .bracket (Pat.listTokens [','] items ++ commaIf trailing)
  | .reference writable target => operator ['&'] ++ wordIf "mut" writable ++ target.tokens
  | .macroCall call => call.tokens
  | .verbatim row => row

def Pat.listTokens (sign : List Char) : List Pat → List Token
  | [] => []
  | [pat] => pat.tokens
  | pat :: pats => pat.tokens ++ operator sign ++ Pat.listTokens sign pats

def FieldPat.tokens : FieldPat → List Token
  | .mk attributes member pat =>
    Attribute.listTokens attributes ++
      (match member with
        | none => []
        | some m => m.token :: operator [':']) ++
      pat.tokens

def FieldPat.listTokens : List FieldPat → List Token
  | [] => []
  | [field] => field.tokens
  | field :: fields => field.tokens ++ operator [','] ++ FieldPat.listTokens fields

end

end TypedDecl.Code
