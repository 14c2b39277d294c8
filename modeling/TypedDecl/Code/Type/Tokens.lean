import TypedDecl.Code.Parser
import TypedDecl.Code.Type

namespace TypedDecl.Code

open Token (operator word lifetime)

def parted (sign : List Char) (rows : List (List Token)) : List Token :=
  (rows.intersperse (operator sign)).flatten

/-- A literal; the two truth values are words. -/
def literalTokens (negative : Bool) (text : String) : List Token :=
  (if negative then operator ['-'] else []) ++
    [if text = "true" || text = "false" then word text else .literal text]

namespace Const

def tokens : Const → List Token
  | literal negative text => literalTokens negative text
  | name i => [.ident i]
  | block row => row.tokens

end Const

namespace Capture

def tokens : Capture → List Token
  | lifetime life => Token.lifetime life
  | name i => [.ident i]

end Capture

def abiTokens : Option (Option String) → List Token
  | none => []
  | some none => [word "extern"]
  | some (some text) => [word "extern", .literal text]

def signIf (sign : List Char) (b : Bool) : List Token := if b then operator sign else []

def commaIf (b : Bool) : List Token := signIf [','] b

def wordIf (w : String) (b : Bool) : List Token := if b then [word w] else []

namespace Ellipsis

def tokens (e : Ellipsis) : List Token :=
  Attribute.listTokens e.attributes ++
    (match e.name with
      | none => []
      | some i => .ident i :: operator [':']) ++
    operator ['.', '.', '.'] ++ commaIf e.comma

end Ellipsis

/-- One item of a list on its way to a row: whether it is a lifetime, its tokens, and whether a
comma follows it. -/
abbrev ListedTokens := Bool × List Token × Bool

/-- Lifetimes first. If the last of them had no comma, it gets one before the others. -/
def arrange (items : List ListedTokens) : List Token :=
  let lives := items.filter (·.1)
  let others := items.filter (!·.1)
  let closed := match lives.getLast? with
    | some (_, _, comma) => comma
    | none => true
  lives.flatMap (fun a => a.2.1 ++ commaIf a.2.2) ++ commaIf (!closed && !others.isEmpty) ++
    others.flatMap fun a => a.2.1 ++ commaIf a.2.2

def Capture.listTokens : List Capture → Bool → List ListedTokens
  | [], _ => []
  | [c], trailing => [(c.isLifetime, c.tokens, trailing)]
  | c :: cs, trailing => (c.isLifetime, c.tokens, true) :: Capture.listTokens cs trailing

def boundTokens (bounds : List Token) (trailing : Bool) : List Token :=
  if bounds.isEmpty then [] else operator [':'] ++ bounds ++ signIf ['+'] trailing

/-- The parameters of a function type up to the dots: a comma must stand between the two. -/
def beforeEllipsis (params : List Token) (trailing : Bool) (rest : Option Ellipsis) : List Token :=
  match rest with
  | none => params ++ commaIf trailing
  | some e => params ++ commaIf (!params.isEmpty) ++ e.tokens

mutual

def Ty.tokens : Ty → List Token
  | .path path => path.tokens
  | .tuple items trailing => Token.group .paren (Ty.listTokens items ++ commaIf trailing)
  | .paren inner => Token.group .paren inner.tokens
  | .array item length => Token.group .bracket (item.tokens ++ operator [';'] ++ length.tokens)
  | .slice item => Token.group .bracket item.tokens
  | .never => operator ['!']
  | .infer => [word "_"]
  | .pointer writable target =>
    operator ['*'] ++ word (if writable then "mut" else "const") :: target.tokens
  | .reference life writable target =>
    operator ['&'] ++ (match life with
      | none => []
      | some i => lifetime i) ++
      wordIf "mut" writable ++ target.tokens
  | .dynamic marked bounds trailing =>
    wordIf "dyn" marked ++ Bound.listTokens bounds ++ signIf ['+'] trailing
  | .abstract bounds trailing =>
    word "impl" :: Bound.listTokens bounds ++ signIf ['+'] trailing
  | .function binder checked abi params trailing rest output =>
    binder.tokens ++ wordIf "unsafe" (!checked) ++ abiTokens abi ++
      word "fn" ::
        Token.group .paren (beforeEllipsis (Param.listTokens params) trailing rest) ++
      (match output with
        | none => []
        | some ty => operator Parser.arrow ++ ty.tokens)
  | .macroCall call => call.tokens
  | .verbatim row => row.tokens

def Ty.listTokens : List Ty → List Token
  | [] => []
  | [ty] => ty.tokens
  | ty :: tys => ty.tokens ++ operator [','] ++ Ty.listTokens tys

def Param.tokens : Param → List Token
  | .mk attributes none ty => Attribute.listTokens attributes ++ ty.tokens
  | .mk attributes (some i) ty =>
    Attribute.listTokens attributes ++ .ident i :: operator [':'] ++ ty.tokens

def Param.listTokens : List Param → List Token
  | [] => []
  | [param] => param.tokens
  | param :: params => param.tokens ++ operator [','] ++ Param.listTokens params

def QualPath.tokens : QualPath → List Token
  | .plain path => path.tokens
  | .projected self via rest =>
    operator ['<'] ++ self.tokens ++
      (match via with
        | none => []
        | some path => word "as" :: path.tokens) ++
      operator ['>'] ++ Segment.listTokens true rest

def Path.tokens : Path → List Token
  | .mk global segments => Segment.listTokens global segments

/-- With colons between them, and before the first if so told. -/
def Segment.listTokens : Bool → List Segment → List Token
  | _, [] => []
  | lead, segment :: segments =>
    signIf Parser.colons lead ++ segment.tokens ++ Segment.listTokens true segments

def Segment.tokens : Segment → List Token
  | .mk i args => .ident i :: args.tokens

def Args.tokens : Args → List Token
  | .none => []
  | .angle colons items trailing =>
    signIf Parser.colons colons ++ operator ['<'] ++
      arrange (Arg.listTokens items trailing) ++ operator ['>']
  | .call inputs trailing output =>
    Token.group .paren (Ty.listTokens inputs ++ commaIf trailing) ++
      (match output with
        | none => []
        | some ty => operator Parser.arrow ++ ty.tokens)

def Arg.tokens : Arg → List Token
  | .lifetime life => lifetime life
  | .type ty => ty.tokens
  | .constant value => value.tokens
  | .binding i args ty => .ident i :: args.tokens ++ operator ['='] ++ ty.tokens
  | .constBinding i args value => .ident i :: args.tokens ++ operator ['='] ++ value.tokens
  | .constraint i args bounds trailing =>
    .ident i :: args.tokens ++ operator [':'] ++ Bound.listTokens bounds ++
      signIf ['+'] trailing

def Arg.listTokens : List Arg → Bool → List ListedTokens
  | [], _ => []
  | [arg], trailing => [(arg.isLifetime, arg.tokens, trailing)]
  | arg :: args, trailing => (arg.isLifetime, arg.tokens, true) :: Arg.listTokens args trailing

def Bound.tokens : Bound → List Token
  | .lifetime life => lifetime life
  | .trait parens binder optional path =>
    let inner := binder.tokens ++ signIf ['?'] optional ++ path.tokens
    if parens then Token.group .paren inner else inner
  | .captures params trailing =>
    word "use" :: operator ['<'] ++ arrange (Capture.listTokens params trailing) ++ operator ['>']
  | .verbatim row => row.tokens

def Bound.listTokens : List Bound → List Token
  | [] => []
  | [bound] => bound.tokens
  | bound :: bounds => bound.tokens ++ operator ['+'] ++ Bound.listTokens bounds

def Binder.tokens : Binder → List Token
  | .none => []
  | .mk params trailing =>
    word "for" :: operator ['<'] ++ Generic.listTokens params ++ commaIf trailing ++ operator ['>']

def Generic.tokens : Generic → List Token
  | .lifetime attributes life bounds trailing =>
    Attribute.listTokens attributes ++ lifetime life ++
      boundTokens (parted ['+'] (bounds.map lifetime)) trailing
  | .type attributes i bounds trailing fallback =>
    Attribute.listTokens attributes ++ .ident i ::
      boundTokens (Bound.listTokens bounds) trailing ++
      (match fallback with
        | none => []
        | some ty => operator ['='] ++ ty.tokens)
  | .constant attributes i ty fallback =>
    Attribute.listTokens attributes ++ word "const" :: .ident i :: operator [':'] ++ ty.tokens ++
      (match fallback with
        | none => []
        | some value => operator ['='] ++ value.tokens)

def Generic.listTokens : List Generic → List Token
  | [] => []
  | [param] => param.tokens
  | param :: params => param.tokens ++ operator [','] ++ Generic.listTokens params

end

end TypedDecl.Code
