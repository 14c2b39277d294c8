import TypedDecl.Code.Expr
import TypedDecl.Code.Pattern.Tokens

namespace TypedDecl.Code

open Token (operator word lifetime)

namespace BlockKind

def tokens : BlockKind → List Token
  | plain => []
  | unchecked => [word "unsafe"]
  | constant => [word "const"]
  | async moving => word "async" :: wordIf "move" moving
  | trying => [word "try"]

end BlockKind

def labelTokens : Option Ident → List Token
  | none => []
  | some i => lifetime i ++ operator [':']

def outputTokens : Option Ty → List Token
  | none => []
  | some ty => operator Parser.arrow ++ ty.tokens

def ascriptionTokens : Option Ty → List Token
  | none => []
  | some ty => operator [':'] ++ ty.tokens

namespace ClosureHead

def inputTokens : List Input → List (List Token)
  | [] => []
  | i :: is =>
    (Attribute.listTokens i.attributes ++ i.pat.tokens ++ ascriptionTokens i.ty) ::
      inputTokens is

def tokens (h : ClosureHead) : List Token :=
  h.binder.tokens ++ wordIf "const" h.constant ++ wordIf "static" h.pinned ++
    wordIf "async" h.async ++ wordIf "move" h.moving ++
    operator ['|'] ++ parted [','] (inputTokens h.inputs) ++ commaIf h.trailing ++
    operator ['|'] ++ outputTokens h.output

end ClosureHead

mutual

def Expr.tokens : Expr → List Token
  | .literal text => literalTokens false text
  | .path path => path.tokens
  | .infer => [word "_"]
  | .attributed attributes inner => Attribute.listTokens attributes ++ inner.tokens
  | .unary op operand => operator [op] ++ operand.tokens
  | .borrow writable operand => operator ['&'] ++ wordIf "mut" writable ++ operand.tokens
  | .address writable operand =>
    operator ['&'] ++ word "raw" :: word (if writable then "mut" else "const") :: operand.tokens
  | .paren inner => Token.group .paren inner.tokens
  | .tuple items trailing => Token.group .paren (Expr.listTokens items ++ commaIf trailing)
  | .array items trailing => Token.group .bracket (Expr.listTokens items ++ commaIf trailing)
  | .repeated item length =>
    Token.group .bracket (item.tokens ++ operator [';'] ++ length.tokens)
  | .call function args trailing =>
    function.tokens ++ Token.group .paren (Expr.listTokens args ++ commaIf trailing)
  | .method receiver i generics args trailing =>
    receiver.tokens ++ operator ['.'] ++ .ident i :: generics.tokens ++
      Token.group .paren (Expr.listTokens args ++ commaIf trailing)
  | .field base member => base.tokens ++ operator ['.'] ++ [member.token]
  | .await base => base.tokens ++ operator ['.'] ++ [word "await"]
  | .index base position => base.tokens ++ Token.group .bracket position.tokens
  | .attempt operand => operand.tokens ++ operator ['?']
  | .cast operand ty => operand.tokens ++ word "as" :: ty.tokens
  | .binary op left right => left.tokens ++ operator op ++ right.tokens
  | .assign left right => left.tokens ++ operator ['='] ++ right.tokens
  | .range first closed last =>
    (match first with
      | none => []
      | some e => e.tokens) ++
      operator (rangeSign closed) ++
      (match last with
        | none => []
        | some e => e.tokens)
  | .record path fields trailing dots base =>
    path.tokens ++ Token.group .brace (FieldValue.listTokens fields ++ commaIf trailing ++
      signIf ['.', '.'] dots ++
      (match base with
        | none => []
        | some e => e.tokens))
  | .macroCall call => call.tokens
  | .block label kind body => labelTokens label ++ kind.tokens ++ body.tokens
  | .branch condition body other =>
    word "if" :: condition.tokens ++ body.tokens ++
      (match other with
        | none => []
        | some e => word "else" :: e.tokens)
  | .choice subject inner arms =>
    word "match" :: subject.tokens ++
      Token.group .brace (Attribute.listTokens inner ++ Arm.listTokens arms)
  | .whileLoop label condition body =>
    labelTokens label ++ word "while" :: condition.tokens ++ body.tokens
  | .forLoop label pat source body =>
    labelTokens label ++ word "for" :: pat.tokens ++ word "in" :: source.tokens ++ body.tokens
  | .endlessLoop label body => labelTokens label ++ word "loop" :: body.tokens
  | .binds pat value => word "let" :: pat.tokens ++ operator ['='] ++ value.tokens
  | .closure head body => head.tokens ++ body.tokens
  | .jump kind label value =>
    word kind.text ::
      (match label with
        | none => []
        | some i => lifetime i) ++
      (match value with
        | none => []
        | some e => e.tokens)
  | .verbatim row => row

def Expr.listTokens : List Expr → List Token
  | [] => []
  | [e] => e.tokens
  | e :: es => e.tokens ++ operator [','] ++ Expr.listTokens es

def FieldValue.tokens : FieldValue → List Token
  | .mk attributes member value =>
    Attribute.listTokens attributes ++ member.token ::
      (match value with
        | none => []
        | some e => operator [':'] ++ e.tokens)

def FieldValue.listTokens : List FieldValue → List Token
  | [] => []
  | [field] => field.tokens
  | field :: fields => field.tokens ++ operator [','] ++ FieldValue.listTokens fields

def Arm.tokens : Arm → List Token
  | .mk attributes pat guard body comma =>
    Attribute.listTokens attributes ++ pat.tokens ++
      (match guard with
        | none => []
        | some e => word "if" :: e.tokens) ++
      operator ['=', '>'] ++ body.tokens ++ commaIf comma

def Arm.listTokens : List Arm → List Token
  | [] => []
  | arm :: arms => arm.tokens ++ Arm.listTokens arms

def Block.tokens : Block → List Token
  | .mk inner statements =>
    Token.group .brace (Attribute.listTokens inner ++ Stmt.listTokens statements)

def Stmt.tokens : Stmt → List Token
  | .empty => operator [';']
  | .bind attributes pat ty value otherwise =>
    Attribute.listTokens attributes ++ word "let" :: pat.tokens ++ ascriptionTokens ty ++
      (match value with
        | none => []
        | some e => operator ['='] ++ e.tokens) ++
      (match otherwise with
        | none => []
        | some block => word "else" :: block.tokens) ++
      operator [';']
  | .item row => row
  | .expr value closed => value.tokens ++ signIf [';'] closed
  | .macroCall attributes call closed =>
    Attribute.listTokens attributes ++ call.tokens ++ signIf [';'] closed

def Stmt.listTokens : List Stmt → List Token
  | [] => []
  | s :: ss => s.tokens ++ Stmt.listTokens ss

end

end TypedDecl.Code
