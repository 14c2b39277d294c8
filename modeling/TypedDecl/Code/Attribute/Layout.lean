import TypedDecl.Code.Attribute
import TypedDecl.Code.MacroCall.Layout
import TypedDecl.Text.Quoted

namespace TypedDecl.Code

open TypedDecl.Layout

/-- How code is laid out that a piece of other code holds as a row of tokens. -/
structure Interior where
  expr : List Token → List Piece
  item : List Token → List Piece

def dropSpaces (cs : List Char) : List Char :=
  (cs.reverse.dropWhile (· = ' ')).reverse

def dropInnerSpaces : List Char → List Char
  | [] => []
  | c :: cs =>
    if c = ' ' && (cs.dropWhile (· = ' ')).head? = some '\n' then dropInnerSpaces cs
    else c :: dropInnerSpaces cs

/-- Every comment that begins in the text ends in it, and none ends that did not begin. -/
def balancesComments : Nat → List Char → Bool
  | depth, [] => depth = 0
  | depth, '/' :: '*' :: cs => balancesComments (depth + 1) cs
  | depth, '*' :: '/' :: cs => depth ≠ 0 && balancesComments (depth - 1) cs
  | depth, _ :: cs => balancesComments depth cs

/-- Whether a text can stand in a block comment. It must not end in a slash, which would stand
before the mark that ends the comment. -/
def fitsBlockComment (text : List Char) : Bool :=
  text.getLast? ≠ some '/' && balancesComments 0 text

/-- A kind of comment: what its lines and its blocks begin with, and the characters that would make
another kind of it if its text began with one of them. -/
structure CommentKind where
  line : String
  block : String
  lineStarts : List Char
  blockStarts : List Char
  deriving DecidableEq, Repr

namespace CommentKind

/-- Documentation of what follows. -/
def outer : CommentKind := ⟨"///", "/**", ['/'], ['*', '/']⟩

/-- Documentation of what it stands in. -/
def inner : CommentKind := ⟨"//!", "/*!", [], []⟩

def ordinary : CommentKind := ⟨"//", "/*", [], ['*', '!']⟩

def write? (k : CommentKind) (text : List Char) : Option String :=
  let begins (starts : List Char) : Bool := (text.head?.map starts.contains).getD false
  if !text.contains '\n' && !begins k.lineStarts then
    some (k.line ++ String.ofList (dropSpaces text))
  else if fitsBlockComment text && !begins k.blockStarts then
    some (k.block ++ String.ofList (dropInnerSpaces text) ++ "*/")
  else none

end CommentKind

/-- What stands before a token inside an attribute. -/
inductive AttributeTrace
  | word
  | sign
  | comma
  deriving DecidableEq, Repr

/-- The delimiter that ends the group here. -/
def closingHere? : List Token → Option Delim
  | .closing d :: _ => some d
  | _ => none

/-- A punctuation character inside an attribute, given what ends the group behind it. -/
def attributeSign (trace : AttributeTrace) (c : Char) (ending : Option Delim) :
    List Piece × AttributeTrace :=
  match c, ending with
  | ',', some .paren => ([.lastComma 0], .comma)
  | ',', some _ => ([.endedBy ','], .comma)
  | ',', none => ([.text ",", .space], .sign)
  | '=', _ => ((if trace = .word then words " " else []) ++ words "=" ++ words " ", .sign)
  | c, _ => (words c.toString, .sign)

/-- The tokens inside an attribute. Words have a gap between them, and parentheses hold a group a
level deeper. -/
def attributeRow : AttributeTrace → List Token → List Piece
  | _, [] => []
  | trace, t :: ts =>
    match t with
    | .ident _ | .literal _ =>
      (if trace = .word then [.space] else []) ++ .text t.text :: attributeRow .word ts
    | .punct c _ =>
      let (ps, next) := attributeSign trace c (closingHere? ts)
      ps ++ attributeRow next ts
    | .opening d =>
      .text t.text :: (if d = .paren then [.start step true, .zero] else []) ++
        attributeRow .sign ts
    | .closing d =>
      (if d ≠ .paren then []
        else if trace = .comma then [.stop]
        else [Piece.zero.outdented, .stop]) ++
        .text t.text :: attributeRow .sign ts

namespace AttributeBody

def pieces (l : Interior) : AttributeBody → List Piece
  | none => []
  | group delim content => attributeRow .sign (Token.group delim content.tokens)
  | value row => words " = " ++ l.expr row.tokens

def text? : AttributeBody → Option String
  | value row =>
    match row.tokens with
    | [.literal text] => Text.Quoted.decode text
    | _ => .none
  | _ => .none

end AttributeBody

namespace Attribute

/-- The comment that the attribute stands for. -/
def comment? (a : Attribute) : Option String := do
  let kind ←
    if a.path.isWord "doc" then some (if a.inner then CommentKind.inner else .outer)
    else if a.path.isWord "comment" then some .ordinary
    else none
  let text ← a.body.text?
  kind.write? text.toList

def pieces (l : Interior) (a : Attribute) : List Piece :=
  match a.comment? with
  | some comment => [.text comment, .line]
  | none =>
    words (if a.inner then "#![" else "#[") ++ words a.path.text ++ a.body.pieces l ++
      [.text "]", .space]

def listPieces (l : Interior) (attributes : List Attribute) : List Piece :=
  attributes.flatMap (pieces l)

end Attribute

end TypedDecl.Code
