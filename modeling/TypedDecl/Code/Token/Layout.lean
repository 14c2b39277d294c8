import TypedDecl.Code.Token
import TypedDecl.Layout.Piece

namespace TypedDecl.Code

open TypedDecl.Layout

/-- What a token leaves behind for the choice of the gap after it. -/
inductive Trace
  | start
  | dollar
  | variable
  | variableColon
  | repeating
  | repeatingSign
  | pound
  | poundBang
  | dot
  | colon
  | twoColons
  | name
  | nameBang
  | closed
  | other
  deriving DecidableEq, Repr

namespace Trace

/-- The words that are no names in such a row. -/
def reserved : List String :=
  ["as", "async", "await", "box", "break", "const", "continue", "crate", "dyn", "else", "enum",
   "extern", "fn", "for", "if", "impl", "in", "let", "loop", "macro", "match", "mod", "move", "mut",
   "pub", "ref", "return", "static", "struct", "trait", "type", "unsafe", "use", "where", "while",
   "yield"]

def afterPunct (matcher : Bool) (t : Trace) (c : Char) (joint : Bool) : Bool × Trace :=
  match t, c, joint with
  | .variable, ':', false => (false, .variableColon)
  | .repeating, '+', false | .repeating, '*', false | .repeating, '?', false => (false, .other)
  | .repeating, _, true => (false, .repeating)
  | .repeating, _, false => (false, .repeatingSign)
  | .repeatingSign, '+', _ | .repeatingSign, '*', _ => (false, .other)
  | .pound, '!', _ => (false, .poundBang)
  | .name, '!', false => (false, .nameBang)
  | .colon, ':', _ => (false, .twoColons)
  | _, ',', _ | _, ';', _ => (false, .other)
  | t, '.', _ => if matcher then (true, .other) else (t ≠ .name && t ≠ .closed, .dot)
  | t, ':', true => (t ≠ .name, .colon)
  | _, '$', _ => (true, .dollar)
  | _, '#', _ => (true, .pound)
  | _, _, _ => (true, .other)

def afterGroup (t : Trace) (d : Delim) : Bool × Trace :=
  match t, d with
  | .dollar, .paren => (false, .repeating)
  | .pound, .bracket | .poundBang, .bracket => (false, .other)
  | .name, .paren | .name, .bracket => (false, .closed)
  | .nameBang, .paren | .nameBang, .bracket => (false, .other)
  | _, .brace => (true, .other)
  | _, _ => (true, .closed)

/-- Whether there is a gap before a token, and what it leaves behind. A group counts as a whole. -/
def after (matcher : Bool) (t : Trace) : Token → Bool × Trace
  | .ident i =>
    if t = .dollar then (false, if matcher then .variable else .other)
    else if t = .variableColon then (false, .other)
    else if t = .repeating then (false, .repeatingSign)
    else if !i.raw && reserved.contains i.name then (true, .other)
    else (t ≠ .dot && t ≠ .twoColons, .name)
  | .literal text =>
    if t = .repeating then (false, .repeatingSign)
    else (t ≠ .dot, if text.endsWith "." then .other else .name)
  | .punct c joint => t.afterPunct matcher c joint
  | .opening d => t.afterGroup d
  | .closing _ => (false, t)

end Trace

namespace Token

/-- Nothing may come between the token and the next. -/
def joins : Token → Bool
  | punct c joint => joint || c = '$'
  | _ => false

def gapPieces (joined gap : Bool) (t : Token) : List Piece :=
  if joined then []
  else if gap then [.space]
  else match t with
    | punct '.' _ => [.zero]
    | _ => []

/-- The blank on the inner side of a brace. -/
def bracePieces (d : Delim) (empty : Bool) : List Piece :=
  if d = .brace && !empty then [.space] else []

/-- A row of tokens; `stack` holds what the open groups will leave behind. -/
def rowPieces (matcher : Bool) : List Trace → Trace → Bool → List Token → List Piece
  | _, _, _, [] => []
  | stack, trace, joined, t :: ts =>
    let (gap, next) := trace.after matcher t
    match t with
    | opening d =>
      let empty := match ts with
        | closing _ :: _ => true
        | _ => false
      gapPieces joined gap t ++ .text t.text :: bracePieces d empty ++
        rowPieces matcher (next :: stack) .start true ts
    | closing d =>
      let empty := trace = .start
      bracePieces d empty ++ .text t.text ::
        rowPieces matcher (stack.drop 1) (stack.head?.getD .other) false ts
    | t => gapPieces joined gap t ++ .text t.text :: rowPieces matcher stack next t.joins ts

/-- A row of tokens, which others may be matched against. -/
def rowOf (matcher : Bool) (ts : List Token) : List Piece := rowPieces matcher [] .start true ts

def pieces (ts : List Token) : List Piece := rowOf false ts

end Token

end TypedDecl.Code
