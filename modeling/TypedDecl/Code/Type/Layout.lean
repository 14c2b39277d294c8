import TypedDecl.Code.Attribute.Layout
import TypedDecl.Code.Type

namespace TypedDecl.Code

open TypedDecl.Layout

def lifetimeText (life : Ident) : String := "'" ++ life.text

def abiPieces : Option (Option String) → List Piece
  | none => []
  | some none => words "extern "
  | some (some text) => words ("extern " ++ text ++ " ")

def wordsIf (s : String) (b : Bool) : List Piece := if b then words s else []

def namePieces : Option Ident → List Piece
  | none => []
  | some i => words i.text ++ words ": "

namespace Const

def pieces (l : Interior) : Const → List Piece
  | literal negative text => words ((if negative then "-" else "") ++ text)
  | name i => words i.text
  | block row => l.expr row.tokens

end Const

namespace Capture

def text : Capture → String
  | lifetime life => lifetimeText life
  | name i => i.text

end Capture

/-- Arguments as they are listed: lifetimes before all others. -/
def livesFirst (args : List (Bool × List Piece)) : List (List Piece) :=
  (args.filter (·.1) ++ args.filter (!·.1)).map (·.2)

/-- A list of arguments in angle brackets, after colons where it is part of an expression. -/
def anglePieces (expr : Bool) (items : List (List Piece)) : List Piece :=
  if items.isEmpty then []
  else wordsIf "::" expr ++ words "<" ++ commaList items ++ words ">"

/-- Bounds after a colon, which may have lines of their own but for the first. -/
def boundPieces (bounds : List (List Piece)) : List Piece :=
  if bounds.isEmpty then [] else words ": " ++ between (.space :: words "+ ") bounds

/-- What stands between the parentheses of a tuple. A single item keeps its comma. -/
def tuplePieces : List (List Piece) → List Piece
  | [item] => group step true (.zero :: item ++ words "," ++ [Piece.zero.outdented])
  | items => commaList items

/-- Parameters in parentheses, with dots at their end where any number may follow. -/
def paramPieces (l : Interior) (params : List (List Piece)) (rest : Option Ellipsis) :
    List Piece :=
  match rest with
  | none => commaList params
  | some e =>
    let last := Attribute.listPieces l e.attributes ++ namePieces e.name ++ words "..."
    group step true
      (.zero :: between [.text ",", .space] (params ++ [last]) ++ [Piece.zero.outdented])

mutual

def Ty.pieces (l : Interior) : Ty → List Piece
  | .path path => path.pieces l false
  | .tuple items _ => words "(" ++ tuplePieces (Ty.listPieces l items) ++ words ")"
  | .paren inner => words "(" ++ inner.pieces l ++ words ")"
  | .array item length =>
    words "[" ++ item.pieces l ++ words "; " ++ l.expr length.tokens ++ words "]"
  | .slice item => words "[" ++ item.pieces l ++ words "]"
  | .never => words "!"
  | .infer => words "_"
  | .pointer writable target =>
    words "*" ++ words (if writable then "mut " else "const ") ++ target.pieces l
  | .reference life writable target =>
    words "&" ++ (match life with
      | none => []
      | some i => words (lifetimeText i) ++ words " ") ++
      wordsIf "mut " writable ++ target.pieces l
  | .dynamic _ bounds _ => words "dyn " ++ between (words " + ") (Bound.listPieces l bounds)
  | .abstract bounds _ => words "impl " ++ between (words " + ") (Bound.listPieces l bounds)
  | .function binder checked abi params _ rest output =>
    binder.pieces l ++ wordsIf "unsafe " (!checked) ++ abiPieces abi ++
      words "fn(" ++ paramPieces l (Param.listPieces l params) rest ++ words ")" ++
      (match output with
        | none => []
        | some ty => words " -> " ++ ty.pieces l)
  | .macroCall call => call.pieces none false
  | .verbatim _ => [.unknown]

def Ty.listPieces (l : Interior) : List Ty → List (List Piece)
  | [] => []
  | ty :: tys => ty.pieces l :: Ty.listPieces l tys

def Param.pieces (l : Interior) : Param → List Piece
  | .mk attributes name ty =>
    Attribute.listPieces l attributes ++ namePieces name ++ ty.pieces l

def Param.listPieces (l : Interior) : List Param → List (List Piece)
  | [] => []
  | param :: params => param.pieces l :: Param.listPieces l params

/-- A path, as part of an expression or of a type. -/
def QualPath.pieces (l : Interior) (expr : Bool) : QualPath → List Piece
  | .plain path => path.pieces l expr
  | .projected self via rest =>
    words "<" ++ self.pieces l ++
      (match via with
        | none => []
        | some path => words " as " ++ path.pieces l false) ++
      words ">" ++ Segment.listPieces l expr true rest

def Path.pieces (l : Interior) (expr : Bool) : Path → List Piece
  | .mk global segments => Segment.listPieces l expr global segments

/-- Segments with colons between them, and before the first if so told. -/
def Segment.listPieces (l : Interior) (expr : Bool) : Bool → List Segment → List Piece
  | _, [] => []
  | lead, segment :: segments =>
    wordsIf "::" lead ++ segment.pieces l expr ++ Segment.listPieces l expr true segments

def Segment.pieces (l : Interior) (expr : Bool) : Segment → List Piece
  | .mk i args => words i.text ++ args.pieces l expr

def Args.pieces (l : Interior) (expr : Bool) : Args → List Piece
  | .none => []
  | .angle _ items _ => anglePieces expr (livesFirst (Arg.listPieces l items))
  | .call inputs _ output =>
    group step true
      (words "(" ++
        (match Ty.listPieces l inputs with
          | [] => [Piece.zero.outdented]
          | items => .zero :: between [.text ",", .space] items ++ [.lastComma 0]) ++
        words ")" ++
        (match output with
          | none => []
          | some ty => words " -> " ++ ty.pieces l))

def Arg.pieces (l : Interior) : Arg → List Piece
  | .lifetime life => words (lifetimeText life)
  | .type ty => ty.pieces l
  | .constant value => value.pieces l
  | .binding i args ty => words i.text ++ args.pieces l false ++ words " = " ++ ty.pieces l
  | .constBinding i args value =>
    words i.text ++ args.pieces l false ++ words " = " ++ value.pieces l
  | .constraint i args bounds _ =>
    words i.text ++ args.pieces l false ++
      group step false (boundPieces (Bound.listPieces l bounds))

def Arg.listPieces (l : Interior) : List Arg → List (Bool × List Piece)
  | [] => []
  | arg :: args => (arg.isLifetime, arg.pieces l) :: Arg.listPieces l args

def Bound.pieces (l : Interior) : Bound → List Piece
  | .lifetime life => words (lifetimeText life)
  | .trait parens binder optional path =>
    wordsIf "(" parens ++ binder.pieces l ++ wordsIf "?" optional ++ path.pieces l false ++
      wordsIf ")" parens
  | .captures params _ => words ("use<" ++ ", ".intercalate (params.map Capture.text) ++ ">")
  | .verbatim _ => [.unknown]

def Bound.listPieces (l : Interior) : List Bound → List (List Piece)
  | [] => []
  | bound :: bounds => bound.pieces l :: Bound.listPieces l bounds

def Binder.pieces (l : Interior) : Binder → List Piece
  | .none => []
  | .mk params _ =>
    words "for<" ++ between (words ", ") (Generic.listPieces l params) ++ words "> "

def Generic.pieces (l : Interior) : Generic → List Piece
  | .lifetime attributes life bounds _ =>
    Attribute.listPieces l attributes ++ words (lifetimeText life) ++
      (if bounds.isEmpty then []
        else words ": " ++ between (words " + ") (bounds.map fun b => words (lifetimeText b)))
  | .type attributes i bounds _ fallback =>
    Attribute.listPieces l attributes ++ words i.text ++
      group step false
        (boundPieces (Bound.listPieces l bounds) ++
          (match fallback with
            | none => []
            | some ty => .space :: words "= " ++ ty.pieces l))
  | .constant attributes i ty fallback =>
    Attribute.listPieces l attributes ++ words "const " ++ words i.text ++ words ": " ++
      ty.pieces l ++
      (match fallback with
        | none => []
        | some value => words " = " ++ value.pieces l)

def Generic.listPieces (l : Interior) : List Generic → List (List Piece)
  | [] => []
  | param :: params => param.pieces l :: Generic.listPieces l params

end

end TypedDecl.Code
