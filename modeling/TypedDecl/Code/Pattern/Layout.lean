import TypedDecl.Code.Pattern
import TypedDecl.Code.Type.Layout

namespace TypedDecl.Code

open TypedDecl.Layout

namespace PatEnd

def pieces (l : Interior) : PatEnd → List Piece
  | literal negative text => words ((if negative then "-" else "") ++ text)
  | path p => p.pieces l true
  | block row => l.expr row

/-- The end of a range, if it has one. -/
def optionPieces (l : Interior) : Option PatEnd → List Piece
  | none => []
  | some e => e.pieces l

end PatEnd

def rangeText (closed : Bool) : String := if closed then "..=" else ".."

/-- Items with a comma after each; behind the last it stands only where the line ends. -/
def endedItems : List (List Piece) → List Piece
  | [] => []
  | items => between [.text ",", .space] items ++ [.endedBy ',']

/-- The fields of a structure, with what stands in place of all other fields. -/
def fieldListPieces (fields : List (List Piece)) (rest : Option (List Piece)) : List Piece :=
  match rest with
  | none =>
    if fields.isEmpty then [.settle]
    else .space :: between [.text ",", .space] fields ++ [.lastComma 1]
  | some ps => .space :: between [.text ",", .space] (fields ++ [ps]) ++ [Piece.space.outdented]

mutual

def Pat.pieces (l : Interior) : Pat → List Piece
  | .wild => words "_"
  | .rest => words ".."
  | .name borrowed writable i sub =>
    wordsIf "ref " borrowed ++ wordsIf "mut " writable ++ words i.text ++
      (match sub with
        | none => []
        | some pat => words " @ " ++ pat.pieces l)
  | .value e => e.pieces l
  | .range first closed last =>
    PatEnd.optionPieces l first ++ words (rangeText closed) ++ PatEnd.optionPieces l last
  | .cases _ cases =>
    group 0 (!cases.all Pat.isSimple) (between (.space :: words "| ") (Pat.listPieces l cases))
  | .paren inner => words "(" ++ inner.pieces l ++ words ")"
  | .tuple [item] trailing =>
    words "(" ++ group step true
      (.zero :: item.pieces l ++ wordsIf "," trailing ++ [Piece.zero.outdented]) ++ words ")"
  | .tuple items _ => words "(" ++ commaList (Pat.listPieces l items) ++ words ")"
  | .applied path items _ =>
    path.pieces l true ++ words "(" ++ commaList (Pat.listPieces l items) ++ words ")"
  | .record path fields _ rest =>
    group step true
      (path.pieces l true ++ words " \x7b" ++
        fieldListPieces (FieldPat.listPieces l fields)
          (rest.map fun attributes => Attribute.listPieces l attributes ++ words "..")) ++
      words "\x7d"
  | .slice items _ => words "[" ++ endedItems (Pat.listPieces l items) ++ words "]"
  | .reference writable target => words "&" ++ wordsIf "mut " writable ++ target.pieces l
  | .macroCall call => call.pieces none false
  | .verbatim _ => [.unknown]

def Pat.listPieces (l : Interior) : List Pat → List (List Piece)
  | [] => []
  | pat :: pats => pat.pieces l :: Pat.listPieces l pats

def FieldPat.pieces (l : Interior) : FieldPat → List Piece
  | .mk attributes member pat =>
    Attribute.listPieces l attributes ++
      (match member with
        | none => []
        | some m => words (m.text ++ ": ")) ++
      pat.pieces l

def FieldPat.listPieces (l : Interior) : List FieldPat → List (List Piece)
  | [] => []
  | field :: fields => field.pieces l :: FieldPat.listPieces l fields

end

end TypedDecl.Code
