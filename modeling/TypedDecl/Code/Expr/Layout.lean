import TypedDecl.Code.Expr.Shape
import TypedDecl.Code.Pattern.Layout

namespace TypedDecl.Code

open TypedDecl.Layout

/-- What encloses an expression that does not fit on the line. -/
structure Enclosure where
  /-- Braces, which only a statement can stand in; else parentheses. -/
  braces : Bool
  /-- A semicolon stands before the closing brace. -/
  semicolon : Bool
  /-- A comma stands behind a closing parenthesis. -/
  listed : Bool
  /-- A comma stands behind an expression that does fit. -/
  comma : Bool
  deriving DecidableEq, Repr

namespace Enclosure

def ofClosure (body : Expr) : Enclosure :=
  ⟨body.canBeStatement, body.addsSemicolon, false, false⟩

/-- That of the body of an arm, to which a comma belongs unless the body ends itself. -/
def ofArm (body : Expr) : Enclosure :=
  ⟨body.canBeStatement, body.addsSemicolon, true, !body.endsItself⟩

def pieces (e : Enclosure) (ps : List Piece) : List Piece :=
  group step true
    (.endedBy (if e.braces then '\x7b' else '(') :: ps ++
      [.gap { Gap.plain with
        shift := -step
        before := if e.braces && e.semicolon then some ';' else none
        after := if e.braces then "\x7d" else if e.listed then ")," else ")"
        unbroken := if e.comma then some ',' else none }])

end Enclosure

inductive Place
  /-- On its own; `first` tells whether it begins a line. -/
  | free (first : Bool)
  /-- In front of links of a chain. -/
  | linked (first : Bool)
  | arm (enclosure : Enclosure)
  /-- Behind a block in whose stead it runs. -/
  | otherwise
  deriving DecidableEq, Repr

namespace Place

def first : Place → Bool
  | free first | linked first => first
  | arm _ => true
  | otherwise => false

/-- The place of an operand that brackets or a question mark follow. -/
def operand : Place → Place
  | arm _ => free true
  | p => p

def called : Place → Place
  | linked _ => linked false
  | p => p.operand

/-- Pieces that begin with those of an operand in this place. -/
def extended : Place → List Piece → List Piece
  | arm e, ps => .stay :: e.pieces ps
  | _, ps => ps

/-- Pieces that are no link of a chain. Before links, the level of the chain is taken back. -/
def whole : Place → List Piece → List Piece
  | linked _, ps => group (-step) true ps
  | p, ps => p.extended ps

/-- Pieces that end with a link of a chain. Before more links, they are not yet the whole chain. -/
def chain : Place → List Piece → List Piece
  | linked _, ps => ps
  | p, ps => p.extended (group step true ps)

/-- Pieces that are a group of their own, except in the stead of a block. -/
def boxed : Place → List Piece → List Piece
  | otherwise, ps => ps
  | p, ps => p.whole (group step true ps)

end Place

/-- The gap before a link of a chain. -/
def linkGap (first : Bool) (base : Expr) : List Piece :=
  if first && base.isShortName then [] else [.zero]

/-- A single argument that is like a block as it is, or else a list of arguments. -/
def argPieces (args : List Expr) (rows : List (List Piece)) : List Piece :=
  match args, rows with
  | [arg], [row] => if arg.isBlocklike then row else commaList rows
  | _, rows => commaList rows

/-- An array. Small items fill its lines. -/
def arrayPieces (items : List Expr) (rows : List (List Piece)) : List Piece :=
  if rows.isEmpty then words "[]"
  else if items.all Expr.isSmall then
    group step true
      (words "[" ++ .zero :: group 0 false (between [.text ",", .space] rows) ++
        [.lastComma 0, .text "]"])
  else words "[" ++ commaList rows ++ words "]"

/-- The widest structure that has its fields on one line. -/
def recordRoom : Nat := 34

/-- A structure: its name and fields on one line if they are short, or else a field to a line. -/
def recordPieces (path : List Piece) (rows : List (List Piece)) (base : Option (List Piece)) :
    List Piece :=
  let lead := group (-step) true path ++ words " \x7b"
  let content := lead ++
    (match base with
      | some ps =>
        .space :: rows.flatMap (· ++ [.text ",", .space]) ++ words ".." ++ ps ++
          [Piece.space.outdented]
      | none =>
        if rows.isEmpty then [Piece.space.outdented]
        else .space :: between [.text ",", .space] rows ++ [.lastComma 1])
  if recordRoom < rowWidth content then group step true (content ++ [.overflow]) ++ words "\x7d"
  else if rows.isEmpty && base.isNone then group step true (lead ++ [.settle]) ++ words "\x7d"
  else group step true content ++ words "\x7d"

def labelPieces : Option Ident → List Piece
  | none => []
  | some i => words (lifetimeText i ++ ": ")

namespace BlockKind

def text : BlockKind → String
  | plain => ""
  | unchecked => "unsafe "
  | constant => "const "
  | async moving => if moving then "async move " else "async "
  | trying => "try "

end BlockKind

/-- A condition, with the gap before its brace. -/
def conditionPieces (wraps : Bool) (ps : List Piece) : List Piece :=
  group 0 true (ps ++ if wraps then [.space] else words " ")

/-- Lines of their own in a block of control flow. -/
def bodyPieces (l : Interior) (inner : List Attribute) (rows : List (List Piece)) : List Piece :=
  words "\x7b" ++ .stay :: boxed (Attribute.listPieces l inner) rows ++ words "\x7d"

namespace Input

def pieces (l : Interior) (i : Input) : List Piece :=
  Attribute.listPieces l i.attributes ++ i.pat.pieces l ++
    (match i.ty with
      | none => []
      | some ty => words ": " ++ ty.pieces l)

end Input

namespace ClosureHead

def inputPieces (l : Interior) (h : ClosureHead) : List Piece :=
  if h.inputs.isEmpty then []
  else .zero :: between [.text ",", .space] (h.inputs.map (Input.pieces l))

def pieces (l : Interior) (h : ClosureHead) : List Piece :=
  h.binder.pieces l ++ wordsIf "const " h.constant ++ wordsIf "static " h.pinned ++
    wordsIf "async " h.async ++ wordsIf "move " h.moving ++
    (match h.output with
      | none =>
        group step true (words "|" ++ h.inputPieces l ++ words "|" ++ [Piece.space.outdented]) ++
          [.stay]
      | some ty =>
        group step true
          (words "|" ++ h.inputPieces l ++ (if h.inputs.isEmpty then [] else [.lastComma 0]) ++
            words "|") ++
          words " -> " ++ ty.pieces l ++ words " " ++ [.stay])

/-- The body as it is, or enclosed if it cannot stand so. -/
def bodyPieces (h : ClosureHead) (body : Expr) (ps : List Piece) : List Piece :=
  if h.output.isSome || body.isClosureBody then ps else (Enclosure.ofClosure body).pieces ps

end ClosureHead

/-- Statements in braces that may stay on the line. -/
def smallPieces (l : Interior) (inner : List Attribute) (ps : List Piece) : List Piece :=
  words "\x7b" ++ outdentLast (.space :: Attribute.listPieces l inner ++ ps) ++ words "\x7d"

mutual

def Expr.pieces (l : Interior) : Place → Expr → List Piece
  | .arm e, .block none .plain (.mk [] [.expr value false]) => value.pieces l (.arm e)
  | .arm _, .block label .plain body => labelPieces label ++ bodyPieces l body.inner (body.rows l)
  | .arm _, .attributed _ (.block label .plain body) =>
    labelPieces label ++ bodyPieces l body.inner (body.rows l)
  | .arm _, .tuple [] _ => bodyPieces l [] []
  | place, .attributed attributes inner =>
    place.whole (Attribute.listPieces l attributes ++ inner.pieces l (.free place.first))
  | place, .literal text => place.whole (words text)
  | place, .path path => place.whole (path.pieces l true)
  | place, .infer => place.whole (words "_")
  | place, .unary op operand => place.whole (words op.toString ++ operand.pieces l (.free false))
  | place, .borrow writable operand =>
    place.whole (words "&" ++ wordsIf "mut " writable ++ operand.pieces l (.free false))
  | place, .address writable operand =>
    place.whole
      (words (if writable then "&raw mut " else "&raw const ") ++ operand.pieces l (.free false))
  | place, .paren inner =>
    place.whole (words "(" ++ inner.pieces l (.free false) ++ words ")")
  | place, .tuple items _ =>
    place.whole (words "(" ++ tuplePieces (Expr.listPieces l items) ++ words ")")
  | place, .array items _ => place.whole (arrayPieces items (Expr.listPieces l items))
  | place, .repeated item length =>
    place.whole
      (words "[" ++ item.pieces l (.free false) ++ words "; " ++ length.pieces l (.free false) ++
        words "]")
  | place, .call function args _ =>
    place.extended
      (function.pieces l place.called ++ words "(" ++ argPieces args (Expr.listPieces l args) ++
        words ")")
  | place, .method receiver name generics args _ =>
    let kept := place.first && receiver.isShortName
    let linked := match place with
      | .linked _ => true
      | _ => false
    place.chain
      (receiver.pieces l (.linked place.first) ++ linkGap place.first receiver ++
        words ("." ++ name.text) ++ generics.pieces l true ++
        group (if kept && !linked then -step else 0) true
          (words "(" ++ argPieces args (Expr.listPieces l args) ++ words ")"))
  | place, .field base member =>
    place.chain
      (base.pieces l (.linked place.first) ++ linkGap place.first base ++
        words ("." ++ member.text))
  | place, .await base =>
    place.chain
      (base.pieces l (.linked place.first) ++ linkGap place.first base ++ words ".await")
  | place, .index base position =>
    place.extended
      (base.pieces l place.operand ++ words "[" ++ position.pieces l (.free false) ++ words "]")
  | place, .attempt operand => place.extended (operand.pieces l place.operand ++ words "?")
  | place, .cast operand ty =>
    place.whole
      (group step false
        (group (-step) false (operand.pieces l (.free false)) ++
          .space :: words "as " ++ ty.pieces l))
  | place, .binary op left right =>
    place.whole
      (group step false
        (group (-step) false (left.pieces l (.free false)) ++
          .space :: words (String.ofList op ++ " ") ++ right.pieces l (.free false)))
  | place, .assign left right =>
    place.whole
      (group 0 false
        (left.pieces l (.free false) ++ words " = " ++ .stay :: right.pieces l (.free false)))
  | place, .range first closed last =>
    place.whole
      (Expr.optionPieces l first ++ words (rangeText closed) ++ Expr.optionPieces l last)
  | place, .record path fields _ _ base =>
    place.whole
      (recordPieces (path.pieces l true) (FieldValue.listPieces l fields)
        (match base with
          | none => none
          | some e => some (e.pieces l (.free false))))
  | place, .macroCall call => place.whole (call.pieces none false)
  | place, .block label kind body =>
    (match place with
      | .otherwise => body.smallPieces l
      | place =>
        place.whole
          (labelPieces label ++ words kind.text ++ group step true (body.smallPieces l)))
  | place, .branch condition body other =>
    place.boxed
      (words "if " ++
        group (-step) true
          (conditionPieces condition.wraps (condition.pieces l (.free false))) ++
        (match other with
          | none =>
            if place = .otherwise then body.smallPieces l
            else if body.statements.isEmpty then words "\x7b\x7d"
            else words "\x7b" ++ lines [] (body.rows l) ++ words "\x7d"
          | some e => body.smallPieces l ++ words " else " ++ e.pieces l .otherwise))
  | place, .choice subject inner arms =>
    place.whole
      (group 0 false
        (words "match " ++
          conditionPieces subject.wraps (subject.pieces l (.free false)) ++
          bodyPieces l inner (Arm.listPieces l arms)))
  | place, .whileLoop label condition body =>
    place.whole
      (labelPieces label ++ words "while " ++
        conditionPieces condition.wraps (condition.pieces l (.free false)) ++
        bodyPieces l body.inner (body.rows l))
  | place, .forLoop label pat source body =>
    place.whole
      (group 0 false
        (labelPieces label ++ words "for " ++ pat.pieces l ++ words " in " ++
          .stay :: conditionPieces source.wraps (source.pieces l (.free false)) ++
          bodyPieces l body.inner (body.rows l)))
  | place, .endlessLoop label body =>
    place.whole
      (labelPieces label ++ words "loop \x7b" ++
        boxed (Attribute.listPieces l body.inner) (body.rows l) ++ words "\x7d")
  | place, .binds pat value =>
    place.whole
      (words "let " ++ pat.pieces l ++ words " = " ++ .stay :: value.pieces l (.free false))
  | place, .closure head body =>
    place.whole
      (group 0 false (head.pieces l ++ head.bodyPieces body (body.pieces l (.free false))))
  | place, .jump kind label value =>
    place.whole
      (words kind.text ++
        (match label with
          | none => []
          | some i => words (" " ++ lifetimeText i)) ++
        (match value with
          | none => []
          | some e => words " " ++ e.pieces l (.free false)))
  | place, .verbatim _ => place.whole [.unknown]

def Expr.optionPieces (l : Interior) : Option Expr → List Piece
  | none => []
  | some e => e.pieces l (.free false)

def Expr.listPieces (l : Interior) : List Expr → List (List Piece)
  | [] => []
  | e :: es => e.pieces l (.free false) :: Expr.listPieces l es

def FieldValue.pieces (l : Interior) : FieldValue → List Piece
  | .mk attributes member value =>
    Attribute.listPieces l attributes ++ words member.text ++
      (match value with
        | none => []
        | some e => words ": " ++ group 0 false (e.pieces l (.free false)))

def FieldValue.listPieces (l : Interior) : List FieldValue → List (List Piece)
  | [] => []
  | field :: fields => field.pieces l :: FieldValue.listPieces l fields

def Arm.pieces (l : Interior) : Arm → List Piece
  | .mk attributes pat guard body _ =>
    Attribute.listPieces l attributes ++
      group 0 false
        (pat.pieces l ++
          (match guard with
            | none => []
            | some e => words " if " ++ e.pieces l (.free false)) ++
          words " => " ++ body.pieces l (.arm (Enclosure.ofArm body.core)))

def Arm.listPieces (l : Interior) : List Arm → List (List Piece)
  | [] => []
  | arm :: arms => arm.pieces l :: Arm.listPieces l arms

def Block.rows (l : Interior) : Block → List (List Piece)
  | .mk _ statements => Stmt.listPieces l statements

/-- A block that stays on the line if all it holds is an expression, and if that fits. -/
def Block.smallPieces (l : Interior) : Block → List Piece
  | .mk [] [] => words "\x7b\x7d"
  | .mk inner [.expr value false] =>
    TypedDecl.Code.smallPieces l inner (group 0 false (value.pieces l (.free true)) ++ [.space])
  | .mk inner statements =>
    TypedDecl.Code.smallPieces l inner ((Stmt.listPieces l statements).flatMap (· ++ [.line]))

def Stmt.pieces? (l : Interior) : Stmt → Option (List Piece)
  | .empty => none
  | .bind attributes pat ty value other =>
    let content := words "let " ++ pat.pieces l ++
      (match ty with
        | none => []
        | some ty => words ": " ++ ty.pieces l) ++
      (match value with
        | none => []
        | some e => words " = " ++ .stay :: e.pieces l (.free false))
    some <| Attribute.listPieces l attributes ++
      (match other with
        | none => group 0 false (content ++ words ";")
        | some body =>
          group 0 false (content ++ .space :: words "else ") ++
            .stay :: group step true (body.smallPieces l ++ words ";"))
  | .item row => some (l.item row)
  | .expr value closed =>
    some <| group 0 false
      (value.pieces l (.free true) ++
        wordsIf ";" (if closed then !value.dropsSemicolon else value.addsSemicolon))
  | .macroCall attributes call closed =>
    some (Attribute.listPieces l attributes ++ call.pieces none closed)

def Stmt.listPieces (l : Interior) : List Stmt → List (List Piece)
  | [] => []
  | s :: ss => (s.pieces? l).toList ++ Stmt.listPieces l ss

end

end TypedDecl.Code
