import TypedDecl.Code.Expr.Layout
import TypedDecl.Code.Item
import TypedDecl.Code.Reading
import TypedDecl.Layout.Writer

namespace TypedDecl.Code

open TypedDecl.Layout

namespace Visibility

def text : Visibility → String
  | inherited => ""
  | everywhere => "pub "
  | within path =>
    (if ["self", "super", "crate"].any path.isWord then "pub(" else "pub(in ") ++ path.text ++ ") "

end Visibility

/-- Bounds after a sign, which stay on the line together with it as far as they fit. -/
def boundsAfter (lead : String) (rows : List (List Piece)) : List Piece :=
  if rows.isEmpty then [] else words lead ++ between (.space :: words "+ ") rows

namespace Condition

def pieces (l : Interior) : Condition → List Piece
  | lifetime life bounds =>
    words (lifetimeText life ++ ":") ++
      group step false (boundsAfter " " (bounds.map fun b => words (lifetimeText b)))
  | type binder ty bounds =>
    binder.pieces l ++ ty.pieces l ++ words ":" ++
      group (if bounds.length = 1 then 0 else step) false
        (boundsAfter " " (Bound.listPieces l bounds))

end Condition

namespace Generics

def paramPieces (l : Interior) (g : Generics) : List Piece :=
  if g.params.isEmpty then []
  else
    words "<" ++
      group 0 true
        (.zero :: between [.text ",", .space]
          (livesFirst (g.params.map fun p => (p.isLifetime, p.pieces l))) ++ [.lastComma 0]) ++
      words ">"

def conditionRows (l : Interior) (g : Generics) : List (List Piece) :=
  g.conditions.map (Condition.pieces l)

/-- The conditions before a brace, which has a line of its own behind them. -/
def wherePieces (l : Interior) (g : Generics) : List Piece :=
  if g.conditions.isEmpty then words " "
  else
    Piece.line.outdented :: words "where" ++ .line ::
      outdentLast ((g.conditionRows l).flatMap (· ++ [.text ",", .line]))

def whereEnd (l : Interior) (g : Generics) : List Piece :=
  if g.conditions.isEmpty then words ";"
  else
    Piece.line.outdented :: words "where" ++ .line ::
      between [.text ",", .line] (g.conditionRows l) ++ words ";"

/-- The conditions on the line, if they fit, before an equals sign. -/
def shortWhere (l : Interior) (g : Generics) : List Piece :=
  if g.conditions.isEmpty then words " "
  else
    Piece.space.outdented :: words "where" ++ .space ::
      between [.text ",", .space] (g.conditionRows l) ++ [.lastComma 1]

/-- The conditions on the line, if they fit, at the end of an item. -/
def shortWhereEnd (l : Interior) (g : Generics) : List Piece :=
  if g.conditions.isEmpty then words ";"
  else
    Piece.space.outdented :: words "where" ++ .space ::
      between [.text ",", .space] (g.conditionRows l) ++ words ";"

end Generics

namespace Field

def pieces (l : Interior) (f : Field) : List Piece :=
  Attribute.listPieces l f.attributes ++ words f.visibility.text ++ namePieces f.name ++
    f.ty.pieces l

def tuplePieces (l : Interior) (fields : List Field) : List Piece :=
  words "(" ++
    (if fields.isEmpty then [Piece.zero.outdented]
      else .zero :: between [.text ",", .space] (fields.map (pieces l)) ++ [.lastComma 0]) ++
    words ")"

end Field

namespace Fields

/-- The fields of a structure after its name, in its group, and what ends the group. -/
def pieces (l : Interior) (lead : List Piece) (g : Generics) : Fields → List Piece
  | unit => group step true (lead ++ g.whereEnd l)
  | tuple fields => group step true (lead ++ Field.tuplePieces l fields ++ g.whereEnd l)
  | named fields =>
    group step true
      (lead ++ g.wherePieces l ++ braced [] (fields.map fun f => f.pieces l ++ words ",")) ++
      words "\x7d"

def variantPieces (l : Interior) : Fields → List Piece
  | unit => []
  | tuple fields => group step true (Field.tuplePieces l fields)
  | named fields =>
    words " \x7b" ++
      (if fields.isEmpty then []
        else group step true
          (.space :: between [.text ",", .space] (fields.map (Field.pieces l)) ++
            [.lastComma 1])) ++
      words "\x7d"

end Fields

namespace Variant

def pieces (l : Interior) (v : Variant) : List Piece :=
  Attribute.listPieces l v.attributes ++ words v.name.text ++ v.fields.variantPieces l ++
    (match v.value with
      | none => []
      | some e => words " = " ++ e.pieces l (.free false))

end Variant

namespace FnParam

def pieces (l : Interior) : FnParam → List Piece
  | receiver attributes borrowed writable ty =>
    Attribute.listPieces l attributes ++
      (match borrowed with
        | none => []
        | some none => words "&"
        | some (some i) => words ("&" ++ lifetimeText i ++ " ")) ++
      wordsIf "mut " writable ++ words "self" ++
      (match ty with
        | none => []
        | some ty => words ": " ++ ty.pieces l)
  | typed attributes pat ty =>
    Attribute.listPieces l attributes ++ pat.pieces l ++ words ": " ++ ty.pieces l

end FnParam

namespace Variadic

def pieces (l : Interior) (v : Variadic) : List Piece :=
  Attribute.listPieces l v.attributes ++
    (match v.pat with
      | none => []
      | some pat => pat.pieces l ++ words ": ") ++
    words "..."

end Variadic

namespace Signature

/-- Parameters are on one line or one to a line. -/
def paramPieces (l : Interior) (s : Signature) : List Piece :=
  let rows := s.params.map (FnParam.pieces l)
  match s.variadic with
  | some v =>
    group 0 true
      (.zero :: between [.text ",", .space] (rows ++ [v.pieces l]) ++ [Piece.zero.outdented])
  | none =>
    if rows.isEmpty then []
    else group 0 true (.zero :: between [.text ",", .space] rows ++ [.lastComma 0])

def pieces (l : Interior) (s : Signature) : List Piece :=
  wordsIf "const " s.constant ++ wordsIf "async " s.async ++ wordsIf "unsafe " s.unchecked ++
    abiPieces s.abi ++ words "fn " ++ words s.name.text ++ s.generics.paramPieces l ++
    words "(" ++ .stay :: s.paramPieces l ++ words ")" ++
    (match s.output with
      | none => []
      | some ty => group (-step) true (words " -> " ++ ty.pieces l))

end Signature

def assignedPieces (l : Interior) : Option Expr → List Piece
  | none => []
  | some e => words " = " ++ .stay :: e.pieces l (.free false)

namespace MemberBody

/-- A member after its attributes; `front` is what else stands before its own words. -/
def pieces (l : Interior) (front : List Piece) : MemberBody → List Piece
  | constant name ty value =>
    group 0 true
      (front ++ words "const " ++ words name.text ++ words ": " ++ ty.pieces l ++
        assignedPieces l value ++ words ";")
  | function s none => group step true (front ++ s.pieces l ++ s.generics.whereEnd l)
  | function s (some body) =>
    group step true
      (front ++ s.pieces l ++ s.generics.wherePieces l ++
        braced (Attribute.listPieces l body.inner) (body.rows l)) ++ words "\x7d"
  | typeAlias late name generics bounds ty =>
    let target := match ty with
      | none => []
      | some ty => words "= " ++ .stay :: group (-step) false (ty.pieces l)
    group step true
      (front ++ words "type " ++ words name.text ++ generics.paramPieces l ++
        boundsAfter ": " (Bound.listPieces l bounds) ++
        if late then wordsIf " " ty.isSome ++ target ++ generics.shortWhereEnd l
        else generics.shortWhere l ++ target ++ words ";")
  | foreignType name generics =>
    group 0 true
      (front ++ words "type " ++ words name.text ++ generics.paramPieces l ++ words ";")
  | static writable name ty value =>
    group 0 true
      (front ++ words "static " ++ wordsIf "mut " writable ++ words name.text ++ words ": " ++
        ty.pieces l ++ assignedPieces l value ++ words ";")
  | macroCall call name => call.pieces name (!call.inBraces)
  | verbatim _ => [.unknown]

end MemberBody

namespace Member

def pieces (l : Interior) (m : Member) : List Piece :=
  Attribute.listPieces l m.attributes ++
    m.body.pieces l (words m.visibility.text ++ wordsIf "default " m.isDefault)

end Member

namespace Members

def pieces (l : Interior) (m : Members) : List Piece :=
  braced (Attribute.listPieces l m.inner) (m.list.map (Member.pieces l))

end Members

mutual

def UseTree.pieces : UseTree → List Piece
  | .path i rest => words (i.text ++ "::") ++ rest.pieces
  | .name i => words i.text
  | .renamed i other => words (i.text ++ " as " ++ other.text)
  | .all => words "*"
  | .group items =>
    words "\x7b" ++
      (if items.isEmpty then []
        else Layout.group step true
          (.zero :: Layout.group 0 false (UseTree.listPieces items) ++ [.lastComma 0])) ++
      words "\x7d"

/-- What a group holds: behind a group, the line ends. -/
def UseTree.listPieces : List UseTree → List Piece
  | [] => []
  | [item] => item.pieces
  | item :: items =>
    item.pieces ++ words "," ++ (if item.endsInGroup then Piece.line else .space) ::
      UseTree.listPieces items

end

def implPieces (l : Interior) (lead : List Piece) (via : Option (Bool × Path)) (self : Ty) :
    List Piece :=
  group (-step) false
    (group step true lead ++ words " " ++
      (match via with
        | none => []
        | some (opposite, path) =>
          wordsIf "!" opposite ++ path.pieces l false ++ .space :: words "for ") ++
      self.pieces l)

mutual

def Item.pieces (l : Interior) : Item → List Piece
  | .member m => m.pieces l
  | .data attributes visibility overlapping name generics fields =>
    Attribute.listPieces l attributes ++
      fields.pieces l
        (words visibility.text ++ words (if overlapping then "union " else "struct ") ++
          words name.text ++ generics.paramPieces l) generics
  | .enumeration attributes visibility name generics variants =>
    Attribute.listPieces l attributes ++
      group step true
        (words visibility.text ++ words "enum " ++ words name.text ++ generics.paramPieces l ++
          generics.wherePieces l ++ braced [] (variants.map fun v => v.pieces l ++ words ",")) ++
      words "\x7d"
  | .externCrate attributes visibility name other =>
    Attribute.listPieces l attributes ++ words visibility.text ++ words "extern crate " ++
      words name.text ++
      (match other with
        | none => []
        | some i => words (" as " ++ i.text)) ++
      words ";"
  | .use attributes visibility global tree =>
    Attribute.listPieces l attributes ++ words visibility.text ++ words "use " ++
      wordsIf "::" global ++ tree.pieces ++ words ";"
  | .foreign attributes unchecked abi members =>
    Attribute.listPieces l attributes ++
      group step true (wordsIf "unsafe " unchecked ++ abiPieces (some abi) ++ members.pieces l) ++
      words "\x7d"
  | .impl attributes isDefault unchecked generics via self members =>
    Attribute.listPieces l attributes ++
      group step true
        (implPieces l
          (wordsIf "default " isDefault ++ wordsIf "unsafe " unchecked ++ words "impl" ++
            generics.paramPieces l) via self ++
          generics.wherePieces l ++ members.pieces l) ++ words "\x7d"
  | .trait attributes visibility unchecked automatic name generics bounds members =>
    Attribute.listPieces l attributes ++
      group step true
        (words visibility.text ++ wordsIf "unsafe " unchecked ++ wordsIf "auto " automatic ++
          words "trait " ++ words name.text ++ generics.paramPieces l ++
          (if bounds.isEmpty then []
            else words ": " ++ between (words " + ") (Bound.listPieces l bounds)) ++
          generics.wherePieces l ++ members.pieces l) ++ words "\x7d"
  | .traitAlias attributes visibility name generics bounds =>
    Attribute.listPieces l attributes ++
      group step true
        (words visibility.text ++ words "trait " ++ words name.text ++ generics.paramPieces l ++
          words " = " ++ .stay :: boundsAfter "" (Bound.listPieces l bounds) ++
          generics.whereEnd l)
  | .module attributes visibility unchecked name inner items =>
    Attribute.listPieces l attributes ++
      group step true
        (words visibility.text ++ wordsIf "unsafe " unchecked ++ words "mod " ++
          words name.text ++ words " " ++
          braced (Attribute.listPieces l inner) (Item.listPieces l items)) ++ words "\x7d"
  | .outlined attributes visibility unchecked name =>
    Attribute.listPieces l attributes ++
      group step true
        (words visibility.text ++ wordsIf "unsafe " unchecked ++ words "mod " ++
          words name.text ++ words ";")
  | .verbatim _ => [.unknown]

def Item.listPieces (l : Interior) : List Item → List (List Piece)
  | [] => []
  | item :: items => item.pieces l :: Item.listPieces l items

end

namespace Interior

/-- Rows are read before they are laid out, and so are the rows inside them, to a depth. -/
def nested : Nat → Interior
  | 0 => ⟨Token.pieces, Token.pieces⟩
  | depth + 1 =>
    { expr := fun row =>
        match Expr.ofTokens? row with
        | some e => e.pieces (nested depth) (.free false)
        | none => Token.pieces row
      item := fun row =>
        match Item.ofTokens? row with
        | some item => item.pieces (nested depth)
        | none => Token.pieces row }

end Interior

/-- A file with these items, in which rows lie inside each other no deeper than so. -/
def Item.filePieces (depth : Nat) (items : List Item) : List Piece :=
  group 0 true ((Item.listPieces (Interior.nested depth) items).flatMap (· ++ [Piece.line]))

/-- The text of a file, if all that is in it has a layout. -/
def Item.format? (depth : Nat) (items : List Item) : Option String :=
  let ps := Item.filePieces depth items
  if .unknown ∈ ps then none else some (render ps)

end TypedDecl.Code
