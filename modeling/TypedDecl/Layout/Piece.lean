namespace TypedDecl.Layout

/-- A place where a line can end. -/
structure Gap where
  /-- Added to the indentation of the group when the line ends here. -/
  shift : Int
  /-- The number of spaces when it does not. -/
  blank : Nat
  /-- A character that is written only when the line ends here. -/
  before : Option Char
  /-- The line never ends here. -/
  never : Bool
  /-- What the next line begins with when the line ends here. -/
  after : String
  /-- A character that is written only when it does not. -/
  unbroken : Option Char
  deriving DecidableEq, Repr

def Gap.plain : Gap := ⟨0, 0, none, false, "", none⟩

inductive Piece
  | text (s : String)
  | gap (g : Gap)
  /-- The start of a group: what it adds to the indentation, and whether all of its gaps end the
  line together. -/
  | start (shift : Int) (all : Bool)
  | stop
  /-- Measures like a gap, and writes nothing. -/
  | settle
  /-- Wider than any line, and writes nothing. -/
  | overflow
  /-- Stands for code that has no layout. -/
  | unknown
  deriving DecidableEq, Repr

/-- Wider than any line. -/
def endless : Nat := 65535

def step : Int := 4

namespace Piece

def spaces (n : Nat) : Piece := gap { Gap.plain with blank := n }

def zero : Piece := spaces 0

def space : Piece := spaces 1

/-- A gap that ends the line in any group. -/
def line : Piece := spaces endless

def stay : Piece := gap { Gap.plain with never := true }

/-- A gap that ends the line after a character. -/
def endedBy (c : Char) : Piece := gap { Gap.plain with before := some c }

/-- The gap at the end of a list: it ends the line after a comma and takes back a level. -/
def lastComma (blank : Nat) : Piece :=
  gap { Gap.plain with shift := -step, blank, before := some ',' }

/-- The gap takes back a level. -/
def outdented : Piece → Piece
  | gap g => gap { g with shift := g.shift - step }
  | p => p

def width : Piece → Nat
  | text s => s.utf8ByteSize
  | gap g => g.blank
  | overflow => endless
  | _ => 0

end Piece

def rowWidth : List Piece → Nat
  | [] => 0
  | p :: ps => p.width + rowWidth ps

def group (shift : Int) (all : Bool) (ps : List Piece) : List Piece :=
  .start shift all :: ps ++ [.stop]

/-- Rows of pieces with the same pieces between them. -/
def between (sep : List Piece) (rows : List (List Piece)) : List Piece :=
  (rows.intersperse sep).flatten

def words (s : String) : List Piece := [.text s]

/-- Items with commas between them, which are on one line or one to a line. Nothing is written for
no items. -/
def commaList : List (List Piece) → List Piece
  | [] => []
  | items =>
    group step true (.zero :: between [.text ",", .space] items ++ [.lastComma 0])

/-- The row whose last gap takes back a level. -/
def outdentLast : List Piece → List Piece
  | [] => []
  | [p] => [p.outdented]
  | p :: ps => p :: outdentLast ps

/-- Lines of their own, after what stands at their start. -/
def lines (lead : List Piece) (rows : List (List Piece)) : List Piece :=
  outdentLast (.line :: lead ++ rows.flatMap (· ++ [.line]))

/-- Lines in braces, a level deeper. No lines leave nothing between the braces. -/
def braced (lead : List Piece) (rows : List (List Piece)) : List Piece :=
  .text "\x7b" :: if lead.isEmpty && rows.isEmpty then [.settle] else lines lead rows

def boxed (lead : List Piece) (rows : List (List Piece)) : List Piece :=
  if lead.isEmpty && rows.isEmpty then [] else group step true (lines lead rows)

end TypedDecl.Layout
