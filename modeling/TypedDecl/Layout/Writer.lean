import TypedDecl.Layout.Piece

namespace TypedDecl.Layout

def margin : Int := 89

def leastRoom : Int := 60

/-- Whether the pieces up to the next gap fit. A gap inside a group that starts in front of it, or
that encloses the first piece so many levels deep, does not count. -/
def fits : Int → Nat → List Piece → Bool
  | room, _, [] => 0 ≤ room
  | room, depth, p :: ps =>
    if room < 0 then false
    else
      match p with
      | .start _ _ => fits room (depth + 1) ps
      | .stop => fits room (depth - 1) ps
      | .gap g => if depth = 0 then true else fits (room - g.blank) depth ps
      | .settle => if depth = 0 then true else fits room depth ps
      | p => fits (room - p.width) depth ps

/-- A group that is being written. -/
inductive Frame
  | flat
  /-- Its gaps end lines: all of them, or those behind which there is no room. The indentation is
  that outside the group. -/
  | broken (indent : Int) (all : Bool)
  deriving DecidableEq, Repr

structure Writer where
  out : String
  /-- Columns left on the line. -/
  room : Int
  indent : Int
  /-- Spaces due before the next text, so that no line ends with them. -/
  pending : Nat
  frames : List Frame

namespace Writer

def empty : Writer := ⟨"", margin, 0, 0, []⟩

def blanks (n : Nat) : String := String.ofList (List.replicate n ' ')

def text (w : Writer) (s : String) : Writer :=
  { w with out := w.out ++ blanks w.pending ++ s, pending := 0, room := w.room - s.utf8ByteSize }

/-- Goes on without ending the line. -/
def skip (w : Writer) (g : Gap) : Writer :=
  let w := { w with pending := w.pending + g.blank, room := w.room - g.blank }
  match g.unbroken with
  | some c => { w with out := w.out.push c, room := w.room - c.utf8Size }
  | none => w

def newline (w : Writer) (g : Gap) : Writer :=
  let out := match g.before with
    | some c => (w.out ++ blanks w.pending).push c
    | none => w.out
  let indent := w.indent + g.shift
  let w := { w with
    out := out.push '\n', pending := indent.toNat, room := max (margin - indent) leastRoom }
  if g.after.isEmpty then w else w.text g.after

/-- Whether a gap leaves the line as it is, given what follows. -/
def stays (w : Writer) (g : Gap) (rest : List Piece) : Bool :=
  g.never ||
    match w.frames with
    | .flat :: _ => true
    | .broken _ true :: _ => false
    | _ => fits (w.room - g.blank) 0 rest

def startGroup (w : Writer) (shift : Int) (all : Bool) (rest : List Piece) : Writer :=
  if fits w.room 1 rest then { w with frames := .flat :: w.frames }
  else { w with frames := .broken w.indent all :: w.frames, indent := w.indent + shift }

def stopGroup (w : Writer) : Writer :=
  match w.frames with
  | .broken indent _ :: frames => { w with frames, indent }
  | .flat :: frames => { w with frames }
  | [] => w

def piece (w : Writer) (p : Piece) (rest : List Piece) : Writer :=
  match p with
  | .text s => w.text s
  | .gap g => if w.stays g rest then w.skip g else w.newline g
  | .start shift all => w.startGroup shift all rest
  | .stop => w.stopGroup
  | .settle | .overflow | .unknown => w

def pieces : Writer → List Piece → Writer
  | w, [] => w
  | w, p :: ps => (w.piece p ps).pieces ps

end Writer

def render (ps : List Piece) : String :=
  (Writer.empty.pieces ps).out

end TypedDecl.Layout
