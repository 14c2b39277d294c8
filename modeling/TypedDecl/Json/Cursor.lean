import TypedDecl.Json.Failure

namespace TypedDecl.Json

structure Cursor where
  rest : List Char
  line : Nat
  column : Nat
  deriving DecidableEq, Repr

namespace Cursor

def start (text : String) : Cursor := ⟨text.toList, 1, 0⟩

def next (c : Cursor) : Cursor :=
  match c.rest with
  | [] => c
  | '\n' :: rest => ⟨rest, c.line + 1, 0⟩
  | ch :: rest => ⟨rest, c.line, c.column + ch.utf8Size⟩

def skip : Nat → Cursor → Cursor
  | 0, c => c
  | n + 1, c => skip n c.next

def failHere {α : Type} (c : Cursor) (cause : Cause) : Except Failure α :=
  .error ⟨cause, c.line, c.column⟩

/-- The place so many bytes on, which may be inside a character. -/
def bytesOn : Nat → List Char → Nat → Nat → Nat × Nat
  | _, [], line, column => (line, column)
  | n, ch :: rest, line, column =>
    if n = 0 then (line, column)
    else if ch = '\n' then bytesOn (n - 1) rest (line + 1) 0
    else bytesOn (n - ch.utf8Size) rest line (column + min n ch.utf8Size)

/-- A failure so many bytes on, or at the end. -/
def failAt {α : Type} (n : Nat) (c : Cursor) (cause : Cause) : Except Failure α :=
  let (line, column) := bytesOn n c.rest c.line c.column
  .error ⟨cause, line, column⟩

/-- A failure that the next byte shows. -/
def failAhead {α : Type} (c : Cursor) (cause : Cause) : Except Failure α := c.failAt 1 cause

def isBlank (ch : Char) : Bool := ch = ' ' || ch = '\n' || ch = '\t' || ch = '\r'

def skipBlanks (c : Cursor) : Cursor := c.skip (c.rest.takeWhile isBlank).length

def skipDigits (c : Cursor) : Cursor := c.skip (c.rest.takeWhile Char.isDigit).length

def peek? (c : Cursor) : Option Char := c.rest.head?

def startsDigit (c : Cursor) : Bool := c.rest.head?.any Char.isDigit

end Cursor

abbrev Reader (α : Type) := Cursor → Except Failure (α × Cursor)

end TypedDecl.Json
