import TypedDecl.Json.Number
import TypedDecl.Json.Text

namespace TypedDecl.Json

inductive Bracket
  | list
  | object
  deriving DecidableEq, Repr

namespace Bracket

def closing : Bracket → Char
  | list => ']'
  | object => '\x7d'

def expectedEnd : Bracket → Cause
  | list => .expectedListEnd
  | object => .expectedObjectEnd

def atEnd : Bracket → Cause
  | list => .endInList
  | object => .endInObject

end Bracket

def skipWord : List Char → Cursor → Except Failure Cursor
  | [], c => .ok c
  | l :: ls, c =>
    match c.peek? with
    | none => c.failHere .endInValue
    | some ch => if ch = l then skipWord ls c.next else c.failAhead .expectedIdent

def skipColon (c : Cursor) : Except Failure Cursor :=
  let c := c.skipBlanks
  match c.peek? with
  | some ':' => .ok c.next
  | some _ => c.failAhead .expectedColon
  | none => c.failHere .endInObject

/-- Past what begins a value: all of it, or the bracket that opens it. -/
def skipHead (more : Nat) (c : Cursor) : Except Failure (Option Bracket × Cursor) :=
  match c.peek? with
  | none => c.failHere .endInValue
  | some 'n' => (skipWord ['u', 'l', 'l'] c.next).map (none, ·)
  | some 't' => (skipWord ['r', 'u', 'e'] c.next).map (none, ·)
  | some 'f' => (skipWord ['a', 'l', 's', 'e'] c.next).map (none, ·)
  | some '-' => (skipNumber c.next).map (none, ·)
  | some '"' => (skipString more c.next).map (none, ·)
  | some '[' => .ok (some .list, c.next)
  | some '\x7b' => .ok (some .object, c.next)
  | some ch => if ch.isDigit then (skipNumber c).map (none, ·) else c.failAhead .expectedValue

def skipKey (more : Nat) (c : Cursor) : Except Failure Cursor :=
  let c := c.skipBlanks
  match c.peek? with
  | some '"' =>
    match skipString more c.next with
    | .error e => .error e
    | .ok c => skipColon c
  | some _ => c.failAhead .keyMustBeString
  | none => c.failHere .endInObject

/-- Past closing brackets, up to where the next value of an open bracket begins. `comma` tells
whether a value stands before this place, so that a comma must come first. -/
def skipClosings : Nat → Bool → List Bracket → Cursor →
    Except Failure (List Bracket × Cursor)
  | _, _, [], c => .ok ([], c)
  | 0, _, b :: _, c => c.failHere b.atEnd
  | fuel + 1, comma, b :: stack, c =>
    let c := c.skipBlanks
    match c.peek? with
    | none => c.failHere b.atEnd
    | some ch =>
      if ch = ',' && comma then .ok (b :: stack, c.next)
      else if ch = b.closing then skipClosings fuel true stack c.next
      else if comma then c.failAhead b.expectedEnd
      else .ok (b :: stack, c)

/-- Past a value and all that is open around it. -/
def skipFrom (more : Nat) : Nat → List Bracket → Cursor → Except Failure Cursor
  | 0, _, c => c.failHere .endInValue
  | fuel + 1, stack, c => do
    let (opened, c) ← skipHead more c.skipBlanks
    let (stack, c) ← skipClosings more opened.isNone (opened.toList ++ stack) c
    match stack with
    | [] => pure c
    | .list :: _ => skipFrom more fuel stack c
    | .object :: _ =>
      let c ← skipKey more c
      skipFrom more fuel stack c

def skipValue (more : Nat) (c : Cursor) : Except Failure Cursor := skipFrom more more [] c

end TypedDecl.Json
