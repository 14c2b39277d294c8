import TypedDecl.Text.Quoted
import TypedDecl.Toml.Value

namespace TypedDecl.Toml

open TypedDecl.Text.Quoted (hexValue? charOfCode?)

def hexNumber? (ds : List Char) : Option Nat :=
  ds.foldlM (fun n d => (hexValue? d).map (n * 16 + ·)) 0

/-- A character by a number of so many digits. -/
def codeEscape (count : Nat) : Parser Char := fun cs =>
  let digits := cs.take count
  if digits.length ≠ count then none
  else ((hexNumber? digits).bind charOfCode?).map (·, cs.drop count)

def escape : Parser Char
  | 'b' :: cs => some ('\x08', cs)
  | 't' :: cs => some ('\t', cs)
  | 'n' :: cs => some ('\n', cs)
  | 'f' :: cs => some ('\x0c', cs)
  | 'r' :: cs => some ('\r', cs)
  | '"' :: cs => some ('"', cs)
  | '\\' :: cs => some ('\\', cs)
  | 'u' :: cs => codeEscape 4 cs
  | 'U' :: cs => codeEscape 8 cs
  | _ => none

/-- A string with escapes, from behind its quote. -/
def quotedBody : Nat → Parser (List Char)
  | 0, _ => none
  | fuel + 1, cs =>
    match cs with
    | [] => none
    | '"' :: cs => some ([], cs)
    | '\\' :: cs =>
      match escape cs with
      | none => none
      | some (c, cs) => (quotedBody fuel cs).map fun (t, cs) => (c :: t, cs)
    | c :: cs =>
      if isPlain c then (quotedBody fuel cs).map fun (t, cs) => (c :: t, cs) else none

def literalBody : Parser (List Char) := fun cs =>
  match cs.dropWhile fun c => isPlain c && c ≠ '\'' with
  | '\'' :: rest => some (cs.takeWhile fun c => isPlain c && c ≠ '\'', rest)
  | _ => none

/-- The end of a string between triple marks, from its first mark on: up to two marks before the
last three belong to the string. Marks that are no end are part of the string. -/
def marks (mark : Char) (cs : List Char) : (List Char × Bool) × List Char :=
  let count := (cs.takeWhile (· = mark)).length
  if count < 3 then ((List.replicate count mark, false), cs.drop count)
  else ((List.replicate (min (count - 3) 2) mark, true), cs.drop (min count 5))

/-- Past blanks and line ends. The first argument bounds their number. -/
def skipFolded : Nat → List Char → List Char
  | 0, cs => cs
  | fuel + 1, cs =>
    match cs with
    | '\r' :: '\n' :: cs => skipFolded fuel cs
    | '\n' :: cs => skipFolded fuel cs
    | c :: cs => if isBlank c then skipFolded fuel cs else c :: cs
    | [] => []

/-- A string on several lines, from behind its marks; `escapes` tells whether it has escapes. -/
def linesBody (mark : Char) (escapes : Bool) : Nat → Parser (List Char)
  | 0, _ => none
  | fuel + 1, cs =>
    match cs with
    | [] => none
    | c :: rest =>
      if c = mark then
        let ((t, ended), rest) := marks mark cs
        if ended then some (t, rest)
        else (linesBody mark escapes fuel rest).map fun (u, cs) => (t ++ u, cs)
      else if c = '\\' && escapes then
        match newline? (skipBlanks rest) with
        | some rest => linesBody mark escapes fuel (skipFolded rest.length rest)
        | none =>
          match escape rest with
          | none => none
          | some (c, rest) => (linesBody mark escapes fuel rest).map fun (u, cs) => (c :: u, cs)
      else
        match newline? cs with
        | some rest => (linesBody mark escapes fuel rest).map fun (u, cs) => ('\n' :: u, cs)
        | none =>
          if isPlain c then (linesBody mark escapes fuel rest).map fun (u, cs) => (c :: u, cs)
          else none

/-- The rest of a string on several lines. A line end right behind the marks does not count. -/
def multiline (mark : Char) (escapes : Bool) : Parser (List Char) := fun cs =>
  let cs := (newline? cs).getD cs
  linesBody mark escapes (cs.length + 1) cs

def lineText : Parser String
  | '"' :: cs => (quotedBody (cs.length + 1) cs).map fun (t, cs) => (String.ofList t, cs)
  | '\'' :: cs => (literalBody cs).map fun (t, cs) => (String.ofList t, cs)
  | _ => none

def text : Parser String
  | '"' :: '"' :: '"' :: cs => (multiline '"' true cs).map fun (t, cs) => (String.ofList t, cs)
  | '\'' :: '\'' :: '\'' :: cs =>
    (multiline '\'' false cs).map fun (t, cs) => (String.ofList t, cs)
  | cs => lineText cs

end TypedDecl.Toml
