import TypedDecl.Code.Literal
import TypedDecl.Code.Token
import TypedDecl.Unicode.Blank

namespace TypedDecl.Code

open TypedDecl.Unicode (isIdentStart isIdentContinue)

namespace Lexer

/-- White space between tokens: the property `White_Space` and the two direction marks. -/
def isSpace (c : Char) : Bool :=
  Unicode.isBlank c || c.toNat = 0x200e || c.toNat = 0x200f

/-- The text of a line comment and what follows it. The line feed, and a carriage return that is
not before a line feed, stay. -/
def lineComment : List Char → List Char × List Char
  | [] => ([], [])
  | '\n' :: cs => ([], '\n' :: cs)
  | '\r' :: '\n' :: cs => ([], '\n' :: cs)
  | c :: cs => let (text, rest) := lineComment cs; (c :: text, rest)

/-- What stands before the end of a block comment, and what follows it. Comments nest; the first
argument counts the open ones. -/
def blockComment? : Nat → List Char → Option (List Char × List Char)
  | _, [] => none
  | depth, '/' :: '*' :: cs => (blockComment? (depth + 1) cs).map fun (t, r) => ('/' :: '*' :: t, r)
  | depth, '*' :: '/' :: cs =>
    if depth ≤ 1 then some ([], cs)
    else (blockComment? (depth - 1) cs).map fun (t, r) => ('*' :: '/' :: t, r)
  | depth, c :: cs => (blockComment? depth cs).map fun (t, r) => (c :: t, r)

/-- Every carriage return stands before a line feed. -/
def returnsEndLines : List Char → Bool
  | [] => true
  | '\r' :: '\n' :: cs => returnsEndLines cs
  | c :: cs => c ≠ '\r' && returnsEndLines cs

/-- The attribute that a documentation comment stands for. -/
def docTokens (inner : Bool) (text : List Char) : List Token :=
  Token.punct '#' false :: (if inner then [Token.punct '!' false] else []) ++
    Token.group .bracket [Token.word "doc", Token.punct '=' false,
      Token.literal (Text.Quoted.quoteGuarded (String.ofList text))]

def docComment? (inner : Bool) (comment : List Char × List Char) :
    Option (List Token × List Char) :=
  if returnsEndLines comment.1 then some (docTokens inner comment.1, comment.2) else none

/-- The comment that begins here: its tokens, which only documentation has, and what follows. -/
def comment? : List Char → Option (List Token × List Char)
  | '/' :: '/' :: '!' :: cs => docComment? true (lineComment cs)
  | '/' :: '/' :: '/' :: '/' :: cs => some ([], (lineComment cs).2)
  | '/' :: '/' :: '/' :: cs => docComment? false (lineComment cs)
  | '/' :: '/' :: cs => some ([], (lineComment cs).2)
  | '/' :: '*' :: '*' :: '/' :: cs => some ([], cs)
  | '/' :: '*' :: '!' :: cs => (blockComment? 1 cs).bind (docComment? true)
  | '/' :: '*' :: '*' :: '*' :: cs => (blockComment? 1 ('*' :: '*' :: cs)).map fun p => ([], p.2)
  | '/' :: '*' :: '*' :: cs => (blockComment? 1 cs).bind (docComment? false)
  | '/' :: '*' :: cs => (blockComment? 1 cs).map fun p => ([], p.2)
  | _ => none

def punctuation : List Char := "~!@#$%^&*-=+|;:,<.>/?'".toList

/-- A character that can be punctuation here: a slash that begins a comment cannot. -/
def punctAt? : List Char → Option Char
  | '/' :: '/' :: _ => none
  | '/' :: '*' :: _ => none
  | c :: _ => if punctuation.contains c then some c else none
  | [] => none

/-- A name, with or without the raw mark. -/
def anyIdent? (cs : List Char) : Option (Ident × List Char) :=
  let (raw, cs) := match cs with
    | 'r' :: '#' :: rest => (true, rest)
    | rest => (false, rest)
  match cs with
  | c :: rest =>
    if isIdentStart c then
      let name := String.ofList (c :: rest.takeWhile isIdentContinue)
      if raw && ["_", "super", "self", "Self", "crate"].contains name then none
      else some (⟨raw, name⟩, rest.dropWhile isIdentContinue)
    else none
  | [] => none

/-- A name, where no literal with a letter before its quote begins. -/
def ident? (cs : List Char) : Option (Ident × List Char) :=
  match cs with
  | 'r' :: '"' :: _ | 'r' :: '#' :: '"' :: _ | 'r' :: '#' :: '#' :: _
  | 'b' :: '"' :: _ | 'b' :: '\'' :: _ | 'b' :: 'r' :: '"' :: _ | 'b' :: 'r' :: '#' :: _
  | 'c' :: '"' :: _ | 'c' :: 'r' :: '"' :: _ | 'c' :: 'r' :: '#' :: _ => none
  | _ => anyIdent? cs

/-- An apostrophe is punctuation only as the start of a lifetime: a name must follow, and no second
apostrophe or, after a plain name, hash mark after that. -/
def startsLifetime (cs : List Char) : Bool :=
  match anyIdent? cs with
  | none => false
  | some (i, rest) =>
    match rest with
    | '\'' :: _ => false
    | '#' :: _ => i.raw
    | _ => true

def punct? (cs : List Char) : Option (Token × List Char) :=
  match punctAt? cs with
  | none => none
  | some c =>
    let rest := cs.drop 1
    if c = '\'' then
      if startsLifetime rest then some (.punct c true, rest) else none
    else some (.punct c (punctAt? rest).isSome, rest)

/-- The mark of a failed reading is one token, with its parentheses. -/
def failureMark : List Char := "(/*ERROR*/)".toList

def failure? (cs : List Char) : Option (Token × List Char) :=
  if failureMark.isPrefixOf cs then
    some (.literal (String.ofList failureMark), cs.drop failureMark.length)
  else none

def leaf? (cs : List Char) : Option (Token × List Char) :=
  match Literal.after? cs with
  | some rest => some (.literal (String.ofList (cs.take (cs.length - rest.length))), rest)
  | none =>
    match punct? cs with
    | some found => some found
    | none =>
      match ident? cs with
      | some (i, rest) => some (.ident i, rest)
      | none => failure? cs

def opening? (cs : List Char) : Option Delim :=
  match cs with
  | '(' :: _ => if failureMark.isPrefixOf cs then none else some .paren
  | '[' :: _ => some .bracket
  | '\x7b' :: _ => some .brace
  | _ => none

def closing? (c : Char) : Option Delim :=
  if c = ')' then some .paren
  else if c = ']' then some .bracket
  else if c = '\x7d' then some .brace
  else none

/-- Reads all tokens. The stack holds the delimiters that are open; each step consumes a character,
so as many steps as there are characters, and one for the end, suffice. -/
def tokens : Nat → List Delim → List Char → Option (List Token)
  | 0, _, _ => none
  | fuel + 1, stack, cs =>
    match cs with
    | [] => if stack.isEmpty then some [] else none
    | c :: rest =>
      if isSpace c then tokens fuel stack rest
      else
        match comment? cs with
        | some (doc, rest) => (tokens fuel stack rest).map (doc ++ ·)
        | none =>
          match opening? cs with
          | some d => (tokens fuel (d :: stack) rest).map (.opening d :: ·)
          | none =>
            match closing? c with
            | some d =>
              match stack with
              | top :: stack =>
                if top = d then (tokens fuel stack rest).map (.closing d :: ·) else none
              | [] => none
            | none =>
              match leaf? cs with
              | some (t, rest) => (tokens fuel stack rest).map (t :: ·)
              | none => none

/-- A byte order mark may stand before everything else. -/
def dropMark : List Char → List Char
  | c :: cs => if c.toNat = 0xfeff then cs else c :: cs
  | [] => []

end Lexer

def Token.read? (s : String) : Option (List Token) :=
  let cs := Lexer.dropMark s.toList
  Lexer.tokens (cs.length + 1) [] cs

end TypedDecl.Code
