import TypedDecl.Toml.Number
import TypedDecl.Toml.Table
import TypedDecl.Toml.Text

namespace TypedDecl.Toml

def nestingLimit : Nat := 79

def isBare (c : Char) : Bool := c.isAlphanum || c = '-' || c = '_'

def keyPart : Parser String := fun cs =>
  match cs with
  | '"' :: _ | '\'' :: _ => lineText cs
  | cs =>
    let name := cs.takeWhile isBare
    if name.isEmpty then none else some (String.ofList name, cs.dropWhile isBare)

def keyParts : Nat → Parser (List String)
  | 0, _ => none
  | more + 1, cs =>
    match keyPart (skipBlanks cs) with
    | none => none
    | some (k, cs) =>
      match skipBlanks cs with
      | '.' :: cs => (keyParts more cs).map fun (ks, cs) => (k :: ks, cs)
      | cs => some ([k], cs)

def key : Parser (List String × String) := fun cs =>
  match keyParts nestingLimit cs with
  | none => none
  | some (ks, cs) => (ks.getLast?).map fun k => ((ks.dropLast, k), cs)

def keyValue (value : Parser Value) : Parser ((List String × String) × Value) := fun cs =>
  match key cs with
  | some (k, '=' :: cs) => (value (skipBlanks cs)).map fun (v, cs) => ((k, v), cs)
  | _ => none

/-- The values of a list, from behind its bracket. A comma may also follow the last one. -/
def listItems (value : Parser Value) : Nat → Parser (List Value)
  | 0, _ => none
  | fuel + 1, cs =>
    match skipAll cs with
    | none => none
    | some (']' :: cs) => some ([], cs)
    | some cs =>
      match value cs with
      | none => none
      | some (v, cs) =>
        match skipAll cs with
        | some (',' :: cs) => (listItems value fuel cs).map fun (vs, cs) => (v :: vs, cs)
        | some (']' :: cs) => some ([v], cs)
        | _ => none

def inlineEntries (value : Parser Value) : Nat → Table → Parser Table
  | 0, _, _ => none
  | fuel + 1, t, cs =>
    match keyValue value cs with
    | none => none
    | some (((ks, k), v), cs) =>
      match t.addDotted ks k (.value v) with
      | none => none
      | some t =>
        match skipBlanks cs with
        | ',' :: cs => inlineEntries value fuel t cs
        | '\x7d' :: cs => some (t, cs)
        | _ => none

def inlineTable (value : Parser Value) : Parser Value := fun cs =>
  match skipBlanks cs with
  | '\x7d' :: cs => some (.table [], cs)
  | cs => (inlineEntries value (cs.length + 1) .empty cs).map fun (t, cs) => (t.toValue, cs)

/-- A value that is no list and no table. -/
def plainValue : Parser Value := fun cs =>
  match cs with
  | '"' :: _ | '\'' :: _ => (text cs).map fun (s, cs) => (.text s, cs)
  | '+' :: cs => signedValue false cs
  | '-' :: cs => signedValue true cs
  | 't' :: 'r' :: 'u' :: 'e' :: cs => some (.bool true, cs)
  | 'f' :: 'a' :: 'l' :: 's' :: 'e' :: cs => some (.bool false, cs)
  | c :: _ => if c.isDigit then digitValue cs else special cs
  | [] => none

/-- A value in which lists and tables are at most so deep. -/
def value : Nat → Parser Value
  | 0, cs =>
    match cs with
    | '[' :: _ | '\x7b' :: _ => none
    | cs => plainValue cs
  | depth + 1, cs =>
    match cs with
    | '[' :: cs => (listItems (value depth) (cs.length + 1) cs).map fun (vs, cs) => (.list vs, cs)
    | '\x7b' :: cs => inlineTable (value depth) cs
    | cs => plainValue cs

/-- A document as far as it was read: its tables, and the keys of the header that is in force. -/
structure Document where
  root : Table
  header : List String

namespace Document

def empty : Document := ⟨.empty, []⟩

def add (d : Document) (keys : List String) (key : String) (v : Value) : Option Document :=
  (d.root.modifyAt false (Table.addDotted keys key (.value v)) d.header).map fun t =>
    { d with root := t }

def define (d : Document) (keys : List String) (key : String) : Option Document :=
  (d.root.modifyAt false (Table.define key) keys).map fun t => ⟨t, keys ++ [key]⟩

def append (d : Document) (keys : List String) (key : String) : Option Document :=
  (d.root.modifyAt false (Table.append key) keys).map fun t => ⟨t, keys ++ [key]⟩

end Document

/-- A line with a header or an entry, and the document after it. -/
def line (d : Document) : Parser Document := fun cs =>
  match cs with
  | '[' :: '[' :: cs =>
    match key cs with
    | some ((ks, k), ']' :: ']' :: cs) => do
      let cs ← lineEnd? cs
      let d ← d.append ks k
      pure (d, cs)
    | _ => none
  | '[' :: cs =>
    match key cs with
    | some ((ks, k), ']' :: cs) => do
      let cs ← lineEnd? cs
      let d ← d.define ks k
      pure (d, cs)
    | _ => none
  | cs => do
    let (((ks, k), v), cs) ← keyValue (value nestingLimit) cs
    let cs ← lineEnd? cs
    let d ← d.add ks k v
    pure (d, cs)

/-- The lines of a document. The first argument bounds their number. -/
def documentLines : Nat → Document → List Char → Option Document
  | 0, _, _ => none
  | fuel + 1, d, cs =>
    match skipAll cs with
    | none => none
    | some [] => some d
    | some cs => (line d cs).bind fun (d, cs) => documentLines fuel d cs

def parse (s : String) : Option (List (String × Value)) :=
  let cs := match s.toList with
    | c :: cs => if c.toNat = 0xfeff then cs else c :: cs
    | [] => []
  (documentLines (cs.length + 1) .empty cs).map fun d => d.root.entries

end TypedDecl.Toml
