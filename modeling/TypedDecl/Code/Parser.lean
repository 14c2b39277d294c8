import TypedDecl.Code.Keyword
import TypedDecl.Code.MacroCall

namespace TypedDecl.Code

abbrev Parser (α : Type) := List Token → Option (α × List Token)

namespace Parser

/-- Drops an operator. All of its characters but the last must be joined to the next; the last may
be joined to what follows. -/
def sign? : List Char → List Token → Option (List Token)
  | [], ts => some ts
  | [c], .punct d _ :: ts => if c = d then some ts else none
  | c :: cs, .punct d true :: ts => if c = d then sign? cs ts else none
  | _, _ => none

def colons : List Char := [':', ':']
def arrow : List Char := ['-', '>']

def starts (cs : List Char) (ts : List Token) : Bool := (sign? cs ts).isSome

def mark (cs : List Char) (ts : List Token) : Bool × List Token :=
  match sign? cs ts with
  | some ts => (true, ts)
  | none => (false, ts)

def startsWord (w : String) : List Token → Bool
  | .ident i :: _ => i = Ident.plain w
  | _ => false

def word? (w : String) : List Token → Option (List Token)
  | .ident i :: ts => if i = Ident.plain w then some ts else none
  | _ => none

def markWord (w : String) (ts : List Token) : Bool × List Token :=
  match word? w ts with
  | some ts => (true, ts)
  | none => (false, ts)

def name? : Parser Ident
  | .ident i :: ts => if i.isName then some (i, ts) else none
  | _ => none

def startsName (ts : List Token) : Bool := (name? ts).isSome

def anyWord? : Parser Ident
  | .ident i :: ts => some (i, ts)
  | _ => none

def lifetime? : Parser Ident
  | .punct '\'' true :: .ident i :: ts => some (i, ts)
  | _ => none

def startsLifetime (ts : List Token) : Bool := (lifetime? ts).isSome

def starting (d : Delim) : List Token → Bool
  | .opening e :: _ => d = e
  | _ => false

def opening? (d : Delim) : List Token → Option (List Token)
  | .opening e :: ts => if d = e then some ts else none
  | _ => none

def closing? (d : Delim) : List Token → Option (List Token)
  | .closing e :: ts => if d = e then some ts else none
  | _ => none

/-- Whether the row, or the group it is in, ends here. -/
def ends : List Token → Bool
  | [] => true
  | .closing _ :: _ => true
  | _ => false

/-- Items with a sign between them, up to where `stop` holds; the sign may also stand after the
last item, which the answer tells. The first argument bounds the number of items. -/
def separated {α : Type} (item : Parser α) (sign : List Char) (stop : List Token → Bool) :
    Nat → List Token → Option ((List α × Bool) × List Token)
  | 0, _ => none
  | fuel + 1, ts =>
    if stop ts then some (([], false), ts)
    else
      match item ts with
      | none => none
      | some (a, ts) =>
        if stop ts then some (([a], false), ts)
        else
          match sign? sign ts with
          | none => none
          | some ts =>
            if stop ts then some (([a], true), ts)
            else (separated item sign stop fuel ts).map fun ((as, trailing), ts) =>
              ((a :: as, trailing), ts)

/-- Items with commas between them, up to the end of the group. `more` bounds their number. -/
def commas {α : Type} (item : Parser α) (more : Nat) : Parser (List α × Bool) :=
  separated item [','] ends more

def grouped {α : Type} (d : Delim) (content : Parser α) : Parser α := fun ts =>
  match opening? d ts with
  | none => none
  | some ts =>
    match content ts with
    | none => none
    | some (a, ts) => (closing? d ts).map (a, ·)

def all? {α : Type} (item : Parser α) (ts : List Token) : Option α :=
  match item ts with
  | some (a, []) => some a
  | _ => none

/-- Items as long as one begins here. The last argument bounds their number. -/
def many {α : Type} (begins : List Token → Bool) (item : Parser α) : Nat → Parser (List α)
  | 0, _ => none
  | more + 1, ts =>
    if begins ts then do
      let (a, ts) ← item ts
      let (as, ts) ← many begins item more ts
      pure (a :: as, ts)
    else some ([], ts)

def all {α : Type} (item : Parser α) (more : Nat) : Parser (List α) :=
  many (fun ts => !ends ts) item more

/-- Items with plus signs between them, up to where `stop` holds or no sign follows. -/
def plussed {α : Type} (item : Parser α) (stop : List Token → Bool) :
    Nat → Parser (List α × Bool)
  | 0, _ => none
  | more + 1, ts =>
    if stop ts then some (([], false), ts)
    else do
      let (a, ts) ← item ts
      match sign? ['+'] ts with
      | none => pure (([a], false), ts)
      | some ts =>
        if stop ts then pure (([a], true), ts)
        else do
          let ((as, trailing), ts) ← plussed item stop more ts
          pure ((a :: as, trailing), ts)

/-- What a reader makes of a row, if it may try, and else nothing. -/
def optional {α : Type} (here : Bool) (item : Parser α) : Parser (Option α) := fun ts =>
  if here then (item ts).map fun (a, ts) => (some a, ts) else some (none, ts)

def after? {α : Type} (cs : List Char) (item : Parser α) : Parser (Option α) := fun ts =>
  match sign? cs ts with
  | some ts => (item ts).map fun (a, ts) => (some a, ts)
  | none => some (none, ts)

def afterWord? {α : Type} (w : String) (item : Parser α) : Parser (Option α) := fun ts =>
  match word? w ts with
  | some ts => (item ts).map fun (a, ts) => (some a, ts)
  | none => some (none, ts)

def taken (ts rest : List Token) : List Token := ts.take (ts.length - rest.length)

/-- The row that was taken off a row, given what is left of it. -/
def takenRow? (ts rest : List Token) : Option (Row × List Token) :=
  (Row.of? (taken ts rest)).map (·, rest)

/-- The number of the tokens of the group that begins the row, its delimiters included. -/
def groupLength : Nat → List Token → Nat
  | _, [] => 0
  | depth, .opening _ :: ts => groupLength (depth + 1) ts + 1
  | depth, .closing _ :: ts => if depth ≤ 1 then 1 else groupLength (depth - 1) ts + 1
  | depth, _ :: ts => if depth = 0 then 1 else groupLength depth ts + 1

/-- What follows the first token, lifetime or group. Nothing follows the end. -/
def afterTree : List Token → List Token
  | .closing d :: ts => .closing d :: ts
  | .punct '\'' true :: .ident _ :: ts => ts
  | ts => ts.drop (groupLength 0 ts)

def anyGroup? : Parser (Delim × Row)
  | .opening d :: ts =>
    let length := groupLength 1 ts
    (Row.of? (ts.take (length - 1))).map fun row => ((d, row), ts.drop length)
  | _ => none

/-- A literal, which a minus sign may stand before if it is a number. -/
def literal? : Parser (Bool × String)
  | .literal text :: ts => some ((false, text), ts)
  | .punct '-' _ :: .literal text :: ts =>
    if Literal.isNumber text then some ((true, text), ts) else none
  | .ident ⟨false, "true"⟩ :: ts => some ((false, "true"), ts)
  | .ident ⟨false, "false"⟩ :: ts => some ((false, "false"), ts)
  | _ => none

def startsLiteral (ts : List Token) : Bool := (literal? ts).isSome

def text? : Parser String
  | .literal text :: ts => if Literal.isText text then some (text, ts) else none
  | _ => none

/-- Whether a word stands for a place in the module tree. -/
def isRoot (i : Ident) : Bool :=
  ["super", "self", "Self", "crate"].any fun w => i = Ident.plain w

/-- Whether a word other than a name stands here that a path can begin with. -/
def startsRoot : List Token → Bool
  | .ident i :: _ => isRoot i
  | _ => false

def pathName? : Parser Ident := fun ts =>
  if startsRoot ts then anyWord? ts else name? ts

def pathNames : Parser (List Ident)
  | .ident i :: .punct ':' true :: .punct ':' _ :: ts =>
    if isRoot i || i.isName then
      (pathNames ts).map fun (is, ts) => (i :: is, ts)
    else none
  | .ident i :: ts => if isRoot i || i.isName then some ([i], ts) else none
  | _ => none

def plainPath? : Parser PlainPath := fun ts =>
  let (global, ts) := mark colons ts
  (pathNames ts).map fun (names, ts) => (⟨global, names⟩, ts)

/-- Whether the exclamation mark of a macro stands here. -/
def startsMacro (ts : List Token) : Bool := starts ['!'] ts && !starts ['!', '='] ts

def macroArgs (path : PlainPath) : Parser MacroCall := fun ts => do
  let ts ← sign? ['!'] ts
  let ((delim, content), ts) ← anyGroup? ts
  pure (⟨path, delim, content⟩, ts)

end Parser

end TypedDecl.Code
