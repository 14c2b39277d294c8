import TypedDecl.Code.Expr.Parser

namespace TypedDecl.Code

namespace Stmt

/-- Whether nothing but the end of the block may follow. -/
def isOpen : Stmt → Bool
  | expr value closed => !closed && !value.closesStatement
  | macroCall _ call closed => !closed && !call.inBraces
  | _ => false

end Stmt

namespace Parser

/-- Whether a static item begins here, and not a closure. -/
def startsStatic (ts : List Token) : Bool :=
  startsWord "static" ts && (startsWord "mut" (ts.drop 1) || startsName (ts.drop 1))

/-- Whether the second word makes a function of an asynchronous piece of code. -/
def startsAsyncItem (ts : List Token) : Bool :=
  startsWord "async" ts && startsFunction (ts.drop 1)

/-- Whether a constant item begins here, and not a block or a closure. -/
def startsConstItem (ts : List Token) : Bool :=
  let rest := ts.drop 1
  startsWord "const" ts &&
    !(starting .brace rest || startsWord "static" rest ||
      startsWord "async" rest && !startsAsyncItem rest ||
      startsWord "move" rest || starts ['|'] rest)

def startsItem (ts : List Token) : Bool :=
  let rest := ts.drop 1
  ["pub", "extern", "use", "fn", "mod", "type", "struct", "enum", "trait", "impl", "macro"].any
      (startsWord · ts) ||
    startsWord "crate" ts && !starts colons rest || startsStatic ts || startsConstItem ts ||
    startsWord "unsafe" ts && !starting .brace rest || startsAsyncItem ts ||
    startsWord "union" ts && startsName rest || startsWord "auto" ts && startsWord "trait" rest ||
    startsWord "default" ts && (startsWord "unsafe" rest || startsWord "impl" rest)

/-- The call of a macro that is a whole statement: it stands in braces, and nothing is selected from
it. -/
def macroStatement? (attributes : List Attribute) (ts : List Token) :
    Option (Stmt × List Token) := do
  let (p, ts) ← plainPath? ts
  let (call, ts) ← macroArgs p ts
  if !call.inBraces || startsPoint ts || starts ['?'] ts then failure
  let (closed, ts) := mark [';'] ts
  pure (.macroCall attributes call closed, ts)

/-- Whether a macro that defines a name is called here. -/
def startsMacroItem (ts : List Token) : Bool :=
  match plainPath? ts with
  | some (_, rest) =>
    starts ['!'] rest && (startsName (rest.drop 1) || startsWord "try" (rest.drop 1))
  | none => false

/-- The value of a binding, from its equals sign on, and the block that runs where the value does
not fit. A value that ends with a brace cannot be followed by one. -/
def bindValue (g : Grammar) : Parser (Option Expr × Option Block) := fun ts =>
  match sign? ['='] ts with
  | none => some ((none, none), ts)
  | some ts => do
    let (value, rest) ← g.value ts
    match word? "else" rest with
    | none => pure ((some value, none), rest)
    | some body => do
      if (taken ts rest).getLast? = some (.closing .brace) then failure
      let (other, rest) ← g.block false body
      pure ((some value, some other), rest)

def bind (g : Grammar) (attributes : List Attribute) : Parser Stmt := fun ts => do
  let ts ← word? "let" ts
  let (p, ts) ← g.pat ts
  let (t, ts) ← after? [':'] (g.ty true) ts
  let ((value, other), ts) ← bindValue g ts
  let ts ← sign? [';'] ts
  pure (.bind attributes p t value other, ts)

/-- An expression as a statement. The call of a macro that a semicolon or a brace ends is a
statement of its own. -/
def exprStatement (g : Grammar) (attributes : List Attribute) : Parser Stmt := fun ts => do
  let (e, ts) ← g.early ts
  let e := e.attach attributes
  let (closed, ts) := mark [';'] ts
  match e.bare with
  | .macroCall call =>
    pure (if closed || call.inBraces then .macroCall e.attributes call closed else .expr e closed,
      ts)
  | _ => pure (.expr e closed, ts)

def statement (g : Grammar) : Parser Stmt := fun ts => do
  let (attributes, rest) ← outerAttributes g ts
  match macroStatement? attributes rest with
  | some found => pure found
  | none =>
    if startsWord "let" rest then bind g attributes rest
    else if startsItem rest || startsMacroItem rest then do
      let (_, rest) ← g.item ts
      pure (.item (taken ts rest), rest)
    else exprStatement g attributes rest

/-- The statements of a block, up to its end. The first argument bounds their number. -/
def statements (g : Grammar) : Nat → Parser (List Stmt)
  | 0, _ => none
  | more + 1, ts =>
    if ends ts then some ([], ts)
    else do
      let (s, ts) ← match sign? [';'] ts with
        | some ts => some (.empty, ts)
        | none => statement g ts
      if s.isOpen && !ends ts then failure
      let (ss, ts) ← statements g more ts
      pure (s :: ss, ts)

/-- A block, which inner attributes can begin if so told. -/
def block (g : Grammar) (inner : Bool) : Parser Block :=
  grouped .brace fun ts => do
    let (attributes, ts) ← if inner then innerAttributes g ts else some ([], ts)
    let (body, ts) ← statements g g.more ts
    pure (.mk attributes body, ts)

end Parser

end TypedDecl.Code
