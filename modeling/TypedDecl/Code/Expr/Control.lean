import TypedDecl.Code.Pattern.Parser

namespace TypedDecl.Code.Parser

def startsExpr (ts : List Token) : Bool :=
  (anyWord? ts).isSome && !startsWord "as" ts ||
    starting .paren ts || starting .bracket ts || starting .brace ts || startsLiteral ts ||
    starts ['!'] ts && !starts ['!', '='] ts ||
    starts ['-'] ts && !starts ['-', '='] ts && !starts arrow ts ||
    starts ['*'] ts && !starts ['*', '='] ts ||
    starts ['|'] ts && !starts ['|', '='] ts ||
    starts ['&'] ts && !starts ['&', '='] ts ||
    starts ['.', '.'] ts || startsAngle ts || starts colons ts || startsLifetime ts ||
    starts ['#'] ts

def startsPoint (ts : List Token) : Bool := starts ['.'] ts && !starts ['.', '.'] ts

/-- Whether the words that bind parameters begin a closure here, and not a loop. -/
def startsBoundClosure (ts : List Token) : Bool :=
  startsWord "for" ts && starts ['<'] (ts.drop 1) &&
    (startsLifetime (ts.drop 2) || starts ['>'] (ts.drop 2))

def startsClosure (ts : List Token) : Bool :=
  starts ['|'] ts || startsWord "move" ts || startsBoundClosure ts ||
    startsWord "const" ts && !starting .brace (ts.drop 1) || startsWord "static" ts ||
    startsWord "async" ts && (starts ['|'] (ts.drop 1) || startsWord "move" (ts.drop 1))

def startsAsyncBlock (ts : List Token) : Bool :=
  startsWord "async" ts &&
    (starting .brace (ts.drop 1) || startsWord "move" (ts.drop 1) && starting .brace (ts.drop 2))

/-- Whether a block or control flow begins here that can be a whole statement. -/
def startsStatementLike (ts : List Token) : Bool :=
  ["if", "while", "loop", "match", "unsafe"].any (startsWord · ts) ||
    startsWord "for" ts && !startsBoundClosure ts ||
    startsWord "try" ts && starting .brace (ts.drop 1) ||
    startsWord "const" ts && starting .brace (ts.drop 1) ||
    starting .brace ts || startsLifetime ts

/-- What a branch, a loop or a choice depends on. -/
def condition (g : Grammar) : Parser Expr := g.expr false 0

/-- A branch, from its first word on. The first argument bounds how many follow each other. -/
def branch (g : Grammar) : Nat → Parser Expr
  | 0, _ => none
  | more + 1, ts => do
    let ts ← word? "if" ts
    let (c, ts) ← condition g ts
    let (body, ts) ← g.block false ts
    match word? "else" ts with
    | none => pure (.branch c body none, ts)
    | some ts => do
      let (other, ts) ←
        if startsWord "if" ts then branch g more ts
        else (g.block false ts).map fun (b, ts) => (.block none .plain b, ts)
      pure (.branch c body (some other), ts)

def whileLoop (g : Grammar) (label : Option Ident) : Parser Expr := fun ts => do
  let ts ← word? "while" ts
  let (c, ts) ← condition g ts
  let (body, ts) ← g.block true ts
  pure (.whileLoop label c body, ts)

def forLoop (g : Grammar) (label : Option Ident) : Parser Expr := fun ts => do
  let ts ← word? "for" ts
  let (p, ts) ← anyPat g ts
  let ts ← word? "in" ts
  let (source, ts) ← condition g ts
  let (body, ts) ← g.block true ts
  pure (.forLoop label p source body, ts)

def endlessLoop (g : Grammar) (label : Option Ident) : Parser Expr := fun ts => do
  let ts ← word? "loop" ts
  let (body, ts) ← g.block true ts
  pure (.endlessLoop label body, ts)

def blockAs (g : Grammar) (kind : BlockKind) (inner : Bool) : Parser Expr := fun ts =>
  (g.block inner ts).map fun (b, ts) => (.block none kind b, ts)

def asyncBlock (g : Grammar) : Parser Expr := fun ts => do
  let ts ← word? "async" ts
  let (moving, ts) := markWord "move" ts
  blockAs g (.async moving) false ts

/-- A loop or a block with a label. -/
def labelled (g : Grammar) : Parser Expr := fun ts => do
  let (label, ts) ← lifetime? ts
  let ts ← sign? [':'] ts
  if startsWord "while" ts then whileLoop g (some label) ts
  else if startsWord "for" ts then forLoop g (some label) ts
  else if startsWord "loop" ts then endlessLoop g (some label) ts
  else
    let (b, ts) ← g.block true ts
    pure (.block (some label) .plain b, ts)

/-- A condition that binds. The value ends where two conditions are joined. -/
def binds (g : Grammar) (free : Bool) : Parser Expr := fun ts => do
  let ts ← word? "let" ts
  let (p, ts) ← anyPat g ts
  let ts ← sign? ['='] ts
  let (value, ts) ← g.expr free Strength.comparing ts
  pure (.binds p value, ts)

/-- The value that a jump takes along, if one stands here. -/
def jumpValue (g : Grammar) (free : Bool) : Parser (Option Expr) := fun ts =>
  optional (startsExpr ts && (free || !starting .brace ts)) g.value ts

/-- Words that leave a loop or a block. A label that begins a value needs parentheses. -/
def breaking (g : Grammar) (free : Bool) : Parser Expr := fun ts => do
  let ts ← word? "break" ts
  let (label, ts) ← optional (startsLifetime ts) lifetime? ts
  if label.isSome && starts [':'] ts then failure
  let (value, ts) ← jumpValue g free ts
  pure (.jump .breaking label value, ts)

def continuing : Parser Expr := fun ts => do
  let ts ← word? "continue" ts
  let (label, ts) ← optional (startsLifetime ts) lifetime? ts
  pure (.jump .continuing label none, ts)

/-- A jump that has no label, from its word on. -/
def jumping (g : Grammar) (kind : Jump) : Parser Expr := fun ts => do
  let ts ← word? kind.text ts
  let (value, ts) ← jumpValue g true ts
  pure (.jump kind none value, ts)

def input (g : Grammar) : Parser Input := fun ts => do
  let (attributes, ts) ← outerAttributes g ts
  let (p, ts) ← g.pat ts
  let (t, ts) ← after? [':'] (g.ty true) ts
  pure (⟨attributes, p, t⟩, ts)

/-- A closure. One that tells what it gives has a block as its body. -/
def closure (g : Grammar) (free : Bool) : Parser Expr := fun ts => do
  let (binder, ts) ← binder? g ts
  let (constant, ts) := markWord "const" ts
  let (pinned, ts) := markWord "static" ts
  let (async, ts) := markWord "async" ts
  let (moving, ts) := markWord "move" ts
  let ts ← sign? ['|'] ts
  let ((inputs, trailing), ts) ← separated (input g) [','] (starts ['|']) g.more ts
  let ts ← sign? ['|'] ts
  let (out, ts) ← output g true ts
  let (body, ts) ← if out.isSome then blockAs g .plain false ts else g.expr free 0 ts
  pure (.closure ⟨binder, constant, pinned, async, moving, inputs, trailing, out⟩ body, ts)

/-- An arm. It ends with a comma unless it is the last or its body ends it. -/
def arm (g : Grammar) : Parser Arm := fun ts => do
  let (attributes, ts) ← outerAttributes g ts
  let (p, ts) ← anyPat g ts
  let (guard, ts) ← afterWord? "if" g.value ts
  let ts ← sign? ['=', '>'] ts
  let (body, ts) ← g.early ts
  let (comma, ts) := mark [','] ts
  if !comma && !body.endsItself && !ends ts then failure
  pure (.mk attributes p guard body comma, ts)

def choice (g : Grammar) : Parser Expr := fun ts => do
  let ts ← word? "match" ts
  let (subject, ts) ← condition g ts
  let content : Parser (List Attribute × List Arm) := fun ts => do
    let (inner, ts) ← innerAttributes g ts
    let (arms, ts) ← all (arm g) g.more ts
    pure ((inner, arms), ts)
  let ((inner, arms), ts) ← grouped .brace content ts
  pure (.choice subject inner arms, ts)

end TypedDecl.Code.Parser
