import TypedDecl.Code.Expr.Control

namespace TypedDecl.Code

namespace Expr

def isComparison (e : Expr) : Bool :=
  match e.bare with
  | binary op _ _ => Operator.strength op = Strength.comparing
  | _ => false

def isRange (e : Expr) : Bool :=
  match e.bare with
  | range .. => true
  | _ => false

end Expr

namespace Parser

/-- Whether a half-open range has no end here. A brace ends it where no structure can stand. -/
def endsHalfOpen (free : Bool) (ts : List Token) : Bool :=
  ends ts || starts [','] ts || starts [';'] ts || startsPoint ts || starts ['?'] ts ||
    !free && starting .brace ts || starts ['='] ts || starts ['+'] ts || starts ['/'] ts ||
    starts ['%'] ts || starts ['^'] ts || starts ['>'] ts || starts ['<', '='] ts ||
    starts ['!', '='] ts || starts ['-', '='] ts || starts ['*', '='] ts ||
    starts ['&', '='] ts || starts ['|', '='] ts || starts ['<', '<', '='] ts ||
    startsWord "as" ts

/-- What follows the start of a range, from its sign on. -/
def rangeRest (g : Grammar) (free : Bool) (first : Option Expr) : Parser Expr := fun ts => do
  if starts dots ts then failure
  let ts ← sign? ['.', '.'] ts
  let (closed, ts) := mark ['='] ts
  let (last, ts) ←
    optional (closed || !endsHalfOpen free ts) (g.expr free (Strength.ranging + 1)) ts
  pure (.range first closed last, ts)

/-- Whether nothing stands here that would select something from a cast. -/
def endsCast (ts : List Token) : Bool :=
  !(startsPoint ts || starts ['?'] ts || starting .bracket ts || starting .paren ts)

/-- How tightly the right operand of an operator binds; assignments nest to the right. -/
def rightStrength (strength : Nat) : Nat :=
  if strength = Strength.assigning then strength else strength + 1

/-- Goes on with operators after a left operand. The number bounds how many there are. -/
def operations (g : Grammar) (free : Bool) (least : Nat) : Nat → Expr → Parser Expr
  | 0, _, _ => none
  | more + 1, left, ts =>
    if left.isRange then some (left, ts)
    else
      match Operator.all.find? (starts · ts) with
      | some op =>
        let strength := Operator.strength op
        if strength < least then some (left, ts)
        else if strength = Strength.comparing && left.isComparison then none
        else do
          let ts ← sign? op ts
          let (right, ts) ← g.expr free (rightStrength strength) ts
          operations g free least more (.binary op left right) ts
      | none =>
        if least ≤ Strength.assigning && starts ['='] ts && !starts ['=', '>'] ts then do
          let (right, ts) ← g.expr free (rightStrength Strength.assigning) (ts.drop 1)
          operations g free least more (.assign left right) ts
        else if least ≤ Strength.ranging && starts ['.', '.'] ts then do
          let (e, ts) ← rangeRest g free (some left) ts
          operations g free least more e ts
        else if startsWord "as" ts then do
          let (t, ts) ← g.ty false (ts.drop 1)
          if endsCast ts then operations g free least more (.cast left t) ts else failure
        else some (left, ts)

/-- The numbers of fields that a literal with points stands for, and whether a point ends it. -/
def indices? (text : String) : Option (List Nat × Bool) := do
  let parts := text.splitOn "."
  let pointed := parts.getLast? = some ""
  let numbers ← (if pointed then parts.dropLast else parts).mapM fun part =>
    match fieldName? [.literal part] with
    | some (.index n, _) => some n
    | _ => none
  pure (numbers, pointed)

def callOperands (g : Grammar) : Parser (List Expr × Bool) :=
  grouped .paren (commas g.value g.more)

def memberOf (g : Grammar) (e : Expr) : Parser Expr := fun ts => do
  let (m, rest) ← fieldName? ts
  match m with
  | .index _ => pure (.field e m, rest)
  | .name i =>
    if starts colons rest || starting .paren rest then do
      let (generics, rest) ← after? colons (angle g true) rest
      let ((args, trailing), rest) ← callOperands g rest
      pure (.method e i (generics.getD .none) args trailing, rest)
    else pure (.field e m, rest)

def selected (g : Grammar) (e : Expr) : Parser Expr := fun ts =>
  match ts with
  | .literal text :: rest =>
    if Literal.isFraction text then do
      let (numbers, pointed) ← indices? text
      let e := numbers.foldl (fun e n => .field e (.index n)) e
      if pointed then
        match word? "await" rest with
        | some rest => pure (.await e, rest)
        | none => memberOf g e rest
      else pure (e, rest)
    else memberOf g e ts
  | ts =>
    match word? "await" ts with
    | some ts => some (.await e, ts)
    | none => memberOf g e ts

/-- Calls, fields, methods, positions and question marks after an operand. The number bounds how
many there are. -/
def trailers (g : Grammar) : Nat → Expr → Parser Expr
  | 0, _, _ => none
  | more + 1, e, ts =>
    if starting .paren ts then do
      let ((args, trailing), ts) ← callOperands g ts
      trailers g more (.call e args trailing) ts
    else if starting .bracket ts then do
      let (position, ts) ← grouped .bracket g.value ts
      trailers g more (.index e position) ts
    else if startsPoint ts && !e.isRange then do
      let (e, ts) ← selected g e (ts.drop 1)
      trailers g more e ts
    else if starts ['?'] ts && !e.isRange then trailers g more (.attempt e) (ts.drop 1)
    else some (e, ts)

def fieldValue (g : Grammar) : Parser FieldValue := fun ts => do
  let (attributes, ts) ← outerAttributes g ts
  let (m, ts) ← fieldName? ts
  let (value, ts) ← after? [':'] g.value ts
  match m, value with
  | .index _, none => failure
  | m, value => pure (.mk attributes m value, ts)

/-- The fields of a structure, up to its end. Dots may stand in place of the last, with what the
other fields are taken from. The first argument bounds the number of fields. -/
def fieldValues (g : Grammar) :
    Nat → Parser ((List FieldValue × Bool) × Bool × Option Expr)
  | 0, _ => none
  | more + 1, ts =>
    if ends ts then some ((([], false), false, none), ts)
    else
      match sign? ['.', '.'] ts with
      | some ts => do
        let (base, ts) ← optional (!ends ts) g.value ts
        pure ((([], false), true, base), ts)
      | none => do
        let (f, ts) ← fieldValue g ts
        if ends ts then pure ((([f], false), false, none), ts)
        else do
          let ts ← sign? [','] ts
          let (((fs, trailing), rest), ts) ← fieldValues g more ts
          pure (((f :: fs, trailing || fs.isEmpty), rest), ts)

def pathExpr (g : Grammar) (free : Bool) : Parser Expr := fun ts => do
  let (p, ts) ← qualPath g true ts
  let named := match p with
    | .plain plain => macroAfter? plain ts
    | .projected .. => none
  match named with
  | some (m, ts) => pure (.macroCall m, ts)
  | none =>
    if free && starting .brace ts then
      let (((fields, trailing), dots, base), ts) ← grouped .brace (fieldValues g g.more) ts
      pure (.record p fields trailing dots base, ts)
    else pure (.path p, ts)

def parenExpr (g : Grammar) : Parser Expr := fun ts => do
  let ((items, trailing), ts) ← grouped .paren (commas g.value g.more) ts
  match items, trailing with
  | [inner], false => pure (.paren inner, ts)
  | _, _ => pure (.tuple items trailing, ts)

/-- What stands between the brackets of an array: items, or one item and how often it is repeated.
-/
def arrayItems (g : Grammar) : Parser Expr := fun ts =>
  if ends ts then some (.array [] false, ts)
  else do
    let (first, ts) ← g.value ts
    match sign? [';'] ts with
    | some ts => do
      let (length, ts) ← g.value ts
      pure (.repeated first length, ts)
    | none =>
      if ends ts then pure (.array [first] false, ts)
      else do
        let ts ← sign? [','] ts
        let ((items, trailing), ts) ← commas g.value g.more ts
        pure (.array (first :: items) (trailing || items.isEmpty), ts)

/-- A form that has no other name, from its word on. -/
def verbatimExpr (g : Grammar) : Parser Expr := fun ts =>
  if startsBuiltin ts then (builtin? ts).map fun (row, ts) => (.verbatim row.tokens, ts)
  else do
    let rest ← word? "become" ts
    let (_, rest) ← g.value rest
    pure (.verbatim (taken ts rest), rest)

def startsPathExpr (ts : List Token) : Bool :=
  startsName ts || starts colons ts || starts ['<'] ts || startsRoot ts ||
    startsWord "try" ts && (starts ['!'] (ts.drop 1) || starts colons (ts.drop 1))

/-- An operand without signs before or after it that begins with a word. -/
def wordAtom (g : Grammar) (free : Bool) : Parser Expr := fun ts =>
  if startsWord "break" ts then breaking g free ts
  else if startsWord "continue" ts then continuing ts
  else if startsWord "return" ts then jumping g .returning ts
  else if startsWord "become" ts then verbatimExpr g ts
  else if startsWord "let" ts then binds g free ts
  else if startsWord "if" ts then branch g g.more ts
  else if startsWord "while" ts then whileLoop g none ts
  else if startsWord "for" ts then forLoop g none ts
  else if startsWord "loop" ts then endlessLoop g none ts
  else if startsWord "match" ts then choice g ts
  else if startsWord "yield" ts then jumping g .yielding ts
  else if startsWord "unsafe" ts then blockAs g .unchecked true (ts.drop 1)
  else if startsWord "const" ts then blockAs g .constant true (ts.drop 1)
  else if startsWord "_" ts then some (.infer, ts.drop 1)
  else none

/-- An operand without signs before or after it. -/
def atom (g : Grammar) (free : Bool) : Parser Expr := fun ts =>
  if startsLiteral ts then (literal? ts).map fun ((_, text), ts) => (.literal text, ts)
  else if startsAsyncBlock ts then asyncBlock g ts
  else if startsWord "try" ts && starting .brace (ts.drop 1) then
    blockAs g .trying false (ts.drop 1)
  else if startsClosure ts then closure g free ts
  else if startsBuiltin ts then verbatimExpr g ts
  else if startsPathExpr ts then pathExpr g free ts
  else if starting .paren ts then parenExpr g ts
  else if starting .bracket ts then grouped .bracket (arrayItems g) ts
  else if starting .brace ts then blockAs g .plain true ts
  else if starts ['.', '.'] ts then rangeRest g free none ts
  else if startsLifetime ts then labelled g ts
  else wordAtom g free ts

/-- Whether a raw pointer to a place is taken here, and not a reference. -/
def startsAddress (ts : List Token) : Bool :=
  startsWord "raw" ts && (startsWord "mut" (ts.drop 1) || startsWord "const" (ts.drop 1))

/-- An operand with the signs before and after it. The number bounds how many stand before it. A
range cannot have attributes. -/
def unary (g : Grammar) (free : Bool) : Nat → Parser Expr
  | 0, _ => none
  | more + 1, ts => do
    let (attributes, ts) ← outerAttributes g ts
    if starts ['&'] ts then do
      let ts := ts.drop 1
      let raw := startsAddress ts
      let (writable, ts) := markWord "mut" (if raw then ts.drop 1 else ts)
      let (e, ts) ← unary g free more (if raw && !writable then ts.drop 1 else ts)
      pure ((if raw then Expr.address writable e else .borrow writable e).withAttributes attributes,
        ts)
    else
      match ['*', '!', '-'].find? (starts [·] ts) with
      | some op => do
        let (e, ts) ← unary g free more (ts.drop 1)
        pure ((Expr.unary op e).withAttributes attributes, ts)
      | none => do
        let (e, ts) ← atom g free ts
        let (e, ts) ← trailers g g.more e ts
        if e.isRange && !attributes.isEmpty then failure
        pure (e.withAttributes attributes, ts)

/-- An expression whose operators bind at least so tightly. -/
def expr (g : Grammar) (free : Bool) (least : Nat) : Parser Expr := fun ts => do
  let (left, ts) ← unary g free g.more ts
  operations g free least g.more left ts

/-- An expression as a statement or the body of an arm. Control flow and blocks end it, unless
something is selected from them. -/
def early (g : Grammar) : Parser Expr := fun ts => do
  let (attributes, ts) ← outerAttributes g ts
  if startsStatementLike ts then
    let (e, ts) ← atom g true ts
    if startsPoint ts || starts ['?'] ts then
      let (e, ts) ← trailers g g.more e ts
      operations g true 0 g.more (e.withAttributes attributes) ts
    else pure (e.withAttributes attributes, ts)
  else
    let (e, ts) ← unary g true g.more ts
    operations g true 0 g.more (e.withAttributes attributes) ts

end Parser

end TypedDecl.Code
