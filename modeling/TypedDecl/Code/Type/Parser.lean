import TypedDecl.Code.Attribute.Parser

namespace TypedDecl.Code.Parser

/-- Whether the sign for less stands here and not a longer operator that begins with it. -/
def startsAngle (ts : List Token) : Bool :=
  starts ['<'] ts && !starts ['<', '='] ts && !starts ['<', '<', '='] ts

def startsFunction (ts : List Token) : Bool :=
  startsWord "fn" ts || startsWord "unsafe" ts || startsWord "extern" ts

def startsBound (ts : List Token) : Bool :=
  (anyWord? ts).isSome || starts colons ts || starts ['?'] ts || startsLifetime ts ||
    starting .paren ts

def const? (g : Grammar) : Parser Const := fun ts =>
  match literal? ts with
  | some ((negative, text), ts) => some (.literal negative text, ts)
  | none =>
    match name? ts with
    | some (i, ts) => some (.name i, ts)
    | none => do
      let (b, ts) ← g.block true ts
      let row ← Row.of? b.tokens
      pure (.block row, ts)

def startsConst (ts : List Token) : Bool := startsLiteral ts || starting .brace ts

def constraint (g : Grammar) (i : Ident) (args : Args) : Parser Arg := fun ts => do
  let stop (ts : List Token) : Bool := starts [','] ts || starts ['>'] ts
  let ((bounds, trailing), ts) ← plussed (g.bound .parameter) stop g.more ts
  pure (.constraint i args bounds trailing, ts)

/-- What an associated type or constant is, from the equals sign on. -/
def binding (g : Grammar) (i : Ident) (args : Args) : Parser Arg := fun ts => do
  let ts ← sign? ['='] ts
  if startsConst ts then
    let (value, ts) ← const? g ts
    pure (.constBinding i args value, ts)
  else
    let (t, ts) ← g.ty true ts
    pure (.binding i args t, ts)

def arg (g : Grammar) : Parser Arg := fun ts =>
  if startsLifetime ts && !starts ['+'] (afterTree ts) then
    (lifetime? ts).map fun (life, ts) => (.lifetime life, ts)
  else if startsConst ts then
    (const? g ts).map fun (value, ts) => (.constant value, ts)
  else do
    let (t, ts) ← g.ty true ts
    match t.soleSegment? with
    | some (i, args) =>
      if starts ['='] ts then binding g i args ts
      else
        match sign? [':'] ts with
        | some ts => constraint g i args ts
        | none => pure (.type t, ts)
    | none => pure (.type t, ts)

/-- Generic arguments, from the opening angle bracket on. -/
def angle (g : Grammar) (colons : Bool) : Parser Args := fun ts => do
  let ts ← sign? ['<'] ts
  let ((items, trailing), ts) ← separated (arg g) [','] (starts ['>']) g.more ts
  let ts ← sign? ['>'] ts
  pure (.angle colons items trailing, ts)

/-- The arguments of a segment. In an expression they need colons before them. -/
def segmentArgs (g : Grammar) (expr : Bool) : Parser Args := fun ts =>
  match sign? colons ts with
  | some rest => if starts ['<'] rest then angle g true rest else some (.none, ts)
  | none => if !expr && startsAngle ts then angle g false ts else some (.none, ts)

def segment (g : Grammar) (expr : Bool) : Parser Segment := fun ts =>
  if ["super", "self", "crate", "try"].any (startsWord · ts) then
    (anyWord? ts).map fun (i, ts) => (.mk i .none, ts)
  else do
    let (i, ts) ← if startsWord "Self" ts then anyWord? ts else name? ts
    let (args, ts) ← segmentArgs g expr ts
    pure (.mk i args, ts)

/-- Segments with colons between them. Colons before a parenthesis are left if so told. -/
def segments (g : Grammar) (expr leave : Bool) : Nat → Parser (List Segment)
  | 0, _ => none
  | more + 1, ts => do
    let (s, ts) ← segment g expr ts
    match sign? colons ts with
    | none => pure ([s], ts)
    | some rest =>
      if leave && starting .paren rest then pure ([s], ts)
      else do
        let (ss, ts) ← segments g expr leave more rest
        pure (s :: ss, ts)

def path (g : Grammar) (expr : Bool) : Parser Path := fun ts => do
  let (global, ts) := mark colons ts
  let (segments, ts) ← segments g expr true g.more ts
  pure (.mk global segments, ts)

/-- What a type has, from the opening angle bracket on. -/
def projection (g : Grammar) (expr : Bool) : Parser QualPath := fun ts => do
  let ts ← sign? ['<'] ts
  let (self, ts) ← g.ty true ts
  let (via, ts) ← afterWord? "as" (path g false) ts
  let ts ← sign? ['>'] ts
  let ts ← sign? colons ts
  let (rest, ts) ← segments g expr false g.more ts
  pure (.projected self via rest, ts)

def qualPath (g : Grammar) (expr : Bool) : Parser QualPath := fun ts =>
  if starts ['<'] ts then projection g expr ts
  else (path g expr ts).map fun (p, ts) => (.plain p, ts)

/-- The macro that the path names, if an exclamation mark follows it. -/
def macroAfter? (p : Path) (ts : List Token) : Option (MacroCall × List Token) :=
  if startsMacro ts then p.plain?.bind (macroArgs · ts) else none

def output (g : Grammar) (plus : Bool) : Parser (Option Ty) := after? arrow (g.ty plus)

/-- The arguments of a call in a bound: types in parentheses, and what the call gives. -/
def callArgs (g : Grammar) : Parser Args := fun ts => do
  let ((inputs, trailing), ts) ← grouped .paren (commas (g.ty true) g.more) ts
  let (out, ts) ← output g false ts
  pure (.call inputs trailing out, ts)

/-- The path of a bound. If its last segment has no arguments, those of a call may follow it. -/
def boundPath (g : Grammar) : Parser Path := fun ts => do
  let (p, ts) ← path g false ts
  let rest := (mark colons ts).2
  if (p.segments.getLast?.map (·.args.isEmpty)).getD false && starting .paren rest then
    let (args, ts) ← callArgs g rest
    pure (p.withArgs args, ts)
  else pure (p, ts)

def lifetimeBounds (g : Grammar) (stop : List Token → Bool) : Parser (List Ident × Bool) :=
  plussed lifetime? stop g.more

/-- What follows a colon, if it stands here, and else no items. -/
def afterColon {α : Type} (items : Parser (List α × Bool)) : Parser (List α × Bool) := fun ts =>
  match sign? [':'] ts with
  | some ts => items ts
  | none => some (([], false), ts)

def endsParam (ts : List Token) : Bool :=
  ends ts || starts [','] ts || starts ['>'] ts || starts ['='] ts

def lifetimeParam (g : Grammar) (attributes : List Attribute) : Parser Generic := fun ts => do
  let (life, ts) ← lifetime? ts
  let stop (ts : List Token) : Bool := ends ts || starts [','] ts || starts ['>'] ts
  let ((bounds, trailing), ts) ← afterColon (lifetimeBounds g stop) ts
  pure (.lifetime attributes life bounds trailing, ts)

def typeParam (g : Grammar) (attributes : List Attribute) : Parser Generic := fun ts => do
  let (i, ts) ← name? ts
  let ((bounds, trailing), ts) ←
    afterColon (plussed (g.bound .parameter) endsParam g.more) ts
  let (fallback, ts) ← after? ['='] (g.ty true) ts
  pure (.type attributes i bounds trailing fallback, ts)

def constParam (g : Grammar) (attributes : List Attribute) : Parser Generic := fun ts => do
  let ts ← word? "const" ts
  let (i, ts) ← name? ts
  let ts ← sign? [':'] ts
  let (t, ts) ← g.ty true ts
  let (fallback, ts) ← after? ['='] (const? g) ts
  pure (.constant attributes i t fallback, ts)

def generic (g : Grammar) : Parser Generic := fun ts => do
  let (attributes, ts) ← outerAttributes g ts
  if startsLifetime ts then lifetimeParam g attributes ts
  else if startsWord "const" ts then constParam g attributes ts
  else typeParam g attributes ts

def binder? (g : Grammar) : Parser Binder := fun ts =>
  match word? "for" ts with
  | none => some (.none, ts)
  | some ts => do
    let ts ← sign? ['<'] ts
    let ((params, trailing), ts) ← separated (generic g) [','] (starts ['>']) g.more ts
    let ts ← sign? ['>'] ts
    pure (.mk params trailing, ts)

/-- A mark that makes a trait constant, if it stands here, with or without brackets. -/
def constMark? (ts : List Token) : Option (List Token) :=
  match word? "const" ts with
  | some ts => some ts
  | none => (grouped .bracket (fun ts => (word? "const" ts).map ((), ·)) ts).map (·.2)

/-- A trait as a bound, and whether it was marked as constant. A question mark and bound parameters
exclude each other. -/
def traitBound (g : Grammar) (kinds : BoundKinds) : Parser (Bound × Bool) := fun ts => do
  let (before, ts) ← binder? g ts
  let constant := startsWord "const" ts || starting .bracket ts
  if constant && !kinds.marks then failure
  let ts ← if constant then constMark? ts else some ts
  let (optional, ts) := mark ['?'] ts
  let bare := match before with
    | .none => true
    | .mk .. => false
  if optional && (!bare || startsWord "for" ts) then failure
  let (p, ts) ← boundPath g ts
  pure ((.trait false before optional p, constant), ts)

def capture : Parser Capture := fun ts =>
  match lifetime? ts with
  | some (life, ts) => some (.lifetime life, ts)
  | none =>
    if startsName ts || startsWord "Self" ts then
      (anyWord? ts).map fun (i, ts) => (.name i, ts)
    else none

def captures (g : Grammar) : Parser Bound := fun ts => do
  let ts ← word? "use" ts
  let ts ← sign? ['<'] ts
  let ((params, trailing), ts) ← separated capture [','] (starts ['>']) g.more ts
  let ts ← sign? ['>'] ts
  pure (.captures params trailing, ts)

def bound (g : Grammar) (kinds : BoundKinds) : Parser Bound := fun ts =>
  if startsLifetime ts then (lifetime? ts).map fun (life, ts) => (.lifetime life, ts)
  else if startsWord "use" ts then if kinds.captures then captures g ts else none
  else do
    let parens := starting .paren ts
    let ((b, constant), rest) ←
      if parens then grouped .paren (traitBound g kinds) ts else traitBound g kinds ts
    if constant then (takenRow? ts rest).map fun (row, rest) => (.verbatim row, rest)
    else pure (if parens then b.parenthesized else b, rest)

/-- Bounds with plus signs between them. If `plus` does not hold there is only one. -/
def bounds (g : Grammar) (kinds : BoundKinds) (plus : Bool) : Parser (List Bound × Bool) :=
    fun ts =>
  if plus then do
    let (first, ts) ← g.bound kinds ts
    match sign? ['+'] ts with
    | none => pure (([first], false), ts)
    | some ts => do
      let stop (ts : List Token) : Bool :=
        !(startsBound ts || kinds.marks && starting .bracket ts)
      let ((rest, trailing), ts) ← plussed (g.bound kinds) stop g.more ts
      pure ((first :: rest, trailing || rest.isEmpty), ts)
  else (g.bound kinds ts).map fun (b, ts) => (([b], false), ts)

/-- Bounds of which one at least is more than a lifetime. -/
def typeBounds (g : Grammar) (kinds : BoundKinds) (plus : Bool) : Parser (List Bound × Bool) :=
    fun ts => do
  let ((bs, trailing), ts) ← bounds g kinds plus ts
  if bs.any Bound.standsAlone then pure ((bs, trailing), ts) else failure

/-- Bounds after a first one, each with a plus sign before it. -/
def addedBounds (g : Grammar) : Nat → Parser (List Bound)
  | 0, _ => none
  | more + 1, ts =>
    match sign? ['+'] ts with
    | none => some ([], ts)
    | some ts => do
      let (b, ts) ← g.bound .object ts
      let (bs, ts) ← addedBounds g more ts
      pure (b :: bs, ts)

/-- A bare path and the bounds that are added to it, if any are. -/
def bareObject (g : Grammar) (binder : Binder) (plus : Bool) (p : Path) : Parser Ty := fun ts =>
  let first := Bound.trait false binder false p
  match if plus then sign? ['+'] ts else none with
  | none => some (.dynamic false [first] false, ts)
  | some ts => do
    let ((rest, trailing), ts) ← plussed (g.bound .object) (!startsBound ·) g.more ts
    pure (.dynamic false (first :: rest) (trailing || rest.isEmpty), ts)

def pathTy (g : Grammar) (binder : Binder) (plus : Bool) : Parser Ty := fun ts =>
  if starts ['<'] ts then (projection g false ts).map fun (p, ts) => (.path p, ts)
  else do
    let (p, ts) ← path g false ts
    match p.plain?, startsMacro ts with
    | some plain, true => (macroArgs plain ts).map fun (m, ts) => (.macroCall m, ts)
    | _, _ =>
      match binder with
      | .mk .. => bareObject g binder plus p ts
      | .none =>
        if plus && starts ['+'] ts then bareObject g binder plus p ts
        else pure (.path (.plain p), ts)

/-- Bounds of which the first is in parentheses. -/
def parenObject (g : Grammar) (first : Bound) : Parser Ty := fun ts => do
  let (rest, ts) ← addedBounds g g.more ts
  pure (.dynamic false (first.parenthesized :: rest) false, ts)

/-- A type in parentheses, a tuple, or bounds of which the first is in parentheses. -/
def parenTy (g : Grammar) (plus : Bool) : Parser Ty := fun ts =>
  let content := ts.drop 1
  if startsLifetime content then
    (grouped .paren (g.ty true) ts).map fun (inner, ts) => (.paren inner, ts)
  else if starts ['?'] content then do
    let ((first, _), ts) ← grouped .paren (traitBound g .object) ts
    parenObject g first ts
  else do
    let ((items, trailing), ts) ← grouped .paren (commas (g.ty true) g.more) ts
    match items, trailing with
    | [inner], false =>
      match if plus && starts ['+'] ts then inner.asBound? else none with
      | some first => parenObject g first ts
      | none => pure (.paren inner, ts)
    | _, _ => pure (.tuple items trailing, ts)

def abi? : Parser (Option (Option String)) := fun ts =>
  match word? "extern" ts with
  | none => some (none, ts)
  | some ts =>
    match text? ts with
    | some (text, ts) => some (some (some text), ts)
    | none => some (some none, ts)

/-- The name of a parameter and its colon, if they stand here. The receiver can be named only
first. -/
def paramName? (first : Bool) (ts : List Token) : Option (Ident × List Token) := do
  let (i, rest) ← anyWord? ts
  if (i.isName || i = Ident.plain "_" || first && i = Ident.plain "self") &&
      !starts colons rest then
    let rest ← sign? [':'] rest
    pure (i, rest)
  else failure

/-- A receiver that can be changed; it is no type of its own. -/
def writableSelf? (ts : List Token) : Option (List Token) :=
  (word? "mut" ts).bind (word? "self")

def param (g : Grammar) (first : Bool) (attributes : List Attribute) : Parser Param := fun ts =>
  let begun := if first then writableSelf? ts else none
  match begun with
  | some rest => do
    let (_, rest) ← after? [':'] (g.ty true) rest
    let (row, rest) ← takenRow? ts rest
    pure (.mk attributes none (.verbatim row), rest)
  | none =>
    let (name, rest) := match paramName? first ts with
      | some (i, rest) => (some i, rest)
      | none => (none, ts)
    match if first && name ≠ some (Ident.plain "self") then writableSelf? rest else none with
    | some rest =>
      (takenRow? ts rest).map fun (row, rest) => (.mk attributes none (.verbatim row), rest)
    | none => (g.ty true rest).map fun (t, rest) => (.mk attributes name t, rest)

def dots : List Char := ['.', '.', '.']

def ellipsis? (attributes : List Attribute) : Parser Ellipsis := fun ts => do
  let (name, ts) := match paramName? false ts with
    | some (i, rest) => if starts dots rest then (some i, rest) else (none, ts)
    | none => (none, ts)
  let ts ← sign? dots ts
  let (comma, ts) := mark [','] ts
  pure (⟨attributes, name, comma⟩, ts)

/-- The parameters of a function type, up to their end, and the dots after them. The first argument
bounds their number. -/
def params (g : Grammar) : Nat → Bool → Parser ((List Param × Bool) × Option Ellipsis)
  | 0, _, _ => none
  | more + 1, first, ts =>
    if ends ts then some ((([], false), none), ts)
    else do
      let (attributes, ts) ← outerAttributes g ts
      match ellipsis? attributes ts with
      | some (e, ts) => pure ((([], false), some e), ts)
      | none => do
        let (p, ts) ← param g first attributes ts
        if ends ts then pure ((([p], false), none), ts)
        else do
          let ts ← sign? [','] ts
          let (((ps, trailing), rest), ts) ← params g more false ts
          pure (((p :: ps, trailing || ps.isEmpty), rest), ts)

def functionTy (g : Grammar) (binder : Binder) : Parser Ty := fun ts => do
  let (free, ts) := markWord "unsafe" ts
  let (abi, ts) ← abi? ts
  let ts ← word? "fn" ts
  let (((params, trailing), rest), ts) ← grouped .paren (params g g.more true) ts
  let (out, ts) ← output g false ts
  pure (.function binder (!free) abi params trailing rest out, ts)

def bracketTy (g : Grammar) : Parser Ty :=
  grouped .bracket fun ts => do
    let (item, ts) ← g.ty true ts
    let (length, ts) ← after? [';'] g.valueRow ts
    pure (length.elim (.slice item) (.array item), ts)

/-- The target of a pointer, from the word that tells whether it can be changed on. -/
def pointerTy (g : Grammar) : Parser Ty := fun ts => do
  let (writable, ts) := markWord "mut" ts
  let ts ← if writable then some ts else word? "const" ts
  let (target, ts) ← g.ty false ts
  pure (.pointer writable target, ts)

def referenceTy (g : Grammar) : Parser Ty := fun ts => do
  let (life, ts) ← optional (startsLifetime ts) lifetime? ts
  let (writable, ts) := markWord "mut" ts
  let (target, ts) ← g.ty false ts
  pure (.reference life writable target, ts)

/-- An object behind the word for it. A star after the word makes a form that has no other name. -/
def dynTy (g : Grammar) (plus : Bool) : Parser Ty := fun ts => do
  let rest ← word? "dyn" ts
  let (starred, rest) := mark ['*'] rest
  let ((bs, trailing), rest) ← typeBounds g .object plus rest
  if starred then (takenRow? ts rest).map fun (row, rest) => (.verbatim row, rest)
  else pure (.dynamic true bs trailing, rest)

/-- What only a compiler provides: a name behind a hash mark, and tokens in parentheses. -/
def builtin? : Parser Row := fun ts => do
  let rest ← word? "builtin" ts
  let rest ← sign? ['#'] rest
  let (_, rest) ← name? rest
  let ((delim, _), rest) ← anyGroup? rest
  if delim = .paren then takenRow? ts rest else failure

def startsBuiltin (ts : List Token) : Bool :=
  startsWord "builtin" ts && starts ['#'] (ts.drop 1)

/-- A type after the words that bind parameters. -/
def unboundTy (g : Grammar) (plus : Bool) : Parser Ty := fun ts =>
  if starts ['<'] ts || starts colons ts then pathTy g .none plus ts
  else if starting .paren ts then parenTy g plus ts
  else if startsWord "dyn" ts then dynTy g plus ts
  else if starting .bracket ts then bracketTy g ts
  else if starts ['*'] ts then pointerTy g (ts.drop 1)
  else if starts ['&'] ts then referenceTy g (ts.drop 1)
  else if starts ['!'] ts then some (.never, ts.drop 1)
  else if startsWord "impl" ts then
    (typeBounds g .hidden plus (ts.drop 1)).map fun ((bs, trailing), ts) =>
      (.abstract bs trailing, ts)
  else if startsWord "_" ts then some (.infer, ts.drop 1)
  else if startsLifetime ts then
    (typeBounds g .object true ts).map fun ((bs, trailing), ts) =>
      (.dynamic false bs trailing, ts)
  else none

def ty (g : Grammar) (plus : Bool) : Parser Ty := fun ts => do
  let (binder, rest) ← binder? g ts
  if startsFunction rest then functionTy g binder rest
  else if startsBuiltin rest then
    (builtin? rest).bind fun (_, rest) =>
      (takenRow? ts rest).map fun (row, rest) => (.verbatim row, rest)
  else if startsName rest || startsRoot rest then pathTy g binder plus rest
  else
    match binder with
    | .none => unboundTy g plus rest
    | .mk .. => failure

end TypedDecl.Code.Parser
