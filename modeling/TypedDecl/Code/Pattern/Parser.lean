import TypedDecl.Code.Type.Parser

namespace TypedDecl.Code.Parser

def fieldName? : Parser FieldName
  | .ident i :: ts => if i.isName then some (.name i, ts) else none
  | .literal text :: ts =>
    match Literal.whole? text with
    | some (n, []) => if n < 4294967296 then some (.index n, ts) else none
    | _ => none
  | _ => none

def startsBar (ts : List Token) : Bool :=
  starts ['|'] ts && !starts ['|', '|'] ts && !starts ['|', '='] ts

/-- Whether a second word tells that the name before it begins a path. -/
def continuesPath (ts : List Token) : Bool :=
  starts colons ts || starts ['!'] ts || starting .brace ts || starting .paren ts ||
    starts ['.', '.'] ts

/-- Whether a path begins here, and not a name that is bound. -/
def startsPathPat (ts : List Token) : Bool :=
  startsName ts && continuesPath (ts.drop 1) ||
    startsWord "self" ts && starts colons (ts.drop 1) ||
    starts colons ts || starts ['<'] ts || startsWord "Self" ts || startsWord "super" ts ||
    startsWord "crate" ts

def constBlock (g : Grammar) : Parser (List Token) := fun ts => do
  let rest ← word? "const" ts
  let (b, rest) ← g.block true rest
  pure (Token.word "const" :: b.tokens, rest)

def patEnd (g : Grammar) : Parser PatEnd := fun ts =>
  match literal? ts with
  | some ((negative, text), ts) => some (.literal negative text, ts)
  | none =>
    if startsWord "const" ts then (constBlock g ts).map fun (row, ts) => (.block row, ts)
    else if startsWord "try" ts then none
    else (qualPath g true ts).map fun (p, ts) => (.path p, ts)

def endsRange (ts : List Token) : Bool :=
  ends ts || starts ['|'] ts || starts ['='] ts || starts [':'] ts && !starts colons ts ||
    starts [','] ts || starts [';'] ts || startsWord "if" ts

/-- The sign of a range: whether its end belongs to it. Three dots are an old spelling of the closed
one. -/
def rangeSign? (ts : List Token) : Option (Bool × List Token) :=
  match sign? ['.', '.', '='] ts, sign? dots ts with
  | some ts, _ => some (true, ts)
  | none, some ts => some (true, ts)
  | none, none => (sign? ['.', '.'] ts).map (false, ·)

/-- What follows the start of a range, from its sign on. A closed range needs an end. -/
def rangeAfter (g : Grammar) (first : Option PatEnd) : Parser Pat := fun ts => do
  let (closed, ts) ← rangeSign? ts
  let (last, ts) ← optional (!endsRange ts) (patEnd g) ts
  if closed && last.isNone then failure
  pure (if first.isNone && last.isNone then .rest else .range first closed last, ts)

/-- Patterns with bars between them; one may stand before the first. -/
def casesAfter (g : Grammar) : Nat → Parser (List Pat)
  | 0, _ => none
  | more + 1, ts =>
    if startsBar ts then do
      let (p, ts) ← g.pat (ts.drop 1)
      let (ps, ts) ← casesAfter g more ts
      pure (p :: ps, ts)
    else some ([], ts)

/-- A pattern or several, one of which is to fit. -/
def anyPat (g : Grammar) : Parser Pat := fun ts => do
  let (lead, ts) := mark ['|'] ts
  let (first, ts) ← g.pat ts
  let (rest, ts) ← casesAfter g g.more ts
  pure (if lead || !rest.isEmpty then .cases lead (first :: rest) else first, ts)

/-- A field without a member: the name of the field is bound. -/
def shortField (attributes : List Attribute) : Parser FieldPat := fun ts => do
  let (boxed, rest) := markWord "box" ts
  let (borrowed, rest) := markWord "ref" rest
  let (writable, rest) := markWord "mut" rest
  let (i, rest) ← name? rest
  pure (.mk attributes none
    (if boxed then .verbatim (taken ts rest) else .name borrowed writable i none), rest)

def fieldPat (g : Grammar) (attributes : List Attribute) : Parser FieldPat := fun ts =>
  match fieldName? ts with
  | some (m, rest) =>
    match m, sign? [':'] rest with
    | m, some rest => (anyPat g rest).map fun (p, ts) => (.mk attributes (some m) p, ts)
    | .name _, none => shortField attributes ts
    | .index _, none => none
  | none => shortField attributes ts

/-- The fields of a structure, up to its end, and the dots after them. The first argument bounds
their number. -/
def fieldPats (g : Grammar) : Nat → Parser ((List FieldPat × Bool) × Option (List Attribute))
  | 0, _ => none
  | more + 1, ts =>
    if ends ts then some ((([], false), none), ts)
    else do
      let (attributes, ts) ← outerAttributes g ts
      match sign? ['.', '.'] ts with
      | some ts => pure ((([], false), some attributes), ts)
      | none => do
        let (f, ts) ← fieldPat g attributes ts
        if ends ts then pure ((([f], false), none), ts)
        else do
          let ts ← sign? [','] ts
          let (((fs, trailing), rest), ts) ← fieldPats g more ts
          pure (((f :: fs, trailing || fs.isEmpty), rest), ts)

def pathPat (g : Grammar) : Parser Pat := fun ts => do
  let (p, ts) ← qualPath g true ts
  match p, startsMacro ts with
  | .plain plain, true =>
    let (m, ts) ← macroAfter? plain ts
    pure (.macroCall m, ts)
  | p, _ =>
    if starting .brace ts then
      let (((fields, trailing), rest), ts) ← grouped .brace (fieldPats g g.more) ts
      pure (.record p fields trailing rest, ts)
    else if starting .paren ts then
      let ((items, trailing), ts) ← grouped .paren (commas (anyPat g) g.more) ts
      pure (.applied p items trailing, ts)
    else if starts ['.', '.'] ts then rangeAfter g (some (.path p)) ts
    else pure (.value (.path p), ts)

def valuePat (g : Grammar) : Parser Pat := fun ts => do
  let (first, ts) ← patEnd g ts
  if starts ['.', '.'] ts then rangeAfter g (some first) ts else pure (.value first, ts)

def namePat (g : Grammar) : Parser Pat := fun ts => do
  let (borrowed, ts) := markWord "ref" ts
  let (writable, ts) := markWord "mut" ts
  let (i, ts) ← if startsWord "self" ts then anyWord? ts else name? ts
  let (sub, ts) ← after? ['@'] g.pat ts
  pure (.name borrowed writable i sub, ts)

/-- A pattern in parentheses, or a tuple; two dots alone make a tuple. -/
def parenPat (g : Grammar) : Parser Pat := fun ts => do
  let ((items, trailing), ts) ← grouped .paren (commas (anyPat g) g.more) ts
  match items, trailing with
  | [inner], false => pure (if inner.isRest then .tuple items false else .paren inner, ts)
  | _, _ => pure (.tuple items trailing, ts)

/-- A pattern for the items of an array or a slice, in which ranges have both ends. -/
def slicePat (g : Grammar) : Parser Pat := fun ts => do
  let ((items, trailing), ts) ← grouped .bracket (commas (anyPat g) g.more) ts
  if items.any Pat.isOpenRange then failure
  pure (.slice items trailing, ts)

def boxPat (g : Grammar) : Parser Pat := fun ts => do
  let rest ← word? "box" ts
  let (_, rest) ← g.pat rest
  pure (.verbatim (taken ts rest), rest)

def pat (g : Grammar) : Parser Pat := fun ts =>
  if startsPathPat ts then pathPat g ts
  else if startsWord "_" ts then some (.wild, ts.drop 1)
  else if startsWord "box" ts then boxPat g ts
  else if starts ['-'] ts || startsLiteral ts || startsWord "const" ts then valuePat g ts
  else if startsWord "ref" ts || startsWord "mut" ts || startsWord "self" ts || startsName ts then
    namePat g ts
  else if starts ['&'] ts then do
    let (writable, ts) := markWord "mut" (ts.drop 1)
    let (target, ts) ← g.pat ts
    pure (.reference writable target, ts)
  else if starting .paren ts then parenPat g ts
  else if starting .bracket ts then slicePat g ts
  else if starts ['.', '.'] ts && !starts dots ts then rangeAfter g none ts
  else none

end TypedDecl.Code.Parser
