import TypedDecl.Code.Expr.Statement

namespace TypedDecl.Code

inductive Site
  | file
  | impl
  | trait
  | foreign
  deriving DecidableEq, Repr

namespace Parser

/-- Where an item can be seen from. A word in parentheses may belong to the type of a field and not
to the visibility, so the parentheses must hold nothing else. -/
def visibility : Parser Visibility := fun ts =>
  match word? "pub" ts with
  | none => some (.inherited, ts)
  | some ts =>
    if starting .paren ts && startsWord "in" (ts.drop 1) then
      (grouped .paren (fun ts => (word? "in" ts).bind plainPath?) ts).map fun (p, ts) =>
        (.within p, ts)
    else
      match ts with
      | .opening .paren :: .ident i :: .closing .paren :: rest =>
        if ["crate", "self", "super"].any (startsWord · [.ident i]) then
          some (.within ⟨false, [i]⟩, rest)
        else some (.everywhere, ts)
      | ts => some (.everywhere, ts)

/-- A generic parameter of an item, which may be left without a name. -/
def itemGeneric (g : Grammar) : Parser Generic := fun ts => do
  let (attributes, rest) ← outerAttributes g ts
  match word? "_" rest with
  | some rest => pure (.type attributes (Ident.plain "_") [] false none, rest)
  | none => generic g ts

def genericList (g : Grammar) : Parser (List Generic) := fun ts =>
  match sign? ['<'] ts with
  | none => some ([], ts)
  | some ts => do
    let ((params, _), ts) ← separated (itemGeneric g) [','] (starts ['>']) g.more ts
    let ts ← sign? ['>'] ts
    pure (params, ts)

/-- Whether the conditions of an item, or the bounds of one, end here. -/
def endsConditions (ts : List Token) : Bool :=
  ends ts || starting .brace ts || starts [','] ts || starts [';'] ts ||
    starts [':'] ts && !starts colons ts || starts ['='] ts

def whereCondition (g : Grammar) : Parser Condition := fun ts =>
  if startsLifetime ts && starts [':'] (afterTree ts) then do
    let (life, ts) ← lifetime? ts
    let ((bounds, _), ts) ← lifetimeBounds g endsConditions (ts.drop 1)
    pure (.lifetime life bounds, ts)
  else do
    let (binder, ts) ← binder? g ts
    let (t, ts) ← g.ty true ts
    let ts ← sign? [':'] ts
    let ((bounds, _), ts) ← plussed (g.bound .parameter) endsConditions g.more ts
    pure (.type binder t bounds, ts)

/-- Conditions with commas between them. The first argument bounds their number. -/
def whereConditions (g : Grammar) : Nat → Parser (List Condition)
  | 0, _ => none
  | more + 1, ts =>
    if endsConditions ts then some ([], ts)
    else do
      let (c, ts) ← whereCondition g ts
      match sign? [','] ts with
      | none => pure ([c], ts)
      | some ts => do
        let (cs, ts) ← whereConditions g more ts
        pure (c :: cs, ts)

/-- The conditions of an item, if a where clause stands here. -/
def whereClause (g : Grammar) : Parser (List Condition) := fun ts =>
  (afterWord? "where" (whereConditions g g.more) ts).map fun (cs, ts) => (cs.getD [], ts)

def receiver (g : Grammar) (attributes : List Attribute) : Parser FnParam := fun ts => do
  let (borrowed, ts) ← after? ['&'] (fun ts => optional (startsLifetime ts) lifetime? ts) ts
  let (writable, ts) := markWord "mut" ts
  let ts ← word? "self" ts
  let (t, ts) ← if borrowed.isSome then some (none, ts) else after? [':'] (g.ty true) ts
  pure (.receiver attributes borrowed writable t, ts)

/-- A parameter without a name, which only a type with arguments can be. -/
def namelessParam (g : Grammar) (attributes : List Attribute) : Parser FnParam := fun ts =>
  if startsName ts && starts ['<'] (ts.drop 1) then
    (g.ty true ts).map fun (t, ts) => (.typed attributes .wild t, ts)
  else none

/-- A parameter, or the dots that end the parameters. -/
def fnParam (g : Grammar) (attributes : List Attribute) : Parser (FnParam ⊕ Variadic) := fun ts =>
  match sign? dots ts with
  | some ts => some (.inr ⟨attributes, none⟩, ts)
  | none =>
    match namelessParam g attributes ts with
    | some (p, ts) => some (.inl p, ts)
    | none => do
      let (p, ts) ← g.pat ts
      let ts ← sign? [':'] ts
      match sign? dots ts with
      | some ts => pure (.inr ⟨attributes, some p⟩, ts)
      | none => do
        let (t, ts) ← g.ty true ts
        pure (.inl (.typed attributes p t), ts)

/-- The parameters of a function, up to their end. Only the first can be the receiver. -/
def fnParams (g : Grammar) : Nat → Bool → Parser (List FnParam × Option Variadic)
  | 0, _, _ => none
  | more + 1, first, ts =>
    if ends ts then some (([], none), ts)
    else do
      let (attributes, ts) ← outerAttributes g ts
      let (p, ts) ← match receiver g attributes ts with
        | some (p, ts) => if first then some (.inl p, ts) else none
        | none => fnParam g attributes ts
      let ts ← if ends ts then some ts else sign? [','] ts
      match p with
      | .inr v => pure (([], some v), ts)
      | .inl p => do
        let ((ps, v), ts) ← fnParams g more false ts
        pure ((p :: ps, v), ts)

/-- The words before that of a function which tell whether its use is checked. -/
def checkWords (site : Site) : List String :=
  if site = .foreign then ["safe", "unsafe"] else ["unsafe"]

/-- What follows a word that tells whether the use of a function is checked, and whether such a word
stands here. -/
def markCheck (site : Site) (ts : List Token) : Bool × List Token :=
  match (checkWords site).find? (startsWord · ts) with
  | some _ => (true, ts.drop 1)
  | none => (false, ts)

/-- Whether a function begins here, the words before its own included. -/
def startsSignature (site : Site) (ts : List Token) : Bool :=
  let ts := (markWord "const" ts).2
  let ts := (markWord "async" ts).2
  let ts := (markCheck site ts).2
  match abi? ts with
  | some (_, ts) => startsWord "fn" ts
  | none => false

def signature (g : Grammar) (site : Site) : Parser Signature := fun ts => do
  let (constant, ts) := markWord "const" ts
  let (async, ts) := markWord "async" ts
  let (unchecked, ts) := markCheck site ts
  let (abi, ts) ← abi? ts
  let ts ← word? "fn" ts
  let (i, ts) ← name? ts
  let (generics, ts) ← genericList g ts
  let ((params, variadic), ts) ← grouped .paren (fnParams g g.more true) ts
  let (out, ts) ← output g true ts
  let (conditions, ts) ← whereClause g ts
  pure (⟨constant, async, unchecked, abi, i, ⟨generics, conditions⟩, params, variadic, out⟩, ts)

/-- A function. One has a body in a file and in an implementation, has none in a foreign block, and
may have one in a trait. -/
def function (g : Grammar) (site : Site) : Parser (Option MemberBody) := fun ts => do
  let isSafe := startsWord "safe" (markWord "async" (markWord "const" ts).2).2
  let (s, ts) ← signature g site ts
  match sign? [';'] ts with
  | some ts =>
    pure (if (site = .foreign || site = .trait) && !isSafe then some (.function s none) else none,
      ts)
  | none =>
    let (body, ts) ← g.block true ts
    pure (if site = .foreign then none else some (.function s (some body)), ts)

/-- A name, or the mark for none. -/
def nameOrBlank? : Parser Ident := fun ts =>
  if startsWord "_" ts then anyWord? ts else name? ts

/-- A constant. It has a value except in a trait, and has neither parameters nor conditions. -/
def constant (g : Grammar) (site : Site) : Parser (Option MemberBody) := fun ts => do
  let ts ← word? "const" ts
  let (i, ts) ← nameOrBlank? ts
  let generic := starts ['<'] ts
  let (_, ts) ← genericList g ts
  let ts ← sign? [':'] ts
  let (t, ts) ← g.ty true ts
  let (value, ts) ← after? ['='] g.value ts
  let generic := generic || startsWord "where" ts
  let (_, ts) ← whereClause g ts
  let ts ← sign? [';'] ts
  let regular := !generic && (value.isSome || site = .trait)
  pure (if regular then some (.constant i t value) else none, ts)

def static (g : Grammar) : Parser (Option MemberBody) := fun ts => do
  let ts ← word? "static" ts
  let (writable, ts) := markWord "mut" ts
  let (i, ts) ← name? ts
  let (t, ts) ← optional (!starts ['='] ts) (fun ts => (sign? [':'] ts).bind (g.ty true)) ts
  let (value, ts) ← optional (t.isNone || !starts [';'] ts)
    (fun ts => (sign? ['='] ts).bind g.value) ts
  let ts ← sign? [';'] ts
  match t, value with
  | some t, some value => pure (some (.static writable i t (some value)), ts)
  | _, _ => pure (none, ts)

/-- A static value that is defined elsewhere. It is told neither whether its use is checked nor what
it is. -/
def foreignStatic (g : Grammar) : Parser (Option MemberBody) := fun ts => do
  let (marked, ts) := markCheck .foreign ts
  let ts ← word? "static" ts
  let (writable, ts) := markWord "mut" ts
  let (i, ts) ← name? ts
  let ts ← sign? [':'] ts
  let (t, ts) ← g.ty true ts
  let (value, ts) ← after? ['='] g.value ts
  let ts ← sign? [';'] ts
  pure (if marked || value.isSome then none else some (.static writable i t none), ts)

def aliasBounds (g : Grammar) : Parser (Option (List Bound)) :=
  let stop (ts : List Token) : Bool := startsWord "where" ts || starts ['='] ts || starts [';'] ts
  after? [':'] fun ts =>
    (separated (g.bound .parameter) ['+'] stop g.more ts).map fun ((bs, _), ts) => (bs, ts)

/-- A type by another name. Its conditions stand before the equals sign in a file, at the end in an
implementation or a trait, and in either place in a foreign block. Only a trait tells its bounds; a
trait may leave out what it is, and a foreign block must. -/
def typeAlias (g : Grammar) (site : Site) : Parser (Option MemberBody) := fun ts => do
  let ts ← word? "type" ts
  let (i, ts) ← name? ts
  let (params, ts) ← genericList g ts
  let (bounds, ts) ← aliasBounds g ts
  let early := (site = .file || site = .foreign) && startsWord "where" ts
  let (before, ts) ← if early then whereClause g ts else some ([], ts)
  let (t, ts) ← after? ['='] (g.ty true) ts
  let (behind, ts) ← if site = .file || early then some ([], ts) else whereClause g ts
  let ts ← sign? [';'] ts
  let generics : Generics := ⟨params, before ++ behind⟩
  let regular := match site with
    | .file | .impl => bounds.isNone && t.isSome
    | .trait => true
    | .foreign => bounds.isNone && t.isNone
  let body :=
    if site = .foreign then MemberBody.foreignType i generics
    else .typeAlias (site ≠ .file) i generics (bounds.getD []) t
  pure (if regular then some body else none, ts)

/-- The call of a macro, which in a file may define a name. One in braces needs no semicolon. -/
def macroMember (site : Site) : Parser MemberBody := fun ts => do
  let (path, ts) ← plainPath? ts
  let ts ← sign? ['!'] ts
  let (i, ts) ← optional (site = .file && (startsName ts || startsWord "try" ts)) anyWord? ts
  let ((delim, content), ts) ← anyGroup? ts
  let ts ← if delim = .brace then some ts else sign? [';'] ts
  pure (.macroCall ⟨path, delim, content⟩ i, ts)

def startsStaticMember (site : Site) (ts : List Token) : Bool :=
  match site with
  | .file => startsWord "static" ts
  | .foreign => startsWord "static" (markCheck .foreign ts).2
  | _ => false

/-- Whether a member begins here that a word tells the kind of. -/
def startsMember (site : Site) (ts : List Token) : Bool :=
  startsSignature site ts || startsWord "type" ts || startsWord "const" ts && site ≠ .foreign ||
    startsStaticMember site ts

/-- A member, from the word that tells its kind on. One that is not as it should be where it stands
is no member of the kind. -/
def memberBody (g : Grammar) (site : Site) : Parser (Option MemberBody) := fun ts =>
  if startsSignature site ts then function g site ts
  else if startsWord "type" ts then typeAlias g site ts
  else if startsWord "const" ts then constant g site ts
  else if site = .foreign then foreignStatic g ts
  else static g ts

/-- Whether the word stands here that lets an implementation be replaced. -/
def startsDefault (site : Site) (ts : List Token) : Bool :=
  startsWord "default" ts &&
    (site = .trait || site = .impl && !starts ['!'] (ts.drop 1))

def member (g : Grammar) (site : Site) : Parser Member := fun start => do
  let (attributes, ts) ← outerAttributes g start
  let (v, ts) ← visibility ts
  let isDefault := startsDefault site ts
  let ts := if isDefault then ts.drop 1 else ts
  let (body, ts) ←
    if startsMember site ts then memberBody g site ts
    else if v = .inherited && !isDefault then
      (macroMember site ts).map fun (body, ts) => (some body, ts)
    else none
  let marked := site = .trait && (v ≠ .inherited || isDefault)
  match body, marked with
  | some body, false => pure (⟨attributes, v, isDefault, body⟩, ts)
  | _, _ => pure (⟨[], .inherited, false, .verbatim (taken start ts)⟩, ts)

def members (g : Grammar) (site : Site) : Parser Members :=
  grouped .brace fun ts => do
    let (inner, ts) ← innerAttributes g ts
    let (list, ts) ← all (member g site) g.more ts
    pure (⟨inner, list⟩, ts)

end Parser

end TypedDecl.Code
