import TypedDecl.Code.Item.Member

namespace TypedDecl.Code.Parser

def tupleField (g : Grammar) : Parser Field := fun ts => do
  let (attributes, ts) ← outerAttributes g ts
  let (v, ts) ← visibility ts
  let (t, ts) ← g.ty true ts
  pure (⟨attributes, v, none, t⟩, ts)

def namedField (g : Grammar) : Parser Field := fun ts => do
  let (attributes, ts) ← outerAttributes g ts
  let (v, ts) ← visibility ts
  let (i, ts) ← nameOrBlank? ts
  let ts ← sign? [':'] ts
  let (t, ts) ← g.ty true ts
  pure (⟨attributes, v, some i, t⟩, ts)

def tupleFields (g : Grammar) : Parser Fields := fun ts =>
  (grouped .paren (commas (tupleField g) g.more) ts).map fun ((fields, _), ts) =>
    (.tuple fields, ts)

def namedFields (g : Grammar) : Parser Fields := fun ts =>
  (grouped .brace (commas (namedField g) g.more) ts).map fun ((fields, _), ts) =>
    (.named fields, ts)

/-- The fields of a structure and its conditions, which stand before braces and after
parentheses. -/
def structBody (g : Grammar) : Parser (Fields × List Condition) := fun ts =>
  if starting .paren ts then do
    let (fields, ts) ← tupleFields g ts
    let (conditions, ts) ← whereClause g ts
    let ts ← sign? [';'] ts
    pure ((fields, conditions), ts)
  else do
    let (conditions, ts) ← whereClause g ts
    match sign? [';'] ts with
    | some ts => pure ((.unit, conditions), ts)
    | none => do
      let (fields, ts) ← namedFields g ts
      pure ((fields, conditions), ts)

/-- What is said in front of an item: its attributes, and where it can be seen from. -/
structure Front where
  attributes : List Attribute
  visibility : Visibility

def structItem (g : Grammar) (front : Front) : Parser Item := fun ts => do
  let ts ← word? "struct" ts
  let (i, ts) ← name? ts
  let (params, ts) ← genericList g ts
  let ((fields, conditions), ts) ← structBody g ts
  pure (.data front.attributes front.visibility false i ⟨params, conditions⟩ fields, ts)

def unionItem (g : Grammar) (front : Front) : Parser Item := fun ts => do
  let ts ← word? "union" ts
  let (i, ts) ← name? ts
  let (params, ts) ← genericList g ts
  let (conditions, ts) ← whereClause g ts
  let (fields, ts) ← namedFields g ts
  pure (.data front.attributes front.visibility true i ⟨params, conditions⟩ fields, ts)

/-- A variant. It has no visibility of its own, and one that is written counts for nothing. -/
def variant (g : Grammar) : Parser Variant := fun ts => do
  let (attributes, ts) ← outerAttributes g ts
  let (_, ts) ← visibility ts
  let (i, ts) ← name? ts
  let (fields, ts) ←
    if starting .brace ts then namedFields g ts
    else if starting .paren ts then tupleFields g ts
    else some (.unit, ts)
  let (value, ts) ← after? ['='] g.value ts
  pure (⟨attributes, i, fields, value⟩, ts)

def enumItem (g : Grammar) (front : Front) : Parser Item := fun ts => do
  let ts ← word? "enum" ts
  let (i, ts) ← name? ts
  let (params, ts) ← genericList g ts
  let (conditions, ts) ← whereClause g ts
  let ((variants, _), ts) ← grouped .brace (commas (variant g) g.more) ts
  pure (.enumeration front.attributes front.visibility i ⟨params, conditions⟩ variants, ts)

def crateItem (front : Front) : Parser Item := fun ts => do
  let ts ← word? "extern" ts
  let ts ← word? "crate" ts
  let (i, ts) ← if startsWord "self" ts then anyWord? ts else name? ts
  let (other, ts) ← afterWord? "as" nameOrBlank? ts
  let ts ← sign? [';'] ts
  pure (.externCrate front.attributes front.visibility i other, ts)

/-- What is brought into scope. The groups that the tree begins with may hold trees that begin with
colons, but then they are no tree. The first argument bounds how deep it is, and the second tells
whether such groups may stand here. -/
def useTree : Nat → Bool → Parser (Option UseTree)
  | 0, _, _ => none
  | more + 1, rooted, ts =>
    if starts ['*'] ts then some (some .all, ts.drop 1)
    else if starting .brace ts then
      let tree : Parser (Option UseTree) := fun ts =>
        if rooted && starts colons ts then
          (useTree more false (ts.drop 2)).map fun (_, ts) => (none, ts)
        else useTree more rooted ts
      (grouped .brace (commas tree (ts.length + 1)) ts).map fun ((items, _), ts) =>
        ((items.mapM id).map .group, ts)
    else if startsWord "Self" ts then none
    else do
      let (i, ts) ← if startsWord "try" ts then anyWord? ts else pathName? ts
      match sign? colons ts with
      | some ts => do
        let (rest, ts) ← useTree more false ts
        pure (rest.map (.path i), ts)
      | none => do
        let (other, ts) ← afterWord? "as" nameOrBlank? ts
        pure (some (other.elim (.name i) (.renamed i)), ts)

def useItem (g : Grammar) (front : Front) : Parser (Option Item) := fun ts => do
  let ts ← word? "use" ts
  let (global, ts) := mark colons ts
  let (tree, ts) ← useTree g.more (!global) ts
  let ts ← sign? [';'] ts
  pure (tree.map (.use front.attributes front.visibility global), ts)

def foreignItem (g : Grammar) (front : Front) : Parser Item := fun ts => do
  let (unchecked, ts) := markWord "unsafe" ts
  let ts ← word? "extern" ts
  let (abi, ts) := match text? ts with
    | some (text, ts) => (some text, ts)
    | none => (none, ts)
  let (content, ts) ← members g .foreign ts
  pure (.foreign front.attributes unchecked abi content, ts)

def moduleItem (g : Grammar) (front : Front) : Parser Item := fun ts => do
  let (unchecked, ts) := markWord "unsafe" ts
  let ts ← word? "mod" ts
  let (i, ts) ← if startsWord "try" ts then anyWord? ts else name? ts
  match sign? [';'] ts with
  | some ts => pure (.outlined front.attributes front.visibility unchecked i, ts)
  | none =>
    let content : Parser (List Attribute × List Item) := fun ts => do
      let (inner, ts) ← innerAttributes g ts
      let (items, ts) ← all g.item g.more ts
      pure ((inner, items), ts)
    let ((inner, items), ts) ← grouped .brace content ts
    pure (.module front.attributes front.visibility unchecked i inner items, ts)

def traitBounds (g : Grammar) (stop : List Token → Bool) : Parser (List Bound) := fun ts =>
  (separated (g.bound .parameter) ['+'] stop g.more ts).map fun ((bs, _), ts) => (bs, ts)

/-- A trait, or another name for bounds. -/
def traitItem (g : Grammar) (front : Front) : Parser Item := fun ts => do
  let (unchecked, ts) := markWord "unsafe" ts
  let (automatic, ts) := markWord "auto" ts
  let ts ← word? "trait" ts
  let (i, ts) ← name? ts
  let (params, ts) ← genericList g ts
  match if unchecked || automatic then none else sign? ['='] ts with
  | some ts =>
    let (bounds, ts) ← traitBounds g (fun ts => startsWord "where" ts || starts [';'] ts) ts
    let (conditions, ts) ← whereClause g ts
    let ts ← sign? [';'] ts
    pure (.traitAlias front.attributes front.visibility i ⟨params, conditions⟩ bounds, ts)
  | none =>
    let (bounds, ts) ←
      after? [':'] (traitBounds g fun ts => startsWord "where" ts || starting .brace ts) ts
    let (conditions, ts) ← whereClause g ts
    let (content, ts) ← members g .trait ts
    pure (.trait front.attributes front.visibility unchecked automatic i ⟨params, conditions⟩
      (bounds.getD []) content, ts)

/-- Whether the angle bracket after the word of an implementation begins generic parameters, and not
a type. -/
def startsImplGenerics (ts : List Token) : Bool :=
  let first := ts.drop 1
  let second := afterTree first
  starts ['<'] ts &&
    (starts ['>'] first || starts ['#'] first || startsWord "const" first ||
      (startsLifetime first || startsName first) &&
        (starts ['>'] second || starts [','] second ||
          starts [':'] second && !starts colons second || starts ['='] second))

/-- The trait of an implementation and its type. Without a trait it cannot be the opposite of one.
What is implemented may fail to be a trait. -/
def implTarget (g : Grammar) : Parser (Option (Option (Bool × Path) × Ty)) := fun ts => do
  let opposite := starts ['!'] ts && !starting .brace (ts.drop 1)
  let (t, ts) ← g.ty true (if opposite then ts.drop 1 else ts)
  match word? "for" ts with
  | none => if opposite then failure else pure (some (none, t), ts)
  | some ts => do
    let (self, ts) ← g.ty true ts
    match t with
    | .path (.plain p) => pure (some (some (opposite, p), self), ts)
    | _ => pure (none, ts)

/-- Whether a trait is marked as constant here, and what follows the mark. -/
def constTrait (ts : List Token) : Bool × List Token :=
  let rest := (mark ['?'] ts).2
  if startsWord "const" rest then (true, rest.drop 1) else (false, ts)

/-- An implementation. It has no visibility, and its trait is not marked. -/
def implItem (g : Grammar) (front : Front) : Parser (Option Item) := fun ts => do
  let (isDefault, ts) := markWord "default" ts
  let (unchecked, ts) := markWord "unsafe" ts
  let ts ← word? "impl" ts
  let (params, ts) ← if startsImplGenerics ts then genericList g ts else some ([], ts)
  let (marked, ts) := constTrait ts
  let (target, ts) ← implTarget g ts
  let (conditions, ts) ← whereClause g ts
  let (content, ts) ← members g .impl ts
  let regular := !marked && front.visibility = .inherited
  pure ((if regular then target else none).map fun (via, self) =>
    .impl front.attributes isDefault unchecked ⟨params, conditions⟩ via self content, ts)

/-- A macro that is defined by one rule or, in braces alone, by more. -/
def macroItem (ts : List Token) : Option (Option Item × List Token) := do
  let ts ← word? "macro" ts
  let (_, ts) ← name? ts
  let ts := if starting .paren ts then afterTree ts else ts
  if starting .brace ts then pure (none, afterTree ts) else failure

def startsImpl (ts : List Token) : Bool :=
  let rest := if startsWord "unsafe" ts then ts.drop 1 else ts
  startsWord "impl" rest || startsWord "default" ts && !starts ['!'] (ts.drop 1)

def startsTrait (ts : List Token) : Bool :=
  let rest := if startsWord "unsafe" ts then ts.drop 1 else ts
  startsWord "trait" rest || startsWord "auto" rest && startsWord "trait" (rest.drop 1)

def startsForeign (ts : List Token) : Bool :=
  startsWord "extern" (if startsWord "unsafe" ts then ts.drop 1 else ts)

def startsModule (ts : List Token) : Bool :=
  startsWord "mod" (if startsWord "unsafe" ts then ts.drop 1 else ts)

/-- An item after its attributes and its visibility. One that is not as it should be has no other
name than its tokens. -/
def itemAfter (g : Grammar) (front : Front) : Parser (Option Item) := fun ts =>
  let asMember (body : MemberBody) : Item :=
    .member ⟨front.attributes, front.visibility, false, body⟩
  let regular (item : Parser Item) : Option (Option Item × List Token) :=
    (item ts).map fun (i, ts) => (some i, ts)
  if startsMember .file ts then
    (memberBody g .file ts).map fun (b, ts) => (b.map asMember, ts)
  else if startsWord "extern" ts && startsWord "crate" (ts.drop 1) then regular (crateItem front)
  else if startsWord "use" ts then useItem g front ts
  else if startsModule ts then regular (moduleItem g front)
  else if startsWord "struct" ts then regular (structItem g front)
  else if startsWord "enum" ts then regular (enumItem g front)
  else if startsWord "union" ts && startsName (ts.drop 1) then regular (unionItem g front)
  else if startsTrait ts then regular (traitItem g front)
  else if startsImpl ts then implItem g front ts
  else if startsWord "macro" ts then macroItem ts
  else if front.visibility ≠ .inherited then none
  else if startsForeign ts then regular (foreignItem g front)
  else regular fun ts => (macroMember .file ts).map fun (b, ts) => (asMember b, ts)

def item (g : Grammar) : Parser Item := fun start => do
  let (attributes, ts) ← outerAttributes g start
  let (v, ts) ← visibility ts
  let (item, ts) ← itemAfter g ⟨attributes, v⟩ ts
  match item with
  | some item => pure (item, ts)
  | none => pure (.verbatim (taken start ts), ts)

end TypedDecl.Code.Parser
