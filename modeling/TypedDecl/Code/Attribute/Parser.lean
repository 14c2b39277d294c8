import TypedDecl.Code.Grammar

namespace TypedDecl.Code.Parser

/-- The path of an attribute, which one word that is no name may be as well. -/
def attributePath? : Parser PlainPath := fun ts =>
  match word? "unsafe" ts with
  | some ts => some (⟨false, [Ident.plain "unsafe"]⟩, ts)
  | none => plainPath? ts

def startsAttribute (ts : List Token) : Bool := starts ['#'] ts

/-- The expression of an attribute. It is a lone literal, or any expression without attributes. -/
def attributeValue (g : Grammar) : Parser Row := fun ts =>
  if startsAttribute ts && starting .bracket (ts.drop 1) then none else g.valueRow ts

def attributeBody (g : Grammar) : Parser AttributeBody := fun ts =>
  match anyGroup? ts with
  | some ((delim, content), ts) => some (.group delim content, ts)
  | none => do
    let (row, ts) ← after? ['='] (attributeValue g) ts
    pure (row.elim .none .value, ts)

/-- What stands between the brackets of an attribute. -/
def attributeContent (g : Grammar) (inner : Bool) : Parser Attribute := fun ts => do
  let (path, ts) ← attributePath? ts
  let (body, ts) ← attributeBody g ts
  pure (⟨inner, path, body⟩, ts)

def outerAttribute (g : Grammar) : Parser Attribute := fun ts => do
  let ts ← sign? ['#'] ts
  grouped .bracket (attributeContent g false) ts

def outerAttributes (g : Grammar) : Parser (List Attribute) :=
  many startsAttribute (outerAttribute g) g.more

def startsInner (ts : List Token) : Bool := startsAttribute ts && starts ['!'] (ts.drop 1)

def innerAttribute (g : Grammar) : Parser Attribute := fun ts => do
  let ts ← sign? ['#'] ts
  let ts ← sign? ['!'] ts
  grouped .bracket (attributeContent g true) ts

def innerAttributes (g : Grammar) : Parser (List Attribute) :=
  many startsInner (innerAttribute g) g.more

end TypedDecl.Code.Parser
