import Mathlib.Data.List.Forall2
import TypedDecl.Code.Item.Tokens
import TypedDecl.Proofs.Outline
import TypedDecl.Proofs.Reading.Signs

namespace TypedDecl.Code

open Token (word operator group Closed)
open Text.Quoted (quoteGuarded)

namespace Parser

/-- The row, and no more of what follows it, is read as this. -/
def Reads {α : Type} (p : Parser α) (ts : List Token) (a : α) : Prop :=
  ∀ rest, p (ts ++ rest) = some (a, rest)

/-- A row that tells by its beginning that the reader has to go on. -/
def ReadsNext {α : Type} (begins : List Token → Bool) (p : Parser α) (ts : List Token) (a : α) :
    Prop :=
  Reads p ts a ∧ ∀ rest, begins (ts ++ rest) = true

theorem ReadsNext.mono {α : Type} {begins starts : List Token → Bool} {p : Parser α}
    {ts : List Token} {a : α} (h : ReadsNext begins p ts a)
    (weaker : ∀ ts, begins ts = true → starts ts = true) : ReadsNext starts p ts a :=
  ⟨h.1, fun rest => weaker _ (h.2 rest)⟩

/-- Rows that are read one by one are read one after the other. -/
theorem many_rows {α : Type} {begins : List Token → Bool} {p : Parser α}
    {rows : List (List Token)} {as : List α} (h : List.Forall₂ (ReadsNext begins p) rows as)
    {rest : List Token} (stop : begins rest = false) {more : Nat} (enough : rows.length < more) :
    many begins p more (rows.flatten ++ rest) = some (as, rest) := by
  induction h generalizing more with
  | nil =>
    obtain ⟨more, rfl⟩ := Nat.exists_eq_succ_of_ne_zero (Nat.ne_of_gt enough)
    rw [List.flatten_nil, List.nil_append, many, stop]
    rfl
  | @cons row a rows as first others ih =>
    obtain ⟨more, rfl⟩ := Nat.exists_eq_succ_of_ne_zero (Nat.ne_zero_of_lt enough)
    have others := ih (Nat.lt_of_succ_lt_succ enough)
    rw [List.flatten_cons, List.append_assoc, many, first.2, if_pos rfl, first.1]
    simp [others]

/-- What stands here is neither the end of a group nor an attribute of what it is in. -/
def opens (ts : List Token) : Bool := !ends ts && !startsInner ts

section Groups

variable {α : Type} {g : Grammar} {p : Parser α} {rows : List (List Token)} {as : List α}
  {more : Nat}

theorem all_rows (h : List.Forall₂ (ReadsNext opens p) rows as) (enough : rows.length < more)
    (rest : List Token) (stop : ends rest = true) :
    all p more (rows.flatten ++ rest) = some (as, rest) := by
  have begun : List.Forall₂ (ReadsNext (fun ts => !ends ts) p) rows as :=
    h.imp fun _ _ row => row.mono fun ts opened => by
      simp only [opens, Bool.and_eq_true] at opened
      exact opened.1
  exact many_rows begun (by simp [stop]) enough

theorem innerAttributes_rows (h : List.Forall₂ (ReadsNext opens p) rows as)
    (some_more : 0 < g.more) (d : Delim) (rest : List Token) :
    innerAttributes g (rows.flatten ++ .closing d :: rest) =
      some ([], rows.flatten ++ .closing d :: rest) := by
  refine innerAttributes_none some_more ?_
  cases h with
  | nil => rfl
  | @cons row a rows as first others =>
    have opened := first.2 (rows.flatten ++ .closing d :: rest)
    simp only [opens, Bool.and_eq_true, Bool.not_eq_true'] at opened
    rw [List.flatten_cons, List.append_assoc]
    exact opened.2

/-- There are at most as many rows as tokens. -/
theorem length_le_flatten (h : List.Forall₂ (ReadsNext opens p) rows as) :
    rows.length ≤ rows.flatten.length := by
  induction h with
  | nil => exact Nat.le_refl 0
  | @cons row a rows as first others ih =>
    have some_token : 0 < row.length := by
      refine List.length_pos_iff.mpr ?_
      rintro rfl
      cases first.2 []
    rw [List.flatten_cons, List.length_append, List.length_cons]
    omega

end Groups

section Attributes

variable {g : Grammar}

theorem outerAttributes_rows {rows : List (List Token)} {as : List Attribute}
    (h : List.Forall₂ (ReadsNext startsAttribute (outerAttribute g)) rows as)
    (enough : rows.length < g.more) {rest : List Token} (stop : startsAttribute rest = false) :
    outerAttributes g (rows.flatten ++ rest) = some (as, rest) := many_rows h stop enough

/-- A literal that is all there is of an expression. -/
theorem value_literal (more depth : Nat) (text : String) {rest : List Token}
    (ending : (∃ d ts, rest = .closing d :: ts) ∨ ∃ joint ts, rest = .punct ';' joint :: ts) :
    (Grammar.nested (more + 2) (depth + 2)).value (.literal text :: rest) =
      some (.literal text, rest) := by
  rcases ending with ⟨d, ts, rfl⟩ | ⟨joint, ts, rfl⟩
  · cases d <;> rfl
  · cases joint <;> rfl

/-- A literal in quotes is none of the words that count as literals. -/
theorem literalTokens_quoted {text : String} (h : text.toList.head? = some '"') :
    literalTokens false text = [.literal text] := by
  have other {w : String} (hw : w.toList.head? ≠ some '"') : text ≠ w := by
    rintro rfl
    exact hw h
  have truth : text ≠ "true" := other (by decide)
  have falsehood : text ≠ "false" := other (by decide)
  simp [literalTokens, truth, falsehood]

end Attributes

end Parser

/-- Documentation of what follows, as an attribute. -/
def docAttribute (text : String) : Attribute :=
  ⟨false, ⟨false, [Ident.plain "doc"]⟩, .value ⟨[.literal (quoteGuarded text)], rfl⟩⟩

/-- A name as a type. -/
def nameTy (i : Ident) : Ty := .path (.plain (.mk false [.mk i .none]))

namespace Parser

theorem outerAttribute_doc (more depth : Nat) (text : String) :
    ReadsNext startsAttribute (outerAttribute (Grammar.nested (more + 2) (depth + 2)))
      (Item.docTokens text) (docAttribute text) := by
  refine ⟨fun rest => ?_, fun rest => rfl⟩
  have value := value_literal more depth (quoteGuarded text) (.inl ⟨.bracket, rest, rfl⟩)
  have row : (Grammar.nested (more + 2) (depth + 2)).valueRow
      (.literal (quoteGuarded text) :: .closing .bracket :: rest) =
        some (⟨[.literal (quoteGuarded text)], rfl⟩, .closing .bracket :: rest) := by
    have spelled : literalTokens false (quoteGuarded text) = [.literal (quoteGuarded text)] :=
      literalTokens_quoted (by rw [quoteGuarded, String.toList_ofList]; rfl)
    have closed : Closed [.literal (quoteGuarded text)] := rfl
    rw [Grammar.valueRow, value]
    simp [Expr.tokens, spelled, Row.of?, closed]
  have body : attributeBody (Grammar.nested (more + 2) (depth + 2))
      (.punct '=' false :: .literal (quoteGuarded text) :: .closing .bracket :: rest) =
        some (.value ⟨[.literal (quoteGuarded text)], rfl⟩, .closing .bracket :: rest) := by
    simp [attributeBody, anyGroup?, after?, attributeValue, startsAttribute, starts, row]
  have path : attributePath? (word "doc" :: .punct '=' false :: .literal (quoteGuarded text) ::
      .closing .bracket :: rest) = some (⟨false, [Ident.plain "doc"]⟩, .punct '=' false ::
        .literal (quoteGuarded text) :: .closing .bracket :: rest) := rfl
  simp [Item.docTokens, Lexer.docTokens, outerAttribute, grouped, group, opening?, closing?,
    attributeContent, path, body, docAttribute]

section Items

variable {g : Grammar} {i : Ident}

/-- A structure without fields, from its word on. -/
theorem structItem_unit (h : i.isName = true) (front : Front) (joint : Bool) :
    Reads (structItem g front) [word "struct", .ident i, .punct ';' joint]
      (.data front.attributes front.visibility false i .empty .unit) := by
  intro rest
  have params : genericList g (.punct ';' joint :: rest) = some ([], .punct ';' joint :: rest) := by
    simp [genericList, sign?_ne]
  have conditions : whereClause g (.punct ';' joint :: rest) =
      some ([], .punct ';' joint :: rest) := rfl
  have body : structBody g (.punct ';' joint :: rest) = some ((.unit, []), rest) := by
    simp [structBody, starting, conditions]
  simp [structItem, word?, word, h, params, body, Generics.empty]

/-- A constant from its word on, given what its type and its value are read as before the signs
that follow them. -/
theorem constant_rows (h : i.isName = true) (colon : Bool) {equals semicolon : Bool}
    {type value : List Token} {t : Ty} {e : Expr}
    (ht : ∀ rest, g.ty true (type ++ .punct '=' equals :: rest) =
      some (t, .punct '=' equals :: rest))
    (he : ∀ rest, g.value (value ++ .punct ';' semicolon :: rest) =
      some (e, .punct ';' semicolon :: rest)) (site : Site) :
    Reads (constant g site)
      (word "const" :: .ident i :: .punct ':' colon ::
        (type ++ .punct '=' equals :: (value ++ [.punct ';' semicolon])))
      (some (.constant i t (some e))) := by
  intro rest
  have params : ∀ ts, genericList g (.punct ':' colon :: ts) =
      some ([], .punct ':' colon :: ts) := fun ts => by simp [genericList, sign?_ne]
  have conditions : whereClause g (.punct ';' semicolon :: rest) =
      some ([], .punct ';' semicolon :: rest) := rfl
  have name : ∀ ts, nameOrBlank? (.ident i :: ts) = some (i, ts) := fun ts => by
    simp [nameOrBlank?, startsWord_name _ h, keywords, h]
  have row : word "const" :: .ident i :: .punct ':' colon ::
      (type ++ .punct '=' equals :: (value ++ [.punct ';' semicolon])) ++ rest =
        word "const" :: .ident i :: .punct ':' colon ::
          (type ++ .punct '=' equals :: (value ++ .punct ';' semicolon :: rest)) := by simp
  rw [row]
  simp [constant, word?, word, name, starts, sign?_ne, params, conditions, ht, he, after?,
    startsWord]

/-- A constant is not taken for a function that may run while the code is compiled. -/
theorem startsSignature_constant (h : i.isName = true) (ts : List Token) :
    startsSignature .impl (word "const" :: .ident i :: ts) = false := by
  have other {w : String} (hw : keywords.contains w = true) : word? w (.ident i :: ts) = none :=
    word?_name ts h hw
  have check : markCheck .impl (.ident i :: ts) = (false, .ident i :: ts) := by
    simp [markCheck, checkWords, startsWord_name ts h (w := "unsafe") (by decide)]
  have front : word? "const" (word "const" :: .ident i :: ts) = some (.ident i :: ts) := rfl
  simp [startsSignature, markWord, front, other, keywords, check, abi?, startsWord_name ts h]

/-- A member of an implementation that can be seen from everywhere. -/
theorem member_constant (h : i.isName = true) (colon : Bool) {equals semicolon : Bool}
    {type value : List Token} {t : Ty} {e : Expr} (more : 0 < g.more)
    (ht : ∀ rest, g.ty true (type ++ .punct '=' equals :: rest) =
      some (t, .punct '=' equals :: rest))
    (he : ∀ rest, g.value (value ++ .punct ';' semicolon :: rest) =
      some (e, .punct ';' semicolon :: rest)) :
    ReadsNext opens (member g .impl)
      (word "pub" :: word "const" :: .ident i :: .punct ':' colon ::
        (type ++ .punct '=' equals :: (value ++ [.punct ';' semicolon])))
      ⟨[], .everywhere, false, .constant i t (some e)⟩ := by
  refine ⟨fun rest => ?_, fun rest => rfl⟩
  have body := constant_rows h colon ht he .impl rest
  let row := word "const" :: .ident i :: .punct ':' colon ::
    (type ++ .punct '=' equals :: (value ++ [.punct ';' semicolon])) ++ rest
  have attributes : outerAttributes g (word "pub" :: row) = some ([], word "pub" :: row) :=
    outerAttributes_none more rfl
  have seen : visibility (word "pub" :: row) = some (.everywhere, row) := rfl
  have signature : startsSignature .impl row = false := startsSignature_constant h _
  have begins : startsMember .impl row = true := by
    rw [startsMember, signature]
    rfl
  have taken : memberBody g .impl row = constant g .impl row := by
    rw [memberBody, signature]
    rfl
  have kept : startsDefault .impl row = false := rfl
  show member g .impl (word "pub" :: row) = _
  simp only [member, attributes, seen, kept, begins, taken, Option.bind_eq_bind, Option.bind_some,
    if_true, Bool.false_eq_true, if_false]
  rw [show constant g .impl row = _ from body]
  rfl

theorem members_rows {site : Site} {rows : List (List Token)} {ms : List Member}
    (h : List.Forall₂ (ReadsNext opens (member g site)) rows ms) (enough : rows.length < g.more) :
    Reads (members g site) (group .brace rows.flatten) ⟨[], ms⟩ := by
  intro rest
  have inner := innerAttributes_rows h (Nat.zero_lt_of_lt enough) .brace rest
  have list := all_rows h enough (.closing .brace :: rest) rfl
  simp [members, grouped, group, opening?, closing?, inner, list]

/-- The members of a type, from the word of the implementation on. -/
theorem implItem_rows (ht : ∀ ts, g.ty true (.ident i :: .opening .brace :: ts) =
      some (nameTy i, .opening .brace :: ts)) (h : i.isName = true)
    (attributes : List Attribute) {rows : List (List Token)} {ms : List Member}
    (hm : List.Forall₂ (ReadsNext opens (member g .impl)) rows ms) (enough : rows.length < g.more) :
    Reads (implItem g ⟨attributes, .inherited⟩) (word "impl" :: .ident i :: group .brace rows.flatten)
      (some (.impl attributes false false .empty none (nameTy i) ⟨[], ms⟩)) := by
  intro rest
  let content := group .brace rows.flatten ++ rest
  have content_eq : content = .opening .brace :: (rows.flatten ++ .closing .brace :: rest) := by
    simp [content, group]
  have generics : startsImplGenerics (.ident i :: content) = false := by
    simp [startsImplGenerics, starts]
  have target : implTarget g (.ident i :: content) = some (some (none, nameTy i), content) := by
    rw [content_eq]
    simp [implTarget, starts, ht, word?]
  have conditions : whereClause g content = some ([], content) := by
    rw [content_eq]
    rfl
  have marked : constTrait (.ident i :: content) = (false, .ident i :: content) := by
    simp [constTrait, mark, startsWord_name _ h, keywords]
  have list : members g .impl content = some (⟨[], ms⟩, rest) := members_rows hm enough rest
  have front : markWord "default" (word "impl" :: .ident i :: content) =
      (false, word "impl" :: .ident i :: content) := rfl
  have unchecked : markWord "unsafe" (word "impl" :: .ident i :: content) =
      (false, word "impl" :: .ident i :: content) := rfl
  have lead : word? "impl" (word "impl" :: .ident i :: content) = some (.ident i :: content) := rfl
  show implItem g ⟨attributes, .inherited⟩ (word "impl" :: .ident i :: content) = _
  simp [implItem, front, unchecked, lead, generics, marked, target, conditions, list,
    Generics.empty]

/-- A module, from its word on. -/
theorem moduleItem_rows (h : i.isName = true) (front : Front) {rows : List (List Token)}
    {items : List Item} (hi : List.Forall₂ (ReadsNext opens g.item) rows items)
    (enough : rows.length < g.more) :
    Reads (moduleItem g front) (word "mod" :: .ident i :: group .brace rows.flatten)
      (.module front.attributes front.visibility false i [] items) := by
  intro rest
  have inner := innerAttributes_rows hi (Nat.zero_lt_of_lt enough) .brace rest
  have list := all_rows hi enough (.closing .brace :: rest) rfl
  let content := group .brace rows.flatten ++ rest
  have content_eq : content = .opening .brace :: (rows.flatten ++ .closing .brace :: rest) := by
    simp [content, group]
  have unchecked : markWord "unsafe" (word "mod" :: .ident i :: content) =
      (false, word "mod" :: .ident i :: content) := rfl
  have lead : word? "mod" (word "mod" :: .ident i :: content) = some (.ident i :: content) := rfl
  have inside : sign? [';'] content = none := by simp [content_eq]
  show moduleItem g front (word "mod" :: .ident i :: content) = _
  simp only [moduleItem, unchecked, lead, Option.bind_eq_bind, Option.bind_some,
    startsWord_name _ h (w := "try") (by decide), Bool.false_eq_true, if_false,
    name?_of_isName _ h, inside]
  rw [content_eq]
  simp [grouped, opening?, closing?, inner, list]

/-- An item after its attributes; `seen` is the item with its visibility, and `body` without. -/
theorem item_rows {attributes : List (List Token)} {as : List Attribute}
    (ha : List.Forall₂ (ReadsNext startsAttribute (outerAttribute g)) attributes as)
    (enough : attributes.length < g.more) {seen body : List Token} {v : Visibility} {it : Item}
    (plain : ∀ rest, startsAttribute (seen ++ rest) = false)
    (hv : ∀ rest, visibility (seen ++ rest) = some (v, body ++ rest))
    (hb : Reads (itemAfter g ⟨as, v⟩) body (some it)) :
    Reads (item g) (attributes.flatten ++ seen) it := by
  intro rest
  have front := outerAttributes_rows ha enough (plain rest)
  have after := hb rest
  rw [List.append_assoc]
  simp [item, front, hv, after]

/-- A structure without fields that is documented. -/
theorem item_unit (h : i.isName = true) (more depth : Nat) (text : String) :
    Reads (item (Grammar.nested (more + 2) (depth + 2)))
      (Item.docTokens text ++ Item.publicTokens (Item.unitTokens i))
      (.data [docAttribute text] .everywhere false i .empty .unit) := by
  let g := Grammar.nested (more + 2) (depth + 2)
  let front : Front := ⟨[docAttribute text], .everywhere⟩
  have documented := List.Forall₂.cons (outerAttribute_doc more depth text) .nil
  have unit : Reads (itemAfter g front) (Item.unitTokens i)
      (some (.data [docAttribute text] .everywhere false i .empty .unit)) := by
    intro rest
    have read := structItem_unit (g := g) h front false rest
    exact congrArg (Option.map fun r : Item × List Token => (some r.1, r.2)) read
  have seen (rest : List Token) : visibility (Item.publicTokens (Item.unitTokens i) ++ rest) =
      some (.everywhere, Item.unitTokens i ++ rest) := rfl
  have item := item_rows documented (Nat.succ_lt_succ (Nat.succ_pos _)) (fun _ => rfl) seen unit
  rwa [List.flatten_singleton] at item

/-- An implementation that holds the members of a type. -/
theorem item_impl {more depth : Nat} (h : i.isName = true) {rows : List (List Token)}
    {ms : List Member}
    (hm : List.Forall₂ (ReadsNext opens (member (Grammar.nested more (depth + 1)) .impl)) rows ms)
    (enough : rows.length < more) :
    Reads (item (Grammar.nested more (depth + 1))) (Item.implTokens i rows.flatten)
      (.impl [] false false .empty none (nameTy i) ⟨[], ms⟩) := by
  let g := Grammar.nested more (depth + 1)
  have some_more : 0 < (Grammar.nested more depth).more := by
    rw [Grammar.nested_more]
    exact Nat.zero_lt_of_lt enough
  have self (ts : List Token) : g.ty true (.ident i :: .opening .brace :: ts) =
      some (nameTy i, .opening .brace :: ts) := ty_name h some_more rfl true
  have members := implItem_rows self h [] hm enough
  exact item_rows .nil (Nat.zero_lt_of_lt enough) (fun _ => rfl) (fun _ => rfl) members

end Items

end Parser

end TypedDecl.Code
