import TypedDecl.Proofs.Reading.Operands

namespace TypedDecl.Code.Parser

open Code.Path (leadTokens)
open Token (word operator group)

variable {g : Grammar} {i j : Ident} {is : List Ident} {ts rest : List Token}

section Bodies

/-- What stands here begins neither a statement of its own kind nor an item. -/
structure BeginsValue (ts : List Token) : Prop where
  hash : starts ['#'] ts = false
  ending : ends ts = false
  semicolon : sign? [';'] ts = none
  binding : startsWord "let" ts = false
  flow : startsStatementLike ts = false
  item : startsItem ts = false
  call : macroStatement? [] ts = none
  definition : startsMacroItem ts = false

theorem beginsValue_self (d : Delim) (ts : List Token) :
    BeginsValue (word "Self" :: .opening d :: ts) where
  hash := rfl
  ending := rfl
  semicolon := rfl
  binding := rfl
  flow := rfl
  item := rfl
  call := rfl
  definition := rfl

theorem pathNames_lead (named : ∀ i ∈ is, i.isName = true) (last : j.isName = true)
    (ends : sign? colons rest = none) :
    pathNames (leadTokens is ++ .ident j :: rest) = some (is ++ [j], rest) := by
  induction is with
  | nil =>
    rw [leadTokens, List.flatMap_nil, List.nil_append, pathNames]
    · simp [last]
    · rintro joint ts rfl
      cases ends
  | cons i is ih =>
    rw [List.forall_mem_cons] at named
    have row : leadTokens (i :: is) ++ .ident j :: rest =
        .ident i :: .punct ':' true :: .punct ':' false :: (leadTokens is ++ .ident j :: rest) := rfl
    rw [row, pathNames, ih named.2]
    simp [named.1]

theorem beginsValue_call (named : ∀ i ∈ is, i.isName = true) (last : j.isName = true)
    (ts : List Token) : BeginsValue (leadTokens is ++ .ident j :: .opening .paren :: ts) := by
  have plain : starts ['#'] (.opening .paren :: ts) = false := rfl
  have front : sign? colons (leadTokens is ++ .ident j :: .opening .paren :: ts) = none := by
    cases is <;> rfl
  have names : pathNames (leadTokens is ++ .ident j :: .opening .paren :: ts) =
      some (is ++ [j], .opening .paren :: ts) := pathNames_lead named last rfl
  have path : plainPath? (leadTokens is ++ .ident j :: .opening .paren :: ts) =
      some (⟨false, is ++ [j]⟩, .opening .paren :: ts) := by
    simp [plainPath?, mark, front, names]
  have call : macroStatement? [] (leadTokens is ++ .ident j :: .opening .paren :: ts) = none := by
    simp [macroStatement?, path, macroArgs]
  have definition : startsMacroItem (leadTokens is ++ .ident j :: .opening .paren :: ts) = false := by
    simp [startsMacroItem, path, starts]
  have begun : ∃ k t ks, leadTokens is ++ .ident j :: .opening .paren :: ts = .ident k :: t :: ks ∧
      k.isName = true ∧ ∀ i, t ≠ .ident i := by
    cases is with
    | nil => exact ⟨j, _, ts, rfl, last, by simp⟩
    | cons i is => exact ⟨i, _, _, rfl, named i (by simp), by simp⟩
  obtain ⟨k, t, ks, row, name, other⟩ := begun
  rw [row] at call definition ⊢
  have word (w : String) : startsWord w (t :: ks) = false := by
    cases t <;> first | rfl | exact absurd rfl (other _)
  have noname : startsName (t :: ks) = false := by
    cases t <;> first | rfl | exact absurd rfl (other _)
  exact {
    hash := by simp [starts]
    ending := rfl
    semicolon := by simp
    binding := startsWord_name _ name (by decide)
    flow := by
      simp [startsStatementLike, startsWord_name _ name, keywords, starting, startsLifetime,
        lifetime?]
    item := by
      simp [startsItem, startsStatic, startsConstItem, startsAsyncItem, startsWord_name _ name,
        keywords, word, noname]
    call
    definition }

variable {e : Expr}

/-- An operand as a statement. -/
theorem early_of_operand {more depth : Nat} (h : Operand (Grammar.nested more depth) 0 ts e)
    (some_more : 0 < more) (begun : BeginsValue (ts ++ rest)) (ends : endsValue rest = true) :
    (Grammar.nested more (depth + 1)).early (ts ++ rest) = some (e, rest) := by
  have operand := h more some_more rest ends
  have attributes : outerAttributes (Grammar.nested more depth) (ts ++ rest) =
      some ([], ts ++ rest) := outerAttributes_none (by simpa using some_more) begun.hash
  have read : (Grammar.nested more (depth + 1)).early (ts ++ rest) =
      early (Grammar.nested more depth) (ts ++ rest) := rfl
  have after := operations_endsValue (g := Grammar.nested more depth) ends true 0 some_more e
  simp [read, early, attributes, begun.flow, operand, Expr.withAttributes, after]

/-- The last statement of a block, which gives its value. -/
theorem statements_value {d : Delim}
    (read : g.early (ts ++ .closing d :: rest) = some (e, .closing d :: rest))
    (begun : BeginsValue (ts ++ .closing d :: rest)) (kind : ∀ m, e.bare ≠ .macroCall m)
    (own : e.attach [] = e) (some_more : 0 < g.more) {more : Nat} (enough : 1 < more) :
    statements g more (ts ++ .closing d :: rest) = some ([.expr e false], .closing d :: rest) := by
  obtain ⟨more, rfl⟩ : ∃ n, more = n + 2 := ⟨more - 2, by omega⟩
  have attributes : outerAttributes g (ts ++ .closing d :: rest) =
      some ([], ts ++ .closing d :: rest) := outerAttributes_none some_more begun.hash
  have value : exprStatement g [] (ts ++ .closing d :: rest) =
      some (.expr e false, .closing d :: rest) := by
    simp only [exprStatement, read, Option.bind_eq_bind, Option.bind_some, own]
    have unmarked : mark [';'] (.closing d :: rest) = (false, .closing d :: rest) := by
      simp [mark]
    rw [unmarked]
    rfl
  have here : statement g (ts ++ .closing d :: rest) = some (.expr e false, .closing d :: rest) := by
    simp [statement, attributes, begun.call, begun.binding, begun.item, begun.definition, value]
  have stop : ends (.closing d :: rest) = true := rfl
  rw [statements, begun.ending, begun.semicolon]
  simp [here, stop, statements]

/-- A name that is bound, and the statements after it. -/
theorem statements_let {bound : Ident} {row after : List Token} {ss : List Stmt} {more : Nat}
    (pattern : ∀ ts, g.pat (.ident bound :: .punct '=' false :: ts) =
      some (.name false false bound none, .punct '=' false :: ts))
    (value : Value g row e) (some_more : 0 < g.more)
    (behind : statements g more after = some (ss, rest)) :
    statements g (more + 1) (word "let" :: .ident bound :: .punct '=' false ::
        (row ++ .punct ';' false :: after)) =
      some (.bind [] (.name false false bound none) none (some e) none :: ss, rest) := by
  let line := word "let" :: .ident bound :: .punct '=' false :: (row ++ .punct ';' false :: after)
  have read := (value (.punct ';' false :: after) rfl).1
  have attributes : outerAttributes g line = some ([], line) := outerAttributes_none some_more rfl
  have call : macroStatement? [] line = none := rfl
  have binding : startsWord "let" line = true := rfl
  have word : word? "let" line = some (.ident bound :: .punct '=' false ::
    (row ++ .punct ';' false :: after)) := rfl
  have given : bindValue g (.punct '=' false :: (row ++ .punct ';' false :: after)) =
      some ((some e, none), .punct ';' false :: after) := by
    simp [bindValue, read, word?]
  have here : statement g line =
      some (.bind [] (.name false false bound none) none (some e) none, after) := by
    simp [statement, attributes, call, binding, bind, word, pattern, after?, sign?_ne, given]
  have begun : ends line = false := rfl
  have semicolon : sign? [';'] line = none := rfl
  show statements g (more + 1) line = _
  rw [statements, begun, semicolon]
  simp [here, Stmt.isOpen, behind]

/-- A block of statements. -/
theorem block_statements {more depth : Nat} {row : List Token} {ss : List Stmt} (some_more : 0 < more)
    (plain : ∀ rest, startsInner (row ++ .closing .brace :: rest) = false)
    (read : ∀ rest, statements (Grammar.nested more depth) more (row ++ .closing .brace :: rest) =
      some (ss, .closing .brace :: rest)) (inner : Bool) :
    Reads ((Grammar.nested more (depth + 1)).block inner) (group .brace row) (.mk [] ss) := by
  intro rest
  have attributes : innerAttributes (Grammar.nested more depth) (row ++ .closing .brace :: rest) =
      some ([], row ++ .closing .brace :: rest) :=
    innerAttributes_none (by simpa using some_more) (plain rest)
  have reader : (Grammar.nested more (depth + 1)).block inner (group .brace row ++ rest) =
      block (Grammar.nested more depth) inner (group .brace row ++ rest) := rfl
  rw [reader]
  cases inner <;> simp [block, grouped, group, opening?, closing?, attributes, read]

/-- A block that is a call of what names tell. -/
theorem block_operand {more depth : Nat} {row : List Token}
    (h : Operand (Grammar.nested more depth) 0 row e) (several : 1 < more)
    (begun : ∀ rest, BeginsValue (row ++ .closing .brace :: rest))
    (kind : ∀ m, e.bare ≠ .macroCall m) (own : e.attach [] = e) (inner : Bool) :
    Reads ((Grammar.nested more (depth + 2)).block inner) (group .brace row)
      (.mk [] [.expr e false]) := by
  refine block_statements (Nat.zero_lt_of_lt several) (fun rest => ?_) (fun rest => ?_) inner
  · simp [startsInner, startsAttribute, (begun rest).hash]
  · have stop : endsValue (.closing .brace :: rest) = true := rfl
    have early := early_of_operand h (Nat.zero_lt_of_lt several) (begun rest) stop
    exact statements_value early (begun rest) kind own (by simp; omega) several

end Bodies

section Functions

/-- A name that is bound to a value of a type. -/
def namedParam (i : Ident) (t : Ty) : FnParam := .typed [] (.name false false i none) t

variable {t : Ty}

/-- A parameter with its type. -/
theorem fnParam_named (named : i.isName = true)
    (pattern : ∀ ts, g.pat (.ident i :: .punct ':' false :: ts) =
      some (.name false false i none, .punct ':' false :: ts))
    (plain : sign? dots ts = none) (read : g.ty true ts = some (t, rest)) :
    receiver g [] (.ident i :: .punct ':' false :: ts) = none ∧
      fnParam g [] (.ident i :: .punct ':' false :: ts) = some (.inl (namedParam i t), rest) := by
  let row := .ident i :: .punct ':' false :: ts
  have writable : word? "mut" row = none := word?_name _ named (by decide)
  have self : word? "self" row = none := word?_name _ named (by decide)
  have dots : sign? Parser.dots row = none := by simp [row, Parser.dots]
  have borrowed : sign? ['&'] row = none := by simp [row]
  have nameless : namelessParam g [] row = none := by
    simp [namelessParam, row, starts, sign?_ne]
  refine ⟨?_, ?_⟩
  · show receiver g [] row = none
    simp [receiver, after?, borrowed, markWord, writable, self]
  · show fnParam g [] row = _
    rw [fnParam, dots, nameless]
    simp [row, pattern, plain, read, namedParam]

/-- In a list the row is read as a parameter; a receiver must be the first one. -/
def ReadsParam (g : Grammar) (first : Bool) (row : List Token) (p : FnParam) : Prop :=
  ∀ rest, (∃ d ts, rest = .closing d :: ts) ∨ (∃ ts, rest = .punct ',' false :: ts) →
    ends (row ++ rest) = false ∧ startsAttribute (row ++ rest) = false ∧
      (first = true ∧ receiver g [] (row ++ rest) = some (p, rest) ∨
        receiver g [] (row ++ rest) = none ∧ fnParam g [] (row ++ rest) = some (.inl p, rest))

inductive ReadsParams (g : Grammar) : Bool → List (List Token) → List FnParam → Prop
  | nil (first : Bool) : ReadsParams g first [] []
  | cons {first : Bool} {row : List Token} {p : FnParam} {rows : List (List Token)}
      {ps : List FnParam} (h : ReadsParam g first row p) (others : ReadsParams g false rows ps) :
      ReadsParams g first (row :: rows) (p :: ps)

theorem readsParam_named {row : List Token} (named : i.isName = true)
    (pattern : ∀ ts, g.pat (.ident i :: .punct ':' false :: ts) =
      some (.name false false i none, .punct ':' false :: ts))
    (plain : ∀ rest, sign? dots (row ++ rest) = none)
    (read : ∀ rest, (∃ d ts, rest = .closing d :: ts) ∨ (∃ ts, rest = .punct ',' false :: ts) →
      g.ty true (row ++ rest) = some (t, rest)) (first : Bool) :
    ReadsParam g first (.ident i :: .punct ':' false :: row) (namedParam i t) := by
  intro rest stop
  refine ⟨rfl, by simp [startsAttribute, starts], .inr ?_⟩
  exact fnParam_named named pattern (plain rest) (read rest stop)

/-- Parameters with commas between them, and perhaps one behind the last. -/
theorem fnParams_listed {first : Bool} {rows : List (List Token)} {ps : List FnParam}
    (h : ReadsParams g first rows ps) (some_more : 0 < g.more) {more : Nat}
    (enough : rows.length < more) {trailing : Bool} (some_row : ps = [] → trailing = false)
    (d : Delim) (rest : List Token) :
    fnParams g more first (Item.argTokens rows ++ commaIf trailing ++ Token.closing d :: rest) =
      some ((ps, none), .closing d :: rest) := by
  have stop (more : Nat) (some_more : 0 < more) :
      fnParams g more false (Token.closing d :: rest) = some (([], none), .closing d :: rest) := by
    obtain ⟨more, rfl⟩ := Nat.exists_eq_succ_of_ne_zero (Nat.ne_of_gt some_more)
    rfl
  -- One parameter, in front of the comma or the end that follows it.
  have step {first : Bool} {row : List Token} {p : FnParam} (read : ReadsParam g first row p)
      (more : Nat) (after : List Token)
      (next : (∃ d ts, after = .closing d :: ts) ∨ (∃ ts, after = .punct ',' false :: ts)) :
      fnParams g (more + 1) first (row ++ after) =
        (if ends after then some after else sign? [','] after).bind fun ts =>
          (fnParams g more false ts).bind fun r => some ((p :: r.1.1, r.1.2), r.2) := by
    obtain ⟨begun, plain, read⟩ := read after next
    have attributes := outerAttributes_none some_more plain
    rw [fnParams, begun]
    rcases read with ⟨rfl, own⟩ | ⟨own, param⟩
    · simp only [Bool.false_eq_true, if_false, attributes, own, Option.bind_eq_bind,
        Option.bind_some, if_true]
      split <;> rfl
    · simp only [Bool.false_eq_true, if_false, attributes, own, param, Option.bind_eq_bind,
        Option.bind_some]
      split <;> rfl
  induction h generalizing more with
  | nil first =>
    obtain ⟨more, rfl⟩ := Nat.exists_eq_succ_of_ne_zero (Nat.ne_of_gt enough)
    rw [some_row rfl]
    rfl
  | @cons first row p rows ps read others ih =>
    obtain ⟨more, rfl⟩ := Nat.exists_eq_succ_of_ne_zero (Nat.ne_zero_of_lt enough)
    have left : 0 < more := Nat.zero_lt_of_lt (Nat.lt_of_succ_lt_succ enough)
    cases others with
    | nil =>
      rw [argTokens_singleton, List.append_assoc]
      cases trailing with
      | false =>
        have row_eq : commaIf false ++ Token.closing d :: rest = Token.closing d :: rest := rfl
        have last : ends (Token.closing d :: rest) = true := rfl
        rw [row_eq, step read more _ (.inl ⟨_, _, rfl⟩), if_pos last, Option.bind_some, stop more left]
        rfl
      | true =>
        have row_eq : commaIf true ++ Token.closing d :: rest =
            Token.punct ',' false :: .closing d :: rest := rfl
        have comma : ends (Token.punct ',' false :: .closing d :: rest) = false := rfl
        rw [row_eq, step read more _ (.inr ⟨_, rfl⟩), comma]
        simp [stop more left]
    | @cons _ second q rows qs next others =>
      let behind := Item.argTokens (second :: rows) ++ commaIf trailing ++ Token.closing d :: rest
      have row_eq : Item.argTokens (row :: second :: rows) ++ commaIf trailing ++
          Token.closing d :: rest = row ++ Token.punct ',' false :: behind := by
        simp [behind, argTokens_cons]
      have after : fnParams g more false behind = some ((q :: qs, none), .closing d :: rest) :=
        ih (Nat.lt_of_succ_lt_succ enough) fun none => absurd none (List.cons_ne_nil _ _)
      have comma : ends (Token.punct ',' false :: behind) = false := rfl
      rw [row_eq, step read more _ (.inr ⟨_, rfl⟩), comma]
      simp [after]

/-- A function with nothing before its own word. -/
def plainSignature (i : Ident) (ps : List FnParam) (t : Ty) : Signature :=
  ⟨false, false, false, none, i, .empty, ps, none, some t⟩

theorem function_rows (named : i.isName = true) {params output body : List Token}
    {ps : List FnParam} {b : Block}
    (hp : ∀ rest, fnParams g g.more true (params ++ .closing .paren :: rest) =
      some ((ps, none), .closing .paren :: rest))
    (ho : ∀ rest, g.ty true (output ++ .opening .brace :: rest) =
      some (t, .opening .brace :: rest))
    (hb : Reads (g.block true) (group .brace body) b) :
    Reads (function g .impl) (Item.functionTokens i params output body)
      (some (.function (plainSignature i ps t) (some b))) := by
  intro rest
  let content := group .brace body ++ rest
  have content_eq : content = .opening .brace :: (body ++ .closing .brace :: rest) := by
    simp [content, group]
  let behind := operator arrow ++ (output ++ content)
  let args := .opening .paren :: (params ++ .closing .paren :: behind)
  let row := word "fn" :: .ident i :: args
  have row_eq : Item.functionTokens i params output body ++ rest = row := by
    simp [row, args, behind, content, Item.functionTokens, group]
  have block : g.block true content = some (b, rest) := hb rest
  have type : g.ty true (output ++ content) = some (t, content) := by
    rw [content_eq]
    exact ho _
  have given : Parser.output g true behind = some (some t, content) := by
    simp [Parser.output, behind, arrow, operator, after?, type]
  have conditions : whereClause g content = some ([], content) := by
    rw [content_eq]
    rfl
  have semicolon : sign? [';'] content = none := by simp [content_eq]
  have parens : grouped .paren (fnParams g g.more true) args = some ((ps, none), behind) := by
    simp [grouped, args, opening?, closing?, hp]
  have generics : genericList g args = some ([], args) := by simp [genericList, args]
  have front : markWord "const" row = (false, row) ∧ markWord "async" row = (false, row) ∧
      markCheck .impl row = (false, row) ∧ abi? row = some (none, row) ∧
      word? "fn" row = some (.ident i :: args) := ⟨rfl, rfl, rfl, rfl, rfl⟩
  have signed : signature g .impl row = some (plainSignature i ps t, content) := by
    simp [signature, front, named, generics, parens, given, conditions, plainSignature,
      Generics.empty]
  rw [row_eq]
  simp [function, signed, semicolon, block]

/-- A member after its attributes; `seen` is the member with its visibility, and `body` without. -/
theorem member_rows {attributes : List (List Token)} {as : List Attribute}
    (ha : List.Forall₂ (ReadsNext startsAttribute (outerAttribute g)) attributes as)
    (enough : attributes.length < g.more) {seen body : List Token} {v : Visibility}
    {b : MemberBody} (plain : ∀ rest, startsAttribute (seen ++ rest) = false)
    (hv : ∀ rest, visibility (seen ++ rest) = some (v, body ++ rest))
    (kept : ∀ rest, startsDefault .impl (body ++ rest) = false)
    (begins : ∀ rest, startsMember .impl (body ++ rest) = true)
    (hb : Reads (memberBody g .impl) body (some b)) :
    Reads (member g .impl) (attributes.flatten ++ seen) ⟨as, v, false, b⟩ := by
  intro rest
  have front := outerAttributes_rows ha enough (plain rest)
  have after := hb rest
  rw [List.append_assoc]
  simp [member, front, hv, kept, begins, after]

/-- The row of what can be seen from everywhere or not. -/
def shownIf (shown : Bool) (row : List Token) : List Token :=
  if shown then Item.publicTokens row else row

/-- A function in an implementation, with its attributes. -/
theorem member_function {attributes : List (List Token)} {as : List Attribute}
    (ha : List.Forall₂ (ReadsNext startsAttribute (outerAttribute g)) attributes as)
    (enough : attributes.length < g.more) (shown : Bool) {params output body : List Token}
    {b : MemberBody}
    (hf : Reads (function g .impl) (Item.functionTokens i params output body) (some b)) :
    Reads (member g .impl)
      (attributes.flatten ++ shownIf shown (Item.functionTokens i params output body))
      ⟨as, if shown then .everywhere else .inherited, false, b⟩ := by
  have body : Reads (memberBody g .impl) (Item.functionTokens i params output body) (some b) := hf
  cases shown with
  | false => exact member_rows ha enough (fun _ => rfl) (fun _ => rfl) (fun _ => rfl) (fun _ => rfl) body
  | true => exact member_rows ha enough (fun _ => rfl) (fun _ => rfl) (fun _ => rfl) (fun _ => rfl) body

/-- A function in an implementation that can be seen from everywhere. -/
theorem member_public {attributes : List (List Token)} {as : List Attribute}
    (ha : List.Forall₂ (ReadsNext startsAttribute (outerAttribute g)) attributes as)
    (enough : attributes.length < g.more) {params output body : List Token} {b : MemberBody}
    (hf : Reads (function g .impl) (Item.functionTokens i params output body) (some b)) :
    Reads (member g .impl)
      (attributes.flatten ++ Item.publicTokens (Item.functionTokens i params output body))
      ⟨as, .everywhere, false, b⟩ :=
  member_function ha enough true hf

/-- A type by another name in an implementation. -/
theorem member_alias (named : i.isName = true) {type : List Token}
    (read : ∀ rest, g.ty true (type ++ .punct ';' false :: rest) =
      some (t, .punct ';' false :: rest)) (some_more : 0 < g.more) :
    Reads (member g .impl) (Item.aliasTokens i type)
      ⟨[], .inherited, false, .typeAlias true i .empty [] (some t)⟩ := by
  have body : Reads (memberBody g .impl) (Item.aliasTokens i type)
      (some (.typeAlias true i .empty [] (some t))) := by
    intro rest
    let behind := .punct '=' false :: (type ++ .punct ';' false :: rest)
    let row := word "type" :: .ident i :: behind
    have row_eq : Item.aliasTokens i type ++ rest = row := by
      simp [row, behind, Item.aliasTokens, operator]
    have front : word? "type" row = some (.ident i :: behind) := rfl
    have generics : genericList g behind = some ([], behind) := by
      simp [genericList, behind, sign?_ne]
    have bounds : aliasBounds g behind = some (none, behind) := by
      simp [aliasBounds, behind, after?, sign?_ne]
    have target : after? ['='] (g.ty true) behind = some (some t, .punct ';' false :: rest) := by
      simp [after?, behind, read]
    have conditions : whereClause g (.punct ';' false :: rest) =
        some ([], .punct ';' false :: rest) := rfl
    have kind : memberBody g .impl row = typeAlias g .impl row := rfl
    rw [row_eq, kind]
    simp [typeAlias, front, named, generics, bounds, target, conditions, Generics.empty]
  exact member_rows .nil some_more (fun _ => rfl) (fun _ => rfl) (fun _ => rfl) (fun _ => rfl) body

end Functions

section Structures

/-- Items with a comma behind each. -/
theorem commas_ended {α : Type} {p : Parser α} {rows : List (List Token)} {as : List α}
    (h : List.Forall₂ (fun row a => ∀ rest, ends (row ++ .punct ',' false :: rest) = false ∧
      p (row ++ .punct ',' false :: rest) = some (a, .punct ',' false :: rest)) rows as)
    {more : Nat} (enough : rows.length < more) (d : Delim) (rest : List Token) :
    commas p more (Item.commaTokens rows ++ .closing d :: rest) =
      some ((as, !as.isEmpty), .closing d :: rest) := by
  induction h generalizing more with
  | nil =>
    obtain ⟨more, rfl⟩ := Nat.exists_eq_succ_of_ne_zero (Nat.ne_of_gt enough)
    rfl
  | @cons row a rows as first others ih =>
    obtain ⟨more, rfl⟩ := Nat.exists_eq_succ_of_ne_zero (Nat.ne_zero_of_lt enough)
    have after := ih (Nat.lt_of_succ_lt_succ enough)
    let behind := Item.commaTokens rows ++ .closing d :: rest
    have row_eq : Item.commaTokens (row :: rows) ++ .closing d :: rest =
        row ++ .punct ',' false :: behind := by
      simp [behind, Item.commaTokens, operator]
    obtain ⟨begun, read⟩ := first behind
    have comma : ends (.punct ',' false :: behind) = false := rfl
    rw [row_eq, commas, separated, begun, read]
    cases others with
    | nil => simp [behind, Item.commaTokens, ends]
    | @cons second b rows as next others =>
      have further : ends behind = false := by
        have begun := (next (Item.commaTokens rows ++ .closing d :: rest)).1
        simpa [behind, Item.commaTokens, operator] using begun
      have list : separated p [','] ends more behind = some ((b :: as, true), .closing d :: rest) :=
        after
      simp [comma, further, list]

variable {t : Ty}

/-- A field, from what tells where it can be seen from on. -/
theorem namedField_row (named : i.isName = true) {v : Visibility} {row : List Token}
    (hv : visibility row = some (v, .ident i :: .punct ':' false :: ts))
    (plain : startsAttribute row = false) (some_more : 0 < g.more)
    (read : g.ty true ts = some (t, rest)) :
    namedField g row = some (⟨[], v, some i, t⟩, rest) := by
  have attributes := outerAttributes_none some_more plain
  have name : nameOrBlank? (.ident i :: .punct ':' false :: ts) = some (i, .punct ':' false :: ts) := by
    simp [nameOrBlank?, startsWord_name _ named, keywords, named]
  simp [namedField, attributes, hv, name, read]

/-- A structure with a field for each row. -/
theorem structItem_record (named : i.isName = true) (front : Front) {rows : List (List Token)}
    {fields : List Field}
    (h : List.Forall₂ (fun row f => ∀ rest, ends (row ++ .punct ',' false :: rest) = false ∧
      namedField g (row ++ .punct ',' false :: rest) = some (f, .punct ',' false :: rest)) rows fields)
    (enough : rows.length < g.more) :
    Reads (structItem g front) (Item.recordTokens i (Item.commaTokens rows))
      (.data front.attributes front.visibility false i .empty (.named fields)) := by
  intro rest
  let content := group .brace (Item.commaTokens rows) ++ rest
  have content_eq : content =
      .opening .brace :: (Item.commaTokens rows ++ .closing .brace :: rest) := by
    simp [content, group]
  have list := commas_ended h enough .brace rest
  have braces : namedFields g content = some (.named fields, rest) := by
    simp [namedFields, grouped, content_eq, opening?, closing?, list]
  have conditions : whereClause g content = some ([], content) := by
    rw [content_eq]
    rfl
  have params : genericList g content = some ([], content) := by
    simp [genericList, content_eq]
  have paren : starting .paren content = false := by
    rw [content_eq]
    rfl
  have semicolon : sign? [';'] content = none := by simp [content_eq]
  have body : structBody g content = some ((.named fields, []), rest) := by
    simp [structBody, paren, conditions, semicolon, braces]
  show structItem g front (word "struct" :: .ident i :: content) = _
  simp [structItem, word?, word, named, params, body, Generics.empty]

/-- A structure around one value that can be seen from everywhere. -/
theorem structItem_tuple (named : i.isName = true) (front : Front) {type : List Token}
    (read : ∀ rest, endsTy rest = true → g.ty true (type ++ rest) = some (t, rest))
    (seen : ∀ rest, visibility (word "pub" :: type ++ rest) = some (.everywhere, type ++ rest))
    (several : 1 < g.more) (trailing : Bool) :
    Reads (structItem g front) (Item.tupleTokens i (Item.publicTokens type ++ commaIf trailing))
      (.data front.attributes front.visibility false i .empty (.tuple [⟨[], .everywhere, none, t⟩])) := by
  intro rest
  obtain ⟨n, hn⟩ : ∃ n, g.more = n + 2 := ⟨g.more - 2, by omega⟩
  let close := .closing .paren :: .punct ';' false :: rest
  let behind := commaIf trailing ++ close
  let field := word "pub" :: type ++ behind
  let content := .opening .paren :: field
  have attributes : outerAttributes g field = some ([], field) :=
    outerAttributes_none (Nat.zero_lt_of_lt several) rfl
  have everywhere : visibility field = some (.everywhere, type ++ behind) := seen behind
  have held : g.ty true (type ++ behind) = some (t, behind) := by
    refine read _ ?_
    cases trailing <;> rfl
  have item : tupleField g field = some (⟨[], .everywhere, none, t⟩, behind) := by
    simp [tupleField, attributes, everywhere, held]
  have begun : ends field = false := rfl
  have stop : ends close = true := rfl
  have list : commas (tupleField g) g.more field =
      some (([⟨[], .everywhere, none, t⟩], trailing), close) := by
    rw [commas, hn, separated, begun, item]
    cases trailing with
    | false =>
      have last : ends behind = true := rfl
      simp only [Bool.false_eq_true, if_false, last, if_true]
      rfl
    | true =>
      have comma : ends behind = false := rfl
      have past : sign? [','] behind = some close := rfl
      simp [comma, past, stop]
  have parens : tupleFields g content =
      some (.tuple [⟨[], .everywhere, none, t⟩], .punct ';' false :: rest) := by
    simp [tupleFields, grouped, content, opening?, list, closing?, close]
  have conditions : whereClause g (.punct ';' false :: rest) =
      some ([], .punct ';' false :: rest) := rfl
  have paren : starting .paren content = true := rfl
  have body : structBody g content = some ((.tuple [⟨[], .everywhere, none, t⟩], []), rest) := by
    simp [structBody, paren, parens, conditions]
  have params : genericList g content = some ([], content) := by
    simp [genericList, content]
  have row : Item.tupleTokens i (Item.publicTokens type ++ commaIf trailing) ++ rest =
      word "struct" :: .ident i :: content := by
    simp [content, field, behind, close, Item.tupleTokens, Item.publicTokens, group, operator]
  rw [row]
  simp [structItem, word?, word, named, params, body, Generics.empty]

/-- The members of a type by way of a trait, from the word of the implementation on. -/
theorem implItem_trait {trait : List Token} {p : Path}
    (lead : ∀ ts, startsImplGenerics (trait ++ ts) = false ∧
      constTrait (trait ++ ts) = (false, trait ++ ts) ∧ starts ['!'] (trait ++ ts) = false)
    (ht : ∀ ts, g.ty true (trait ++ word "for" :: ts) =
      some (.path (.plain p), word "for" :: ts))
    (hi : ∀ ts, g.ty true (.ident i :: .opening .brace :: ts) =
      some (nameTy i, .opening .brace :: ts))
    (attributes : List Attribute) {rows : List (List Token)} {ms : List Member}
    (hm : List.Forall₂ (ReadsNext opens (member g .impl)) rows ms) (enough : rows.length < g.more) :
    Reads (implItem g ⟨attributes, .inherited⟩) (Item.traitTokens trait i rows.flatten)
      (some (.impl attributes false false .empty (some (false, p)) (nameTy i) ⟨[], ms⟩)) := by
  intro rest
  let content := group .brace rows.flatten ++ rest
  have content_eq : content = .opening .brace :: (rows.flatten ++ .closing .brace :: rest) := by
    simp [content, group]
  let target := trait ++ word "for" :: .ident i :: content
  obtain ⟨generics, marked, opposite⟩ : startsImplGenerics target = false ∧
      constTrait target = (false, target) ∧ starts ['!'] target = false := lead _
  have self : g.ty true (.ident i :: content) = some (nameTy i, content) := by
    rw [content_eq]
    exact hi _
  have via : g.ty true target = some (.path (.plain p), word "for" :: .ident i :: content) := ht _
  have behind : word? "for" (word "for" :: .ident i :: content) = some (.ident i :: content) := rfl
  have whole : implTarget g target = some (some (some (false, p), nameTy i), content) := by
    simp [implTarget, opposite, via, behind, self]
  have conditions : whereClause g content = some ([], content) := by
    rw [content_eq]
    rfl
  have list : members g .impl content = some (⟨[], ms⟩, rest) := members_rows hm enough rest
  let row := word "impl" :: target
  have row_eq : Item.traitTokens trait i rows.flatten ++ rest = row := by
    simp [row, target, content, Item.traitTokens]
  have front : markWord "default" row = (false, row) ∧ markWord "unsafe" row = (false, row) ∧
      word? "impl" row = some target := ⟨rfl, rfl, rfl⟩
  rw [row_eq]
  simp [implItem, front, generics, marked, whole, conditions, list, Generics.empty]

end Structures

end TypedDecl.Code.Parser
