import TypedDecl.Proofs.Reading.Paths

namespace TypedDecl.Code.Parser

open Code.Path (leadTokens argsPath)
open Token (word operator group)

variable {g : Grammar} {i j : Ident} {is : List Ident} {ts rest : List Token}

/-- A path of names begins with one of them. -/
theorem begins_lead {p : Ident → Prop} (named : ∀ i ∈ is, p i) (last : p j)
    (plain : starts ['#'] ts = false) :
    ∃ k ks, leadTokens is ++ .ident j :: ts = .ident k :: ks ∧ p k ∧ starts ['#'] ks = false := by
  cases is with
  | nil => exact ⟨j, ts, rfl, last, plain⟩
  | cons i is => exact ⟨i, _, rfl, named i (by simp), rfl⟩

section Types

/-- A type that begins with a name is the path that is read there. -/
theorem ty_path (lead : isRoot i = true ∨ i.isName = true) {p : Path}
    (read : path g false (.ident i :: ts) = some (p, rest)) (plain : starts ['#'] ts = false)
    (ends : endsTy rest = true) (plus : Bool) :
    ty g plus (.ident i :: ts) = some (.path (.plain p), rest) := by
  have before : binder? g (.ident i :: ts) = some (.none, .ident i :: ts) := by
    rcases lead with root | named
    · rcases isRoot_iff.mp root with rfl | rfl | rfl | rfl <;> rfl
    · rw [binder?, word?_name _ named (by decide)]
  have function : startsFunction (.ident i :: ts) = false := by
    rcases lead with root | named
    · rcases isRoot_iff.mp root with rfl | rfl | rfl | rfl <;> rfl
    · simp [startsFunction, startsWord_name _ named, keywords]
  have builtin : startsBuiltin (.ident i :: ts) = false := by
    simp [startsBuiltin, plain]
  have begins : startsName (.ident i :: ts) = true ∨ startsRoot (.ident i :: ts) = true :=
    lead.symm.imp (startsName_of_isName ts) id
  have here : pathTy g .none plus (.ident i :: ts) = some (.path (.plain p), rest) := by
    simp [pathTy, read, starts, startsMacro, sign?_endsTy ends]
  simp [ty, before, function, builtin, begins, here]

theorem ty_names (named : ∀ i ∈ is, i.isName = true) (last : j.isName = true)
    (enough : is.length < g.more) (ends : endsTy rest = true) (plus : Bool) :
    ty g plus (leadTokens is ++ .ident j :: rest) =
      some (.path (.plain (.ofNames (is ++ [j]))), rest) := by
  have colons : sign? colons rest = none := sign?_endsTy ends _ (by decide)
  have leads : ∀ i ∈ is, isRoot i = true ∨ i.isName = true := fun i mem => .inr (named i mem)
  have read := path_names leads last enough (segmentArgs_endsTy (g := g) ends false) colons
  have plain : starts ['#'] rest = false := by simp [starts, sign?_endsTy ends]
  obtain ⟨k, ks, row, name, plain⟩ := begins_lead named last plain
  rw [row] at read ⊢
  exact ty_path (.inr name) read plain ends plus

/-- The arguments of a type are read as they are read on their own. -/
theorem path_args (leads : ∀ i ∈ is, isRoot i = true ∨ i.isName = true) (last : j.isName = true)
    (enough : is.length < g.more) {args : Args}
    (read : angle g false (.punct '<' false :: ts) = some (args, rest)) (ends : endsTy rest = true) :
    path g false (leadTokens is ++ .ident j :: .punct '<' false :: ts) =
      some (argsPath is j args, rest) := by
  have colons : sign? colons rest = none := sign?_endsTy ends _ (by decide)
  have given : segmentArgs g false (.punct '<' false :: ts) = some (args, rest) := by
    simp [segmentArgs, Parser.colons, sign?_ne, startsAngle, starts, sign?, read]
  have here : segment g false (.ident j :: .punct '<' false :: ts) = some (.mk j args, rest) := by
    simp [segment, startsWord_name _ last, keywords, last, given]
  have segment (more : Nat) : segments g false true (more + 1)
      (.ident j :: .punct '<' false :: ts) = some ([.mk j args], rest) := by
    simp [segments, here, colons]
  exact path_lead leads enough segment

theorem ty_args (named : ∀ i ∈ is, i.isName = true) (last : j.isName = true)
    (enough : is.length < g.more) {args : Args}
    (read : angle g false (.punct '<' false :: ts) = some (args, rest)) (ends : endsTy rest = true)
    (plus : Bool) :
    ty g plus (leadTokens is ++ .ident j :: .punct '<' false :: ts) =
      some (.path (.plain (argsPath is j args)), rest) := by
  have leads : ∀ i ∈ is, isRoot i = true ∨ i.isName = true := fun i mem => .inr (named i mem)
  have path := path_args leads last enough read ends
  have plain : starts ['#'] (.punct '<' false :: ts) = false := rfl
  obtain ⟨k, ks, row, name, plain⟩ := begins_lead named last plain
  rw [row] at path ⊢
  exact ty_path (.inr name) path plain ends plus

/-- The row between angle brackets is read as this one argument. -/
def ReadsArg (g : Grammar) (row : List Token) (a : Arg) : Prop :=
  ∀ rest, angle g false (.punct '<' false :: (row ++ .punct '>' false :: rest)) =
    some (.angle false [a] false, rest)

/-- What is borrowed is read as a type of its own. -/
theorem ty_borrow {t : Ty} (joint : Bool) (named : i.isName = true)
    (read : g.ty false (.ident i :: ts) = some (t, rest)) (plus : Bool) :
    ty g plus (.punct '&' joint :: .ident i :: ts) = some (.reference none false t, rest) := by
  have kept : word? "mut" (.ident i :: ts) = none := word?_name ts named (by decide)
  have life : startsLifetime (.ident i :: ts) = false := rfl
  have target : referenceTy g (.ident i :: ts) = some (.reference none false t, rest) := by
    simp [referenceTy, optional, life, markWord, kept, read]
  have before : binder? g (.punct '&' joint :: .ident i :: ts) =
      some (.none, .punct '&' joint :: .ident i :: ts) := rfl
  have unbound : unboundTy g plus (.punct '&' joint :: .ident i :: ts) =
      referenceTy g (.ident i :: ts) := by
    simp [unboundTy, starts, colons, sign?_ne, starting, startsWord]
  simp [ty, before, startsFunction, startsBuiltin, startsWord, startsName, name?, startsRoot,
    unbound, target]

end Types

/-- Nothing stands here that an operand could go on with. -/
def endsValue : List Token → Bool
  | .closing _ :: _ => true
  | .punct c _ :: _ => [',', ';'].contains c
  | _ => false

theorem endsValue_cases (h : endsValue rest = true) :
    (∃ d ts, rest = .closing d :: ts) ∨ (∃ joint ts, rest = .punct ',' joint :: ts) ∨
      ∃ joint ts, rest = .punct ';' joint :: ts := by
  match rest, h with
  | .closing d :: ts, _ => exact .inl ⟨d, ts, rfl⟩
  | .punct c joint :: ts, h =>
    have sign : c = ',' ∨ c = ';' := by simpa [endsValue] using h
    rcases sign with rfl | rfl
    · exact .inr (.inl ⟨joint, ts, rfl⟩)
    · exact .inr (.inr ⟨joint, ts, rfl⟩)

theorem endsTy_of_endsValue (h : endsValue rest = true) : endsTy rest = true := by
  rcases endsValue_cases h with ⟨d, ts, rfl⟩ | ⟨joint, ts, rfl⟩ | ⟨joint, ts, rfl⟩ <;> rfl

theorem markWord_of_startsWord {w : String} (h : startsWord w ts = false) :
    markWord w ts = (false, ts) := by
  have none : word? w ts = none := by
    unfold startsWord at h
    unfold word?
    split at h <;> simp_all
  rw [markWord, none]

section Operands

variable {e : Expr}

theorem operations_endsValue (ends : endsValue rest = true) (free : Bool) (least : Nat)
    {more : Nat} (some_more : 0 < more) (e : Expr) :
    operations g free least more e rest = some (e, rest) := by
  obtain ⟨more, rfl⟩ := Nat.exists_eq_succ_of_ne_zero (Nat.ne_of_gt some_more)
  have none : Operator.all.find? (starts · rest) = none := by
    rcases endsValue_cases ends with ⟨d, ts, rfl⟩ | ⟨joint, ts, rfl⟩ | ⟨joint, ts, rfl⟩
    · rfl
    · cases joint <;> rfl
    · cases joint <;> rfl
  have signs : starts ['='] rest = false ∧ starts ['.', '.'] rest = false ∧
      startsWord "as" rest = false := by
    rcases endsValue_cases ends with ⟨d, ts, rfl⟩ | ⟨joint, ts, rfl⟩ | ⟨joint, ts, rfl⟩
    · exact ⟨rfl, rfl, rfl⟩
    · cases joint <;> exact ⟨rfl, rfl, rfl⟩
    · cases joint <;> exact ⟨rfl, rfl, rfl⟩
  rw [operations, none]
  simp [signs]

theorem trailers_endsValue (ends : endsValue rest = true) {more : Nat} (some_more : 0 < more)
    (e : Expr) : trailers g more e rest = some (e, rest) := by
  obtain ⟨more, rfl⟩ := Nat.exists_eq_succ_of_ne_zero (Nat.ne_of_gt some_more)
  rcases endsValue_cases ends with ⟨d, ts, rfl⟩ | ⟨joint, ts, rfl⟩ | ⟨joint, ts, rfl⟩
  · rfl
  · cases joint <;> rfl
  · cases joint <;> rfl

/-- The row, with no more than so many signs before it, is read as this operand. -/
def Operand (g : Grammar) (signs : Nat) (ts : List Token) (e : Expr) : Prop :=
  ∀ more, signs < more → ∀ rest, endsValue rest = true →
    unary g true more (ts ++ rest) = some (e, rest)

/-- The row is read as this expression, and is no end of a group. -/
def Value (g : Grammar) (ts : List Token) (e : Expr) : Prop :=
  ∀ rest, endsValue rest = true → g.value (ts ++ rest) = some (e, rest) ∧ ends (ts ++ rest) = false

/-- An operand without signs: what begins it, and what follows that. -/
theorem unary_atom {first : Expr} {mid : List Token} (plain : ∀ c, starts [c] ts = false)
    (read : atom g true ts = some (first, mid))
    (after : trailers g g.more first mid = some (e, rest)) (some_more : 0 < g.more)
    {more : Nat} (signs : 0 < more) : unary g true more ts = some (e, rest) := by
  obtain ⟨more, rfl⟩ := Nat.exists_eq_succ_of_ne_zero (Nat.ne_of_gt signs)
  have attributes : outerAttributes g ts = some ([], ts) := outerAttributes_none some_more (plain _)
  simp [unary, attributes, plain, read, after, Expr.withAttributes]

/-- The words for the truth values are no names. -/
theorem startsLiteral_name (named : i.isName = true) (ts : List Token) :
    startsLiteral (.ident i :: ts) = false := by
  have truth : i ≠ ⟨false, "true"⟩ := Ident.ne_keyword named (w := "true") (by decide)
  have falsehood : i ≠ ⟨false, "false"⟩ := Ident.ne_keyword named (w := "false") (by decide)
  unfold startsLiteral literal?
  split <;> simp_all

theorem atom_name (named : i.isName = true) (plain : starts ['#'] ts = false) :
    atom g true (.ident i :: ts) = pathExpr g true (.ident i :: ts) := by
  have literal : startsLiteral (.ident i :: ts) = false := startsLiteral_name named ts
  have async : startsAsyncBlock (.ident i :: ts) = false := by
    simp [startsAsyncBlock, startsWord_name _ named, keywords]
  have closure : startsClosure (.ident i :: ts) = false := by
    simp [startsClosure, startsBoundClosure, starts, startsWord_name _ named, keywords]
  have builtin : startsBuiltin (.ident i :: ts) = false := by
    simp [startsBuiltin, plain]
  have path : startsPathExpr (.ident i :: ts) = true := by
    simp [startsPathExpr, named]
  simp [atom, literal, async, closure, builtin, path, startsWord_name _ named, keywords]

theorem pathExpr_plain {p : Path} (read : path g true (.ident i :: ts) = some (p, rest))
    (macros : starts ['!'] rest = false) (brace : starting .brace rest = false) :
    pathExpr g true (.ident i :: ts) = some (.path (.plain p), rest) := by
  simp [pathExpr, qualPath, starts, read, macroAfter?, startsMacro, brace]
  simp only [starts] at macros
  simp [macros]

/-- A path of names on its own. -/
theorem operand_names (named : ∀ i ∈ is, i.isName = true) (last : j.isName = true)
    (enough : is.length < g.more) :
    Operand g 0 (leadTokens is ++ [.ident j]) (.path (.plain (.ofNames (is ++ [j])))) := by
  intro more signs rest ends
  have stops : endsTy rest = true := endsTy_of_endsValue ends
  have args : segmentArgs g true rest = some (.none, rest) := segmentArgs_endsTy stops true
  have plain (c : Char) (hc : [',', ';', '>', '='].contains c = false) :
      starts [c] rest = false := by
    simp [starts, sign?_endsTy stops _ hc]
  have leads : ∀ i ∈ is, isRoot i = true ∨ i.isName = true := fun i mem => .inr (named i mem)
  have read := path_names leads last enough args (sign?_endsTy stops _ (by decide))
  obtain ⟨k, ks, row, name, hash⟩ := begins_lead named last (plain '#' (by decide))
  rw [List.append_assoc, List.singleton_append]
  rw [row] at read ⊢
  have brace : starting .brace rest = false := by
    rcases endsValue_cases ends with ⟨d, ts, rfl⟩ | ⟨joint, ts, rfl⟩ | ⟨joint, ts, rfl⟩ <;> rfl
  have path := pathExpr_plain read (plain '!' (by decide)) brace
  refine unary_atom (fun c => by simp [starts]) ((atom_name name hash).trans path) ?_
    (Nat.zero_lt_of_lt enough) signs
  exact trailers_endsValue ends (Nat.zero_lt_of_lt enough) _

/-- What is called, and the arguments that it is called with. -/
theorem operand_called {callee : List Token} {f : Expr} (several : 1 < g.more)
    (plain : ∀ c rest, starts [c] (callee ++ rest) = false)
    (read : ∀ ts, atom g true (callee ++ .opening .paren :: ts) = some (f, .opening .paren :: ts))
    {args : List Token} {es : List Expr} {trailing : Bool}
    (operands : ∀ rest, commas g.value g.more (args ++ .closing .paren :: rest) =
      some ((es, trailing), .closing .paren :: rest)) :
    Operand g 0 (callee ++ group .paren args) (.call f es trailing) := by
  intro more signs rest ends
  obtain ⟨n, hn⟩ : ∃ n, g.more = n + 2 := ⟨g.more - 2, by omega⟩
  let behind := .opening .paren :: (args ++ .closing .paren :: rest)
  have row : callee ++ group .paren args ++ rest = callee ++ behind := by simp [behind, group]
  have given : callOperands g behind = some ((es, trailing), rest) := by
    simp [callOperands, grouped, behind, opening?, closing?, operands]
  have called : starting .paren behind = true := rfl
  rw [row]
  refine unary_atom (plain · _) (read _) ?_ (by omega) signs
  rw [hn, trailers, called, if_pos rfl, given]
  exact trailers_endsValue ends (Nat.succ_pos n) _

/-- A path of names that is called. -/
theorem operand_call (named : ∀ i ∈ is, i.isName = true) (last : j.isName = true)
    (enough : is.length < g.more) (several : 1 < g.more) {args : List Token} {es : List Expr}
    {trailing : Bool}
    (operands : ∀ rest, commas g.value g.more (args ++ .closing .paren :: rest) =
      some ((es, trailing), .closing .paren :: rest)) :
    Operand g 0 (leadTokens is ++ [.ident j] ++ group .paren args)
      (.call (.path (.plain (.ofNames (is ++ [j])))) es trailing) := by
  refine operand_called several (fun c rest => ?_) (fun ts => ?_) operands
  · cases is <;> simp [leadTokens, starts]
  · have args : segmentArgs g true (.opening .paren :: ts) = some (.none, .opening .paren :: ts) := by
      simp [segmentArgs, colons]
    have ends : sign? colons (.opening .paren :: ts) = none := by simp [colons]
    have plain : starts ['#'] (.opening .paren :: ts) = false := rfl
    have leads : ∀ i ∈ is, isRoot i = true ∨ i.isName = true := fun i mem => .inr (named i mem)
    have path := path_names leads last enough args ends
    obtain ⟨k, ks, row, name, plain⟩ := begins_lead named last plain
    rw [List.append_assoc, List.singleton_append]
    rw [row] at path ⊢
    exact (atom_name name plain).trans (pathExpr_plain path rfl rfl)

theorem operand_literal (some_more : 0 < g.more) (text : String) :
    Operand g 0 [.literal text] (.literal text) := by
  intro more signs rest ends
  exact unary_atom (fun c => by simp [starts]) rfl (trailers_endsValue ends some_more _) some_more
    signs

/-- What is borrowed has one more sign before it. -/
theorem operand_borrow {signs : Nat} (h : Operand g signs ts e)
    (plain : ∀ rest, startsWord "mut" (ts ++ rest) = false ∧ startsWord "raw" (ts ++ rest) = false)
    (some_more : 0 < g.more) : Operand g (signs + 1) (operator ['&'] ++ ts) (.borrow false e) := by
  intro more enough rest ends
  obtain ⟨more, rfl⟩ := Nat.exists_eq_succ_of_ne_zero (Nat.ne_zero_of_lt enough)
  have inner := h more (by omega) rest ends
  have attributes : outerAttributes g (operator ['&'] ++ ts ++ rest) =
      some ([], operator ['&'] ++ ts ++ rest) := outerAttributes_none some_more rfl
  have row : operator ['&'] ++ ts ++ rest = .punct '&' false :: (ts ++ rest) := rfl
  have raw : startsAddress (ts ++ rest) = false := by simp [startsAddress, (plain rest).2]
  have kept : markWord "mut" (ts ++ rest) = (false, ts ++ rest) :=
    markWord_of_startsWord (plain rest).1
  rw [row] at attributes ⊢
  simp [unary, attributes, starts, raw, kept, inner, Expr.withAttributes]

theorem value_of_operand {more depth signs : Nat}
    (h : Operand (Grammar.nested more depth) signs ts e) (enough : signs < more)
    (begun : ∀ rest, ends (ts ++ rest) = false) : Value (Grammar.nested more (depth + 1)) ts e := by
  intro rest ends
  refine ⟨?_, begun rest⟩
  have operand := h more enough rest ends
  have read : (Grammar.nested more (depth + 1)).value (ts ++ rest) =
      expr (Grammar.nested more depth) true 0 (ts ++ rest) := rfl
  rw [read, expr, Grammar.nested_more, operand]
  exact operations_endsValue ends true 0 (Nat.zero_lt_of_lt enough) e

theorem argTokens_cons (row second : List Token) (rows : List (List Token)) :
    Item.argTokens (row :: second :: rows) =
      row ++ Token.punct ',' false :: Item.argTokens (second :: rows) := by
  simp [Item.argTokens, operator]

theorem argTokens_singleton (row : List Token) : Item.argTokens [row] = row := by
  simp [Item.argTokens]

/-- Commas behind all rows are commas between them and one at the end. -/
theorem commaTokens_eq (rows : List (List Token)) :
    Item.commaTokens rows = Item.argTokens rows ++ commaIf (!rows.isEmpty) := by
  induction rows with
  | nil => rfl
  | cons row rows ih =>
    cases rows with
    | nil => simp [Item.commaTokens, argTokens_singleton, commaIf, signIf]
    | cons second rows =>
      have first : Item.commaTokens (row :: second :: rows) =
          row ++ Token.punct ',' false :: Item.commaTokens (second :: rows) := by
        simp [Item.commaTokens, operator]
      rw [first, ih, argTokens_cons]
      simp

/-- In a list up to what closes it, the row is read as one item. -/
def ReadsItem {α : Type} (p : Parser α) (stop : List Token → Bool) (close row : List Token)
    (a : α) : Prop :=
  ∀ rest, rest = close ∨ (∃ ts, rest = .punct ',' false :: ts) →
    stop (row ++ rest) = false ∧ p (row ++ rest) = some (a, rest)

/-- Items with commas between them, and perhaps one behind the last. -/
theorem separated_listed {α : Type} {p : Parser α} {stop : List Token → Bool} {close : List Token}
    {rows : List (List Token)} {as : List α} (h : List.Forall₂ (ReadsItem p stop close) rows as)
    (closed : stop close = true) (further : ∀ ts, stop (.punct ',' false :: ts) = false)
    {more : Nat} (enough : rows.length < more) {trailing : Bool}
    (some_row : as = [] → trailing = false) :
    separated p [','] stop more (Item.argTokens rows ++ commaIf trailing ++ close) =
      some ((as, trailing), close) := by
  induction h generalizing more with
  | nil =>
    obtain ⟨more, rfl⟩ := Nat.exists_eq_succ_of_ne_zero (Nat.ne_of_gt enough)
    have row_eq : Item.argTokens [] ++ commaIf trailing ++ close = close := by
      rw [some_row rfl]
      rfl
    rw [row_eq, separated, closed, if_pos rfl, some_row rfl]
  | @cons row a rows as first others ih =>
    obtain ⟨more, rfl⟩ := Nat.exists_eq_succ_of_ne_zero (Nat.ne_zero_of_lt enough)
    cases others with
    | nil =>
      rw [argTokens_singleton, List.append_assoc]
      cases trailing with
      | false =>
        obtain ⟨begun, read⟩ := first close (.inl rfl)
        have row_eq : row ++ (commaIf false ++ close) = row ++ close := rfl
        rw [row_eq, separated, begun, read]
        simp [closed]
      | true =>
        obtain ⟨begun, read⟩ := first (.punct ',' false :: close) (.inr ⟨_, rfl⟩)
        have row_eq : row ++ (commaIf true ++ close) = row ++ Token.punct ',' false :: close := rfl
        rw [row_eq, separated, begun, read]
        simp [closed, further]
    | @cons second b rows as next others =>
      have after := ih (Nat.lt_of_succ_lt_succ enough) fun none => absurd none (List.cons_ne_nil _ _)
      let behind := Item.argTokens (second :: rows) ++ commaIf trailing ++ close
      have row_eq : Item.argTokens (row :: second :: rows) ++ commaIf trailing ++ close =
          row ++ Token.punct ',' false :: behind := by
        simp [behind, argTokens_cons]
      obtain ⟨begun, read⟩ := first (.punct ',' false :: behind) (.inr ⟨_, rfl⟩)
      have begins (ts : List Token) : stop (second ++ Token.punct ',' false :: ts) = false :=
        (next _ (.inr ⟨_, rfl⟩)).1
      have begun_next : stop behind = false := by
        cases rows with
        | nil =>
          cases trailing with
          | false =>
            simpa [behind, argTokens_singleton, commaIf, signIf] using (next close (.inl rfl)).1
          | true =>
            simpa [behind, argTokens_singleton, commaIf, signIf, operator] using begins close
        | cons third rows => simpa [behind, argTokens_cons] using begins _
      have list : separated p [','] stop more behind = some ((b :: as, trailing), close) := after
      rw [row_eq, separated, begun, read]
      simp [further, begun_next, list]

/-- Items up to the end of the group. -/
theorem commas_listed {α : Type} {p : Parser α} {rows : List (List Token)} {as : List α} {d : Delim}
    {rest : List Token} (h : List.Forall₂ (ReadsItem p ends (.closing d :: rest)) rows as)
    {more : Nat} (enough : rows.length < more) {trailing : Bool}
    (some_row : as = [] → trailing = false) :
    commas p more (Item.argTokens rows ++ commaIf trailing ++ Token.closing d :: rest) =
      some ((as, trailing), .closing d :: rest) :=
  separated_listed h rfl (fun _ => rfl) enough some_row

theorem Value.readsItem {row : List Token} (h : Value g row e) (d : Delim) (rest : List Token) :
    ReadsItem g.value ends (.closing d :: rest) row e := by
  rintro behind (rfl | ⟨ts, rfl⟩)
  · exact (h (.closing d :: rest) rfl).symm
  · exact (h (.punct ',' false :: ts) rfl).symm

/-- Expressions with commas between them. -/
theorem commas_values {rows : List (List Token)} {es : List Expr}
    (h : List.Forall₂ (Value g) rows es) {more : Nat} (enough : rows.length < more) (d : Delim)
    (rest : List Token) :
    commas g.value more (Item.argTokens rows ++ .closing d :: rest) =
      some ((es, false), .closing d :: rest) := by
  have items := h.imp fun _ _ value => Value.readsItem value d rest
  have list := commas_listed items enough fun _ => rfl
  rwa [commaIf, signIf, if_neg Bool.false_ne_true, List.append_nil] at list

/-- A field of a structure with its value: the name, the row of the value and what that is. -/
structure FieldRow where
  name : Ident
  row : List Token
  value : Expr

namespace FieldRow

def tokens (f : FieldRow) : List Token := Item.typedTokens [.ident f.name] f.row

def field (f : FieldRow) : FieldValue := .mk [] (.name f.name) (some f.value)

end FieldRow

/-- Fields with their values, and perhaps a comma behind the last. -/
theorem fieldValues_listed {fields : List FieldRow}
    (h : ∀ f ∈ fields, f.name.isName = true ∧ Value g f.row f.value) {more : Nat}
    (enough : fields.length < more) (some_more : 0 < g.more) {trailing : Bool}
    (some_field : fields = [] → trailing = false) (d : Delim) (rest : List Token) :
    fieldValues g more
        (Item.argTokens (fields.map FieldRow.tokens) ++ commaIf trailing ++ Token.closing d :: rest) =
      some (((fields.map FieldRow.field, trailing), false, none), .closing d :: rest) := by
  have one {f : FieldRow} (here : f.name.isName = true ∧ Value g f.row f.value) (after : List Token)
      (ends : endsValue after = true) :
      fieldValue g (f.tokens ++ after) = some (f.field, after) := by
    let row := Token.ident f.name :: .punct ':' false :: (f.row ++ after)
    have row_eq : f.tokens ++ after = row := by
      simp [row, FieldRow.tokens, Item.typedTokens, operator]
    have attributes : outerAttributes g row = some ([], row) :=
      outerAttributes_none some_more (by simp [row, startsAttribute, starts])
    rw [row_eq]
    simp only [fieldValue, attributes, Option.bind_eq_bind, Option.bind_some]
    simp [row, fieldName?, here.1, after?, (here.2 after ends).1, FieldRow.field]
  have begins (f : FieldRow) (after : List Token) : Parser.ends (f.tokens ++ after) = false ∧
      sign? ['.', '.'] (f.tokens ++ after) = none := ⟨rfl, rfl⟩
  induction fields generalizing more with
  | nil =>
    obtain ⟨more, rfl⟩ := Nat.exists_eq_succ_of_ne_zero (Nat.ne_of_gt enough)
    rw [some_field rfl]
    rfl
  | cons f fields ih =>
    obtain ⟨more, rfl⟩ := Nat.exists_eq_succ_of_ne_zero (Nat.ne_zero_of_lt enough)
    obtain ⟨here, others⟩ := List.forall_mem_cons.mp h
    cases fields with
    | nil =>
      rw [List.map_singleton, argTokens_singleton, List.append_assoc, fieldValues,
        (begins f _).1, (begins f _).2]
      cases trailing with
      | false =>
        have last : Parser.ends (Token.closing d :: rest) = true := rfl
        have read := one here (Token.closing d :: rest) rfl
        simp [commaIf, signIf, read, last]
      | true =>
        have comma : Parser.ends (Token.punct ',' false :: .closing d :: rest) = false := rfl
        have none : fieldValues g more (Token.closing d :: rest) =
            some ((([], false), false, none), .closing d :: rest) := by
          obtain ⟨more, rfl⟩ := Nat.exists_eq_succ_of_ne_zero
            (Nat.ne_of_gt (Nat.lt_of_succ_lt_succ enough))
          rfl
        have read := one here (Token.punct ',' false :: .closing d :: rest) rfl
        simp [commaIf, signIf, operator, read, comma, none]
    | cons second fields =>
      let behind := Item.argTokens ((second :: fields).map FieldRow.tokens) ++ commaIf trailing ++
        Token.closing d :: rest
      have after : fieldValues g more behind =
          some ((((second :: fields).map FieldRow.field, trailing), false, none),
            .closing d :: rest) :=
        ih others (Nat.lt_of_succ_lt_succ enough) fun none => absurd none (List.cons_ne_nil _ _)
      have row_eq : Item.argTokens ((f :: second :: fields).map FieldRow.tokens) ++
          commaIf trailing ++ Token.closing d :: rest = f.tokens ++ Token.punct ',' false :: behind := by
        simp [behind, argTokens_cons]
      have comma : Parser.ends (Token.punct ',' false :: behind) = false := rfl
      rw [row_eq, fieldValues, (begins f _).1, (begins f _).2]
      simp [one here (Token.punct ',' false :: behind) rfl, comma, after]

/-- Fields with their values, each with a comma behind it. -/
theorem fieldValues_rows {fields : List FieldRow}
    (h : ∀ f ∈ fields, f.name.isName = true ∧ Value g f.row f.value) {more : Nat}
    (enough : fields.length < more) (some_more : 0 < g.more) (d : Delim) (rest : List Token) :
    fieldValues g more (Item.commaTokens (fields.map FieldRow.tokens) ++ .closing d :: rest) =
      some (((fields.map FieldRow.field, !fields.isEmpty), false, none), .closing d :: rest) := by
  rw [commaTokens_eq, List.isEmpty_map]
  exact fieldValues_listed h enough some_more (fun none => by rw [none]; rfl) d rest

/-- A structure of the type that it stands in. -/
theorem operand_record {content : List Token} {fields : List FieldValue} {trailing : Bool}
    (some_more : 0 < g.more)
    (read : ∀ rest, fieldValues g g.more (content ++ .closing .brace :: rest) =
      some (((fields, trailing), false, none), .closing .brace :: rest)) :
    Operand g 0 (word "Self" :: group .brace content)
      (.record (.plain (.ofNames [Ident.plain "Self"])) fields trailing false none) := by
  intro more signs rest ends
  let behind := group .brace content ++ rest
  have behind_eq : behind = .opening .brace :: (content ++ .closing .brace :: rest) := by
    simp [behind, group]
  obtain ⟨n, hn⟩ := Nat.exists_eq_succ_of_ne_zero (Nat.ne_of_gt some_more)
  have path : path g true (word "Self" :: behind) =
      some (.ofNames [Ident.plain "Self"], behind) := by
    rw [behind_eq, Parser.path, hn]
    rfl
  have braces : grouped .brace (fieldValues g g.more) behind =
      some (((fields, trailing), false, none), rest) := by
    rw [behind_eq]
    simp [grouped, opening?, closing?, read]
  have brace : starting .brace behind = true := by rw [behind_eq]; rfl
  have macros : starts ['!'] behind = false := by rw [behind_eq]; rfl
  have atom : atom g true (word "Self" :: behind) =
      some (.record (.plain (.ofNames [Ident.plain "Self"])) fields trailing false none, rest) := by
    have here : Parser.atom g true (word "Self" :: behind) =
        pathExpr g true (word "Self" :: behind) := by
      rw [behind_eq]
      rfl
    rw [here]
    simp [pathExpr, qualPath, starts, path, macroAfter?, startsMacro, brace, braces]
    simp only [starts] at macros
    simp [macros]
  exact unary_atom (fun c => by simp [starts]) atom (trailers_endsValue ends some_more _) some_more
    signs

end Operands

end TypedDecl.Code.Parser
