import TypedDecl.Proofs.DirectoryCode
import TypedDecl.Proofs.Reading.Members

namespace TypedDecl.Declaration

open Code (Arg Attribute Expr FnParam Grammar Ident Item Path Stmt Token Ty commaIf docAttribute
  nameTy signIf)
open Code.Path (argsPath leadTokens)
open Code.Token (word operator group)
open Code.Item
open Code.Parser
open Text.Quoted (quoteGuarded)

section Runtime

/-- A path of names, of which there is one at least. -/
structure Runtime where
  names : List Ident
  some_name : names ≠ []
  named : ∀ i ∈ names, i.isName = true

namespace Runtime

def path (r : Runtime) : Path := .ofNames r.names

/-- The path goes on with more names. -/
theorem tokens_append (r : Runtime) (names : List String) (last : String) :
    runtimeTokens r.path (names ++ [last]) =
      leadTokens (r.names ++ names.map plain) ++ [word last] := by
  have own : r.path.tokens ++ operator Code.Parser.colons = leadTokens r.names := by
    have split := List.dropLast_append_getLast r.some_name
    rw [path, ← split, Path.tokens_ofNames, Path.leadTokens_append]
    simp [leadTokens]
  have lead (ns : List String) : ns.flatMap (fun n => operator Code.Parser.colons ++ [word n]) ++
      operator Code.Parser.colons = operator Code.Parser.colons ++ leadTokens (ns.map plain) := by
    induction ns with
    | nil => simp [leadTokens]
    | cons n ns ih =>
      rw [List.flatMap_cons, List.append_assoc, ih]
      simp [leadTokens, word, plain]
  rw [runtimeTokens, pathTokens, List.flatMap_append, List.flatMap_singleton, ← List.append_assoc,
    ← List.append_assoc, List.append_assoc r.path.tokens, lead, ← List.append_assoc, own,
    ← Path.leadTokens_append]

/-- A type of the runtime. -/
def type (r : Runtime) (name : String) : Ty :=
  .path (.plain (.ofNames (r.names ++ [plain name])))

/-- The runtime's field with this argument. -/
def field (r : Runtime) (a : Arg) : Ty :=
  .path (.plain (argsPath r.names (plain "Field") (.angle false [a] false)))

/-- What makes a value of a type of the runtime. -/
def maker (r : Runtime) (name : String) : Expr :=
  .path (.plain (.ofNames (r.names ++ [plain name] ++ [plain "new"])))

variable {g : Grammar} {r : Runtime} {name : String} {rest : List Token}

/-- The path of the runtime begins no end of a group. -/
theorem not_ends (r : Runtime) (name : String) (names : List String) (ts : List Token) :
    ends (runtimeTokens r.path (name :: names) ++ ts) = false := by
  obtain ⟨init, last, split⟩ : ∃ init last, name :: names = init ++ [last] :=
    ⟨_, _, (List.dropLast_append_getLast (List.cons_ne_nil _ _)).symm⟩
  obtain ⟨i, is, first⟩ := List.exists_cons_of_ne_nil r.some_name
  rw [split, tokens_append, first]
  rfl

theorem reads_type (named : (plain name).isName = true) (enough : r.names.length < g.more)
    (ends : endsTy rest = true) (plus : Bool) :
    Code.Parser.ty g plus (runtimeTokens r.path [name] ++ rest) = some (r.type name, rest) := by
  have row : runtimeTokens r.path [name] = leadTokens r.names ++ [.ident (plain name)] := by
    simpa [word, plain] using r.tokens_append [] name
  rw [row, List.append_assoc, List.singleton_append]
  exact ty_names r.named named enough ends plus

/-- A reference to a type of the runtime. -/
theorem reads_borrowed {more depth : Nat} (named : (plain name).isName = true)
    (enough : r.names.length < more) (ends : endsTy rest = true) (plus : Bool) :
    Code.Parser.ty (Grammar.nested more (depth + 1)) plus
        (borrowTokens (runtimeTokens r.path [name]) ++ rest) =
      some (.reference none false (r.type name), rest) := by
  have row : runtimeTokens r.path [name] = leadTokens r.names ++ [.ident (plain name)] := by
    simpa [word, plain] using r.tokens_append [] name
  have read := reads_type (g := Grammar.nested more depth) named
    (by simpa using enough) ends false
  have plainRest : starts ['#'] rest = false := by simp [starts, sign?_endsTy ends]
  obtain ⟨k, ks, begins, leads, -⟩ := begins_lead r.named named plainRest
  rw [row, List.append_assoc, List.singleton_append, begins] at read
  rw [borrowTokens, row, List.append_assoc, List.append_assoc, List.singleton_append, begins]
  exact ty_borrow false leads read plus

theorem fieldType_append (r : Runtime) (row rest : List Token) :
    fieldType r.path row ++ rest = leadTokens r.names ++ .ident (plain "Field") ::
      .punct '<' false :: (row ++ .punct '>' false :: rest) := by
  have lead : runtimeTokens r.path ["Field"] = leadTokens r.names ++ [.ident (plain "Field")] := by
    simpa [word, plain] using r.tokens_append [] "Field"
  simp [fieldType, lead, operator]

theorem reads_field {row : List Token} {a : Arg} (read : ReadsArg g row a)
    (enough : r.names.length < g.more) (ends : endsTy rest = true) (plus : Bool) :
    Code.Parser.ty g plus (fieldType r.path row ++ rest) = some (r.field a, rest) := by
  rw [fieldType_append]
  exact ty_args r.named (by decide) enough (read rest) ends plus

/-- The call that makes a value of a type of the runtime. -/
theorem reads_made (named : (plain name).isName = true) (enough : r.names.length + 1 < g.more)
    {args : List Token} {es : List Expr} {trailing : Bool}
    (operands : ∀ rest, commas g.value g.more (args ++ .closing .paren :: rest) =
      some ((es, trailing), .closing .paren :: rest)) :
    Operand g 0 (callTokens (runtimeTokens r.path [name, "new"]) args)
      (.call (r.maker name) es trailing) := by
  have row : runtimeTokens r.path [name, "new"] =
      leadTokens (r.names ++ [plain name]) ++ [.ident (plain "new")] := by
    simpa [word, plain] using r.tokens_append [name] "new"
  have names : ∀ i ∈ r.names ++ [plain name], i.isName = true := by
    simpa [or_imp, forall_and, named] using r.named
  rw [callTokens, row]
  exact operand_call names (by decide) (by simpa using enough) (by omega) operands

end Runtime

end Runtime

section Words

variable {g : Grammar} {w : String}

def nameExpr (i : Ident) : Expr := .path (.plain (.ofNames [i]))

def selfTy : Ty := nameTy (plain "Self")

/-- What makes a value of the type that it stands in. -/
def selfExpr (name : String) : Expr := .path (.plain (.ofNames [plain "Self", plain name]))

theorem operand_word (named : (plain w).isName = true) (some_more : 0 < g.more) :
    Operand g 0 [word w] (nameExpr (plain w)) := by
  have none : ∀ i ∈ ([] : List Ident), i.isName = true := by simp
  exact operand_names none named some_more

theorem value_word {more depth : Nat} (named : (plain w).isName = true) (some_more : 0 < more) :
    Value (Grammar.nested more (depth + 1)) [word w] (nameExpr (plain w)) :=
  value_of_operand (operand_word named (by simpa using some_more)) some_more fun _ => rfl

theorem selfTy_before (more depth : Nat) (rest : List Token) :
    (Grammar.nested (more + 2) (depth + 2)).ty true (selfType ++ .opening .brace :: rest) =
      some (selfTy, .opening .brace :: rest) := rfl

end Words

section Field

open DirectoryCode (textTy)

variable {more depth : Nat} {r : Runtime} {w : Ident} {row : List Token} {a : Arg}

/-- What the derived traits are read as. -/
def deriveAttribute : Attribute :=
  ⟨false, ⟨false, [plain "derive"]⟩,
    .group .paren ⟨[word "Debug", .punct ',' false, word "Clone"], rfl⟩⟩

theorem outerAttribute_derived (g : Grammar) :
    ReadsNext startsAttribute (outerAttribute g) derived deriveAttribute :=
  ⟨fun _ => rfl, fun _ => rfl⟩

/-- The structure around the runtime's field. -/
def fieldStruct (r : Runtime) (w : Ident) (a : Arg) : Item :=
  .data [deriveAttribute] .everywhere false w .empty
    (.tuple [⟨[], .everywhere, none, r.field a⟩])

theorem reads_fieldStruct (named : w.isName = true)
    (read : ReadsArg (Grammar.nested more depth) row a) (enough : r.names.length + 1 < more) :
    Reads (item (Grammar.nested more (depth + 1)))
      (derived ++ publicTokens (tupleTokens w (publicTokens (fieldType r.path row))))
      (fieldStruct r w a) := by
  let g := Grammar.nested more (depth + 1)
  let front : Front := ⟨[deriveAttribute], .everywhere⟩
  have type (rest : List Token) (ends : endsTy rest = true) :
      g.ty true (fieldType r.path row ++ rest) = some (r.field a, rest) :=
    Runtime.reads_field read (by simp; omega) ends true
  have seen (rest : List Token) :
      visibility (word "pub" :: fieldType r.path row ++ rest) =
        some (.everywhere, fieldType r.path row ++ rest) := by
    have hash : starts ['#'] (.punct '<' false :: (row ++ .punct '>' false :: rest)) = false := rfl
    have field : (plain "Field").isName = true := by decide
    obtain ⟨k, ks, begins, -⟩ := begins_lead r.named field hash
    rw [List.cons_append, Runtime.fieldType_append, begins]
    rfl
  have struct : Reads (itemAfter g front)
      (tupleTokens w (publicTokens (fieldType r.path row))) (some (fieldStruct r w a)) := by
    intro rest
    have read := structItem_tuple named front type seen (by simp [g]; omega) false rest
    rw [commaIf, signIf, if_neg Bool.false_ne_true, List.append_nil] at read
    exact congrArg (Option.map fun r : Item × List Token => (some r.1, r.2)) read
  have derives := List.Forall₂.cons (outerAttribute_derived g) .nil
  have outer (rest : List Token) : visibility
      (publicTokens (tupleTokens w (publicTokens (fieldType r.path row))) ++ rest) =
        some (.everywhere, tupleTokens w (publicTokens (fieldType r.path row)) ++ rest) := rfl
  simpa using item_rows derives (by simp [g]; omega) (fun _ => rfl) outer struct

def tableName : Ident := plain "table"

def columnName : Ident := plain "column"

/-- The function that makes a field. -/
def fieldMaker (r : Runtime) : Code.Member :=
  ⟨[], .everywhere, false, .function
    (plainSignature (plain "new")
      [namedParam tableName (.reference none false (r.type "Table")), namedParam columnName textTy]
      selfTy)
    (some (.mk []
      [.expr
        (.call (nameExpr (plain "Self"))
          [.call (r.maker "Field") [nameExpr tableName, nameExpr columnName] false] false)
        false]))⟩

def fieldMakerTokens (r : Runtime) : List Token :=
  publicTokens (functionTokens (plain "new")
    (argTokens [typedTokens [word "table"] (borrowTokens (runtimeTokens r.path ["Table"])),
      typedTokens [word "column"] staticStr])
    selfType
    (callTokens selfType (callTokens (runtimeTokens r.path ["Field", "new"])
      (argTokens [[word "table"], [word "column"]]))))

theorem reads_fieldMaker (enough : r.names.length + 1 < more + 4) :
    ReadsNext opens (member (Grammar.nested (more + 4) (depth + 5)) .impl) (fieldMakerTokens r)
      (fieldMaker r) := by
  refine ⟨?_, fun _ => rfl⟩
  let g := Grammar.nested (more + 4) (depth + 5)
  let table := borrowTokens (runtimeTokens r.path ["Table"])
  have params (rest : List Token) : fnParams g g.more true
      (argTokens [typedTokens [word "table"] table, typedTokens [word "column"] staticStr] ++
        .closing .paren :: rest) =
      some (([namedParam tableName (.reference none false (r.type "Table")),
        namedParam columnName textTy], none), .closing .paren :: rest) := by
    have bound (i : Ident) (known : i = tableName ∨ i = columnName) (ts : List Token) :
        g.pat (.ident i :: .punct ':' false :: ts) =
          some (.name false false i none, .punct ':' false :: ts) := by
      rcases known with rfl | rfl <;> rfl
    have handle : ReadsParam g true (typedTokens [word "table"] table)
        (namedParam tableName (.reference none false (r.type "Table"))) := by
      refine readsParam_named rfl (bound _ (.inl rfl)) (fun _ => rfl) (fun rest stop => ?_) true
      have ends : endsTy rest = true := by rcases stop with ⟨d, ts, rfl⟩ | ⟨ts, rfl⟩ <;> rfl
      exact Runtime.reads_borrowed (by decide) (by omega) ends true
    have column : ReadsParam g false (typedTokens [word "column"] staticStr)
        (namedParam columnName textTy) := by
      refine readsParam_named rfl (bound _ (.inr rfl)) (fun _ => rfl) (fun rest stop => ?_) false
      rcases stop with ⟨d, ts, rfl⟩ | ⟨ts, rfl⟩ <;> rfl
    have listed := fnParams_listed (.cons handle (.cons column (.nil false))) (by simp [g])
      (show 2 < g.more by simp [g]) (fun _ => (rfl : false = false)) .paren rest
    rwa [commaIf, signIf, if_neg Bool.false_ne_true, List.append_nil] at listed
  have made : Operand (Grammar.nested (more + 4) (depth + 2)) 0
      (callTokens (runtimeTokens r.path ["Field", "new"])
        (argTokens [[word "table"], [word "column"]]))
      (.call (r.maker "Field") [nameExpr tableName, nameExpr columnName] false) := by
    refine Runtime.reads_made (by decide) (by simpa using enough) ?_
    have values : List.Forall₂ (Value (Grammar.nested (more + 4) (depth + 2)))
        [[word "table"], [word "column"]] [nameExpr tableName, nameExpr columnName] :=
      .cons (value_word (by decide) (by omega)) (.cons (value_word (by decide) (by omega)) .nil)
    exact commas_values values (by simp) .paren
  have value : Value (Grammar.nested (more + 4) (depth + 3))
      (callTokens (runtimeTokens r.path ["Field", "new"])
        (argTokens [[word "table"], [word "column"]]))
      (.call (r.maker "Field") [nameExpr tableName, nameExpr columnName] false) :=
    value_of_operand made (Nat.succ_pos _) fun rest => by
      rw [callTokens, List.append_assoc]
      exact r.not_ends "Field" ["new"] _
  have whole : Operand (Grammar.nested (more + 4) (depth + 3)) 0
      (callTokens selfType (callTokens (runtimeTokens r.path ["Field", "new"])
        (argTokens [[word "table"], [word "column"]])))
      (.call (nameExpr (plain "Self"))
        [.call (r.maker "Field") [nameExpr tableName, nameExpr columnName] false] false) := by
    refine operand_called (by simp) (fun _ _ => by simp [selfType, starts]) (fun _ => rfl) ?_
    have single : ([callTokens (runtimeTokens r.path ["Field", "new"])
        (argTokens [[word "table"], [word "column"]])]).length < more + 4 := by simp
    have operands := commas_values (.cons value .nil) single .paren
    simpa [argTokens] using operands
  have body := block_operand whole (by omega) (fun rest => beginsValue_self .paren _)
    (by simp [Expr.bare]) rfl true
  have named : (plain "new").isName = true := by decide
  have function := function_rows (g := g) named params (selfTy_before (more + 2) (depth + 3)) body
  exact member_public .nil (Nat.succ_pos _) function

/-- The function that gives the runtime's field. -/
def derefMember : Code.Member :=
  ⟨[], .inherited, false, .function
    (plainSignature (plain "deref") [.receiver [] (some none) false none]
      (.reference none false (.path (.plain (.ofNames [plain "Self", plain "Target"])))))
    (some (.mk []
      [.expr (.borrow false (.field (nameExpr (plain "self")) (.index 0))) false]))⟩

def derefTokens : List Token :=
  functionTokens (plain "deref") receiver (borrowTokens (selfPath ["Target"]))
    (selfField (.literal "0"))

theorem reads_deref (more depth : Nat) :
    ReadsNext opens (member (Grammar.nested (more + 4) (depth + 5)) .impl) derefTokens
      derefMember :=
  ⟨fun _ => rfl, fun _ => rfl⟩

/-- The runtime's field as the target of a field. -/
def targetMember (r : Runtime) (a : Arg) : Code.Member :=
  ⟨[], .inherited, false, .typeAlias true (plain "Target") .empty [] (some (r.field a))⟩

/-- The items of a field. -/
def fieldItems (r : Runtime) (w : Ident) (a : Arg) : List Item :=
  [fieldStruct r w a,
    .impl [] false false .empty none (nameTy w) ⟨[], [fieldMaker r]⟩,
    .impl [] false false .empty
      (some (false, .mk true (["core", "ops", "Deref"].map fun n => .mk (plain n) .none)))
      (nameTy w) ⟨[], [targetMember r a, derefMember]⟩]

def fieldRows (r : Runtime) (w : Ident) (row : List Token) : List (List Token) :=
  [derived ++ publicTokens (tupleTokens w (publicTokens (fieldType r.path row))),
    implTokens w (fieldMakerTokens r),
    traitTokens (pathTokens [] ["core", "ops", "Deref"]) w
      (aliasTokens (plain "Target") (fieldType r.path row) ++ derefTokens)]

theorem fieldTokens_eq (r : Runtime) (w : Ident) (row : List Token) :
    fieldTokens r.path w row = (fieldRows r w row).flatten := by
  simp [fieldTokens, fieldRows, fieldMakerTokens, derefTokens]

theorem reads_fieldRows (named : w.isName = true)
    (read : ReadsArg (Grammar.nested (more + 4) (depth + 4)) row a)
    (enough : r.names.length + 1 < more + 4) :
    List.Forall₂ (ReadsNext opens (item (Grammar.nested (more + 4) (depth + 5))))
      (fieldRows r w row) (fieldItems r w a) := by
  let g := Grammar.nested (more + 4) (depth + 5)
  have self (ts : List Token) : g.ty true (.ident w :: .opening .brace :: ts) =
      some (nameTy w, .opening .brace :: ts) := ty_name named (Nat.succ_pos _) rfl true
  have impl : Reads (item g) (implTokens w (fieldMakerTokens r))
      (.impl [] false false .empty none (nameTy w) ⟨[], [fieldMaker r]⟩) := by
    have maker : List.Forall₂ (ReadsNext opens (member g .impl)) [fieldMakerTokens r]
        [fieldMaker r] := .cons (reads_fieldMaker enough) .nil
    have item := item_impl named maker (Nat.succ_lt_succ (Nat.succ_pos _))
    rwa [List.flatten_singleton] at item
  have deref : Reads (item g)
      (traitTokens (pathTokens [] ["core", "ops", "Deref"]) w
        (aliasTokens (plain "Target") (fieldType r.path row) ++ derefTokens))
      (.impl [] false false .empty
        (some (false, .mk true (["core", "ops", "Deref"].map fun n => .mk (plain n) .none)))
        (nameTy w) ⟨[], [targetMember r a, derefMember]⟩) := by
    have target (rest : List Token) :
        g.ty true (fieldType r.path row ++ .punct ';' false :: rest) =
          some (r.field a, .punct ';' false :: rest) :=
      Runtime.reads_field read (by simp; omega) rfl true
    have name : (plain "Target").isName = true := by decide
    have held : ReadsNext opens (member g .impl)
        (aliasTokens (plain "Target") (fieldType r.path row)) (targetMember r a) :=
      ⟨member_alias name target (Nat.succ_pos _), fun _ => rfl⟩
    have rows := List.Forall₂.cons held (.cons (reads_deref more depth) .nil)
    let trait := pathTokens [] ["core", "ops", "Deref"]
    have lead (ts : List Token) : startsImplGenerics (trait ++ ts) = false ∧
        constTrait (trait ++ ts) = (false, trait ++ ts) ∧ starts ['!'] (trait ++ ts) = false :=
      ⟨rfl, rfl, rfl⟩
    have few : [aliasTokens (plain "Target") (fieldType r.path row), derefTokens].length < g.more := by
      simp [g]
    have members := implItem_trait lead (fun _ => rfl) self [] rows few
    rw [List.flatten_cons, List.flatten_singleton] at members
    exact item_rows .nil (Nat.succ_pos _) (fun _ => rfl) (fun _ => rfl) members
  exact .cons ⟨reads_fieldStruct named read (by omega), fun _ => rfl⟩
    (.cons ⟨impl, fun _ => rfl⟩ (.cons ⟨deref, fun _ => rfl⟩ .nil))

end Field

section Registry

variable {more depth : Nat} {t : Ident}

/-- The function of a registry that makes a table. -/
def entryTokens (t : Ident) : List Token :=
  publicTokens (functionTokens t [] [.ident t] (callTokens (pathTokens [.ident t] ["new"]) []))

def entryMember (t : Ident) : Code.Member :=
  ⟨[], .everywhere, false, .function (plainSignature t [] (nameTy t))
    (some (.mk [] [.expr (.call (.path (.plain (.ofNames [t, plain "new"]))) [] false) false]))⟩

theorem reads_entry (named : t.isName = true) :
    ReadsNext opens (member (Grammar.nested (more + 4) (depth + 5)) .impl) (entryTokens t)
      (entryMember t) := by
  refine ⟨?_, fun _ => rfl⟩
  let g := Grammar.nested (more + 4) (depth + 5)
  have names : ∀ i ∈ [t], i.isName = true := by simpa using named
  have last : (plain "new").isName = true := by decide
  have made : Operand (Grammar.nested (more + 4) (depth + 3)) 0
      (leadTokens [t] ++ [.ident (plain "new")] ++ group .paren [])
      (.call (.path (.plain (.ofNames ([t] ++ [plain "new"])))) [] false) :=
    operand_call names last (by simp) (by simp) fun _ => rfl
  have body := block_operand made (by omega)
    (fun rest => beginsValue_call names last (.closing .paren :: .closing .brace :: rest))
    (by simp [Expr.bare]) rfl true
  have type (rest : List Token) : g.ty true ([.ident t] ++ .opening .brace :: rest) =
      some (nameTy t, .opening .brace :: rest) := ty_name named (Nat.succ_pos _) rfl true
  have params (rest : List Token) : fnParams g g.more true ([] ++ .closing .paren :: rest) =
      some (([], none), .closing .paren :: rest) := rfl
  exact member_public .nil (Nat.succ_pos _) (function_rows named params type body)

def registryRows (i : Ident) (tables : List Ident) : List (List Token) :=
  [docTokens " Entry points for every table in the catalog." ++ publicTokens (unitTokens i),
    implTokens i (tables.map entryTokens).flatten]

/-- The items of a registry. -/
def registryItems (i : Ident) (tables : List Ident) : List Item :=
  [.data [docAttribute " Entry points for every table in the catalog."] .everywhere false i .empty
      .unit,
    .impl [] false false .empty none (nameTy i) ⟨[], tables.map entryMember⟩]

theorem registryTokens_eq (i : Ident) (tables : List Ident) :
    registryTokens i (tables.map fun t =>
        ⟨t, [.ident t], callTokens (pathTokens [.ident t] ["new"]) []⟩) =
      (registryRows i tables).flatten := by
  have members : (tables.map fun t : Ident =>
      (⟨t, [.ident t], callTokens (pathTokens [.ident t] ["new"]) []⟩ : Spelled)).flatMap
        (fun m => publicTokens (functionTokens m.ident [] m.type m.value)) =
          (tables.map entryTokens).flatten := by
    rw [List.flatMap_map, List.flatMap_def]
    rfl
  simp [registryTokens, members, registryRows]

theorem reads_registryRows {i : Ident} {tables : List Ident} (named : i.isName = true)
    (names : ∀ t ∈ tables, t.isName = true) (enough : tables.length < more + 4) :
    List.Forall₂ (ReadsNext opens (item (Grammar.nested (more + 4) (depth + 5))))
      (registryRows i tables) (registryItems i tables) := by
  have unit := item_unit named (more + 2) (depth + 3)
    " Entry points for every table in the catalog."
  have entries : List.Forall₂
      (ReadsNext opens (member (Grammar.nested (more + 4) (depth + 5)) .impl))
      (tables.map entryTokens) (tables.map entryMember) := by
    rw [List.forall₂_map_left_iff, List.forall₂_map_right_iff, List.forall₂_same]
    exact fun t ht => reads_entry (names t ht)
  have impl := item_impl named entries (by simpa using enough)
  exact .cons ⟨unit, fun _ => rfl⟩ (.cons ⟨impl, fun _ => rfl⟩ .nil)

end Registry

section Table

open DirectoryCode (constantRow constantMember reads_constantRow textTy)

variable {more depth : Nat} {r : Runtime} {t : Ident}

/-- A column of a table: the name of the field, what it holds, and the literal of the name. -/
structure Slot where
  name : Ident
  held : Ident
  literal : String

/-- All that is named in it is a name. -/
structure Slot.Named (s : Slot) : Prop where
  name : s.name.isName = true
  held : s.held.isName = true

def handle : Ident := plain handleName

/-- The fields of a table: the runtime's table and one for each column. -/
def slotRows (r : Runtime) (slots : List Slot) : List (List Token) :=
  typedTokens [.ident handle] (runtimeTokens r.path ["Table"]) ::
    slots.map fun s => publicTokens (typedTokens [.ident s.name] [.ident s.held])

def slotFields (r : Runtime) (slots : List Slot) : List Code.Field :=
  ⟨[], .inherited, some handle, r.type "Table"⟩ ::
    slots.map fun s => ⟨[], .everywhere, some s.name, nameTy s.held⟩

theorem reads_slots {slots : List Slot} (named : ∀ s ∈ slots, s.Named)
    (enough : r.names.length < more) :
    List.Forall₂ (fun row f => ∀ rest, ends (row ++ .punct ',' false :: rest) = false ∧
        namedField (Grammar.nested more (depth + 1)) (row ++ .punct ',' false :: rest) =
          some (f, .punct ',' false :: rest))
      (slotRows r slots) (slotFields r slots) := by
  have some_more : 0 < (Grammar.nested more (depth + 1)).more := Nat.zero_lt_of_lt enough
  refine .cons (fun rest => ⟨rfl, ?_⟩) ?_
  · have type : (Grammar.nested more (depth + 1)).ty true
        (runtimeTokens r.path ["Table"] ++ .punct ',' false :: rest) =
          some (r.type "Table", .punct ',' false :: rest) :=
      Runtime.reads_type (by decide) (by simpa using enough) rfl true
    have named : handle.isName = true := by decide
    exact namedField_row named rfl rfl some_more type
  · rw [List.forall₂_map_left_iff, List.forall₂_map_right_iff, List.forall₂_same]
    intro s hs rest
    have type : (Grammar.nested more (depth + 1)).ty true
        (.ident s.held :: .punct ',' false :: rest) =
          some (nameTy s.held, .punct ',' false :: rest) :=
      ty_name (named s hs).held (by simp; omega) rfl true
    exact ⟨rfl, namedField_row (named s hs).name rfl rfl some_more type⟩

/-- What a field of a table is made with. -/
def slotValue (s : Slot) : Expr :=
  .call (.path (.plain (.ofNames [s.held, plain "new"])))
    [.borrow false (nameExpr tableName), .literal s.literal] false

def slotValueTokens (s : Slot) : List Token :=
  callTokens (pathTokens [.ident s.held] ["new"])
    (argTokens [borrowTokens [word "table"], [.literal s.literal]])

theorem value_slot {s : Slot} (named : s.Named) :
    Value (Grammar.nested (more + 4) (depth + 2)) (slotValueTokens s) (slotValue s) := by
  have borrowed : Value (Grammar.nested (more + 4) (depth + 1)) (borrowTokens [word "table"])
      (.borrow false (nameExpr tableName)) := by
    have table := operand_word (g := Grammar.nested (more + 4) depth) (w := "table") (by decide) (by simp)
    have borrow := operand_borrow table (fun _ => ⟨rfl, rfl⟩) (by simp)
    exact value_of_operand borrow (by omega) fun _ => rfl
  have literal : Value (Grammar.nested (more + 4) (depth + 1)) [.literal s.literal]
      (.literal s.literal) :=
    value_of_operand (operand_literal (by simp) s.literal) (by omega) fun _ => rfl
  have few : [borrowTokens [word "table"], [.literal s.literal]].length < more + 4 := by simp
  have operands := commas_values (.cons borrowed (.cons literal .nil)) few .paren
  have names : ∀ i ∈ [s.held], i.isName = true := by simpa using named.held
  have last : (plain "new").isName = true := by decide
  have made := operand_call (g := Grammar.nested (more + 4) (depth + 1)) names last (by simp)
    (by simp) operands
  exact value_of_operand made (by omega) fun _ => rfl

/-- All fields with what they are made with. -/
def slotValues (slots : List Slot) : List FieldRow :=
  slots.map (fun s => ⟨s.name, slotValueTokens s, slotValue s⟩) ++
    [⟨handle, [word "table"], nameExpr tableName⟩]

/-- The parameter that an alias is given by. -/
def optionTy : Ty :=
  .path (.plain (.mk false
    [.mk (plain "Option") (.angle false [.type (nameTy (plain "String"))] false)]))

/-- What makes the runtime's table. -/
def handleValue (r : Runtime) : Expr :=
  .call (r.maker "Table") [selfExpr "SCHEMA", selfExpr "NAME", nameExpr (plain "alias")] false

def handleTokens (r : Runtime) : List Token :=
  callTokens (runtimeTokens r.path ["Table", "new"])
    (argTokens [selfPath ["SCHEMA"], selfPath ["NAME"], [word "alias"]])

def aliasStatements (r : Runtime) (slots : List Slot) : List Stmt :=
  [.bind [] (.name false false tableName none) none (some (handleValue r)) none,
    .expr (.record (.plain (.ofNames [plain "Self"])) ((slotValues slots).map FieldRow.field) true
      false none) false]

/-- The function that makes a table under an alias. -/
def aliasMember (r : Runtime) (slots : List Slot) : Code.Member :=
  ⟨[], .everywhere, false, .function
    (plainSignature (plain "with_alias") [namedParam (plain "alias") optionTy] selfTy)
    (some (.mk [] (aliasStatements r slots)))⟩

/-- A constant of the type that it stands in. -/
theorem value_self {name : String} (h : name = "SCHEMA" ∨ name = "NAME") :
    Value (Grammar.nested (more + 4) (depth + 2)) (selfPath [name]) (selfExpr name) := by
  intro rest ends
  rcases h with rfl | rfl <;>
    rcases endsValue_cases ends with ⟨d, ts, rfl⟩ | ⟨joint, ts, rfl⟩ | ⟨joint, ts, rfl⟩ <;>
      first | exact ⟨rfl, rfl⟩ | cases joint <;> exact ⟨rfl, rfl⟩

theorem value_handle (enough : r.names.length + 1 < more + 4) :
    Value (Grammar.nested (more + 4) (depth + 3)) (handleTokens r) (handleValue r) := by
  let g := Grammar.nested (more + 4) (depth + 2)
  have values : List.Forall₂ (Value g) [selfPath ["SCHEMA"], selfPath ["NAME"], [word "alias"]]
      [selfExpr "SCHEMA", selfExpr "NAME", nameExpr (plain "alias")] :=
    .cons (value_self (.inl rfl)) (.cons (value_self (.inr rfl))
      (.cons (value_word (by decide) (by omega)) .nil))
  have few : [selfPath ["SCHEMA"], selfPath ["NAME"], [word "alias"]].length < g.more := by
    simp [g]
  have named : (plain "Table").isName = true := by decide
  have made := r.reads_made named (by simpa [g] using enough) (commas_values values few .paren)
  refine value_of_operand made (by omega) fun rest => ?_
  rw [handleTokens, callTokens, List.append_assoc]
  exact r.not_ends "Table" ["new"] _

theorem aliasBody_eq (r : Runtime) (slots : List Slot) :
    aliasBody r.path (slots.map fun s => ⟨s.name, [.ident s.held], [.literal s.literal]⟩) =
      word "let" :: .ident tableName :: .punct '=' false :: (handleTokens r ++
        .punct ';' false :: (word "Self" ::
          group .brace (commaTokens ((slotValues slots).map FieldRow.tokens)))) := by
  simp [aliasBody, letTokens, handleTokens, slotValues, FieldRow.tokens, slotValueTokens,
    Function.comp_def, operator, selfType, tableName, handle, word, plain]

theorem reads_aliasBody {slots : List Slot} (named : ∀ s ∈ slots, s.Named)
    (enough : r.names.length + 1 < more + 4) (several : slots.length + 1 < more + 4) :
    Reads ((Grammar.nested (more + 4) (depth + 5)).block true)
      (group .brace
        (aliasBody r.path (slots.map fun s => ⟨s.name, [.ident s.held], [.literal s.literal]⟩)))
      (.mk [] (aliasStatements r slots)) := by
  rw [aliasBody_eq]
  let g := Grammar.nested (more + 4) (depth + 4)
  have each : ∀ f ∈ slotValues slots, f.name.isName = true ∧
      Value (Grammar.nested (more + 4) (depth + 3)) f.row f.value := by
    intro f hf
    rcases List.mem_append.mp hf with hf | hf
    · obtain ⟨s, hs, rfl⟩ := List.mem_map.mp hf
      exact ⟨(named s hs).name, value_slot (named s hs)⟩
    · rw [List.mem_singleton.mp hf]
      exact ⟨by decide, value_word (by decide) (by omega)⟩
  have few : (slotValues slots).length < (Grammar.nested (more + 4) (depth + 3)).more := by
    simpa [slotValues] using several
  have some_field : (!(slotValues slots).isEmpty) = true := by simp [slotValues]
  have record := operand_record (g := Grammar.nested (more + 4) (depth + 3)) (Nat.zero_lt_of_lt few)
    fun rest => fieldValues_rows each few (Nat.zero_lt_of_lt few) .brace rest
  rw [some_field] at record
  refine block_statements (Nat.succ_pos _) (fun _ => rfl) (fun rest => ?_) true
  have stop : endsValue (.closing .brace :: rest) = true := rfl
  have begun := beginsValue_self .brace
    (commaTokens ((slotValues slots).map FieldRow.tokens) ++ [.closing .brace] ++
      .closing .brace :: rest)
  have early := early_of_operand record (Nat.succ_pos _) begun stop
  have few : 1 < more + 3 := by omega
  have last := statements_value early begun (by simp [Expr.bare]) rfl (Nat.succ_pos _) few
  have bound (ts : List Token) : g.pat (.ident tableName :: .punct '=' false :: ts) =
      some (.name false false tableName none, .punct '=' false :: ts) := rfl
  have handle : Value g (handleTokens r) (handleValue r) := value_handle enough
  have binding := statements_let bound handle (Nat.succ_pos _) last
  simp only [List.cons_append, List.append_assoc] at binding ⊢
  exact binding

theorem reads_alias {slots : List Slot} (named : ∀ s ∈ slots, s.Named)
    (enough : r.names.length + 1 < more + 4) (several : slots.length + 1 < more + 4) :
    ReadsNext opens (member (Grammar.nested (more + 4) (depth + 5)) .impl)
      (publicTokens (withAlias r.path
        (slots.map fun s => ⟨s.name, [.ident s.held], [.literal s.literal]⟩)))
      (aliasMember r slots) := by
  refine ⟨?_, fun _ => rfl⟩
  let g := Grammar.nested (more + 4) (depth + 5)
  have params (rest : List Token) : fnParams g g.more true
      (typedTokens [word "alias"]
        (word "Option" :: operator ['<'] ++ [word "String"] ++ operator ['>']) ++
          .closing .paren :: rest) =
      some (([namedParam (plain "alias") optionTy], none), .closing .paren :: rest) := rfl
  have name : (plain "with_alias").isName = true := by decide
  exact member_public .nil (Nat.succ_pos _)
    (function_rows name params (selfTy_before (more + 2) (depth + 3))
      (reads_aliasBody named enough several))

/-- The function that makes a table without an alias. -/
def unaliasedMember : Code.Member :=
  ⟨[docAttribute " Creates an unaliased instance."], .everywhere, false, .function
    (plainSignature (plain "new") [] selfTy)
    (some (.mk []
      [.expr (.call (selfExpr "with_alias") [nameExpr (plain "None")] false) false]))⟩

theorem reads_unaliased (more depth : Nat) :
    ReadsNext opens (member (Grammar.nested (more + 4) (depth + 5)) .impl) withoutAlias
      unaliasedMember := by
  refine ⟨?_, fun _ => rfl⟩
  have documented := List.Forall₂.cons
    (outerAttribute_doc (more + 2) (depth + 3) " Creates an unaliased instance.") .nil
  have function : Reads (function (Grammar.nested (more + 4) (depth + 5)) .impl)
      (functionTokens (plain "new") [] selfType (aliased [word "None"]))
      (some unaliasedMember.body) := fun _ => rfl
  have member := member_public documented (Nat.succ_lt_succ (Nat.succ_pos _)) function
  rwa [List.flatten_singleton] at member

/-- Anything that can become a text. -/
def intoTy : Ty :=
  .abstract
    [.trait false .none false
      (.mk false [.mk (plain "Into") (.angle false [.type (nameTy (plain "String"))] false)])]
    false

/-- The function that gives a table another alias. -/
def rebindMember : Code.Member :=
  ⟨[docAttribute " Re-binds this table under another alias."], .everywhere, false, .function
    (plainSignature (plain "alias")
      [.receiver [] (some none) false none, namedParam (plain "alias") intoTy] selfTy)
    (some (.mk []
      [.expr
        (.call (selfExpr "with_alias")
          [.call (nameExpr (plain "Some"))
            [.method (nameExpr (plain "alias")) (plain "into") .none [] false] false] false)
        false]))⟩

def rebindTokens : List Token :=
  docTokens " Re-binds this table under another alias." ++
    publicTokens (functionTokens (plain "alias")
      (argTokens [Declaration.receiver, typedTokens [word "alias"]
        (word "impl" :: word "Into" :: operator ['<'] ++ [word "String"] ++ operator ['>'])])
      selfType
      (aliased (callTokens [word "Some"]
        (callTokens (word "alias" :: operator ['.'] ++ [word "into"]) []))))

theorem reads_rebind (more depth : Nat) :
    ReadsNext opens (member (Grammar.nested (more + 4) (depth + 5)) .impl) rebindTokens
      rebindMember := by
  refine ⟨?_, fun _ => rfl⟩
  have documented := List.Forall₂.cons
    (outerAttribute_doc (more + 2) (depth + 3) " Re-binds this table under another alias.") .nil
  have function : Reads (function (Grammar.nested (more + 4) (depth + 5)) .impl)
      (functionTokens (plain "alias")
        (argTokens [Declaration.receiver, typedTokens [word "alias"]
          (word "impl" :: word "Into" :: operator ['<'] ++ [word "String"] ++ operator ['>'])])
        selfType
        (aliased (callTokens [word "Some"]
          (callTokens (word "alias" :: operator ['.'] ++ [word "into"]) []))))
      (some rebindMember.body) := fun _ => rfl
  have member := member_public documented (Nat.succ_lt_succ (Nat.succ_pos _)) function
  rwa [List.flatten_singleton] at member

/-- The function that gives the runtime's table. -/
def handleMember (r : Runtime) : Code.Member :=
  ⟨[], .everywhere, false, .function
    (plainSignature tableName [.receiver [] (some none) false none]
      (.reference none false (r.type "Table")))
    (some (.mk []
      [.expr (.borrow false (.field (nameExpr (plain "self")) (.name handle))) false]))⟩

def handleGetter (r : Runtime) : List Token :=
  publicTokens (functionTokens (plain "table") Declaration.receiver
    (borrowTokens (runtimeTokens r.path ["Table"])) (selfField (word handleName)))

theorem reads_handle (enough : r.names.length < more + 4) :
    ReadsNext opens (member (Grammar.nested (more + 4) (depth + 5)) .impl) (handleGetter r)
      (handleMember r) := by
  refine ⟨?_, fun _ => rfl⟩
  let g := Grammar.nested (more + 4) (depth + 5)
  have params (rest : List Token) : fnParams g g.more true
      (Declaration.receiver ++ .closing .paren :: rest) =
        some (([.receiver [] (some none) false none], none), .closing .paren :: rest) := rfl
  have type (rest : List Token) : g.ty true
      (borrowTokens (runtimeTokens r.path ["Table"]) ++ .opening .brace :: rest) =
        some (.reference none false (r.type "Table"), .opening .brace :: rest) :=
    Runtime.reads_borrowed (by decide) enough rfl true
  have name : (plain "table").isName = true := by decide
  have body : Reads (g.block true) (group .brace (selfField (word handleName)))
      (.mk [] [.expr (.borrow false (.field (nameExpr (plain "self")) (.name handle))) false]) :=
    fun _ => rfl
  exact member_public .nil (Nat.succ_pos _) (function_rows name params type body)

/-- The function that makes a table by way of a trait. -/
def defaultMember : Code.Member :=
  ⟨[], .inherited, false, .function (plainSignature (plain "default") [] selfTy)
    (some (.mk [] [.expr (.call (selfExpr "new") [] false) false]))⟩

def defaultTokens : List Token :=
  functionTokens (plain "default") [] selfType (callTokens (selfPath ["new"]) [])

theorem reads_default (more depth : Nat) :
    ReadsNext opens (member (Grammar.nested (more + 4) (depth + 5)) .impl) defaultTokens
      defaultMember :=
  ⟨fun _ => rfl, fun _ => rfl⟩

/-- What varies in the code of a table: its name there and in the catalog, and its columns. -/
structure TableParts where
  ident : Ident
  schema : String
  table : String
  slots : List Slot

namespace TableParts

/-- All that is named in it is a name. -/
structure Named (c : TableParts) : Prop where
  ident : c.ident.isName = true
  slots : ∀ s ∈ c.slots, s.Named

def members (c : TableParts) : List Spelled :=
  c.slots.map fun s => ⟨s.name, [.ident s.held], [.literal s.literal]⟩

def documentation (c : TableParts) : String := " Table \x60" ++ c.schema ++ "." ++ c.table ++ "\x60."

def schemaConstant (c : TableParts) : Ident × String := (plain "SCHEMA", quoteGuarded c.schema)

def nameConstant (c : TableParts) : Ident × String := (plain "NAME", quoteGuarded c.table)

def memberRows (r : Runtime) (c : TableParts) : List (List Token) :=
  [constantRow c.schemaConstant, constantRow c.nameConstant, withoutAlias,
    publicTokens (withAlias r.path c.members), rebindTokens, handleGetter r]

def memberItems (r : Runtime) (c : TableParts) : List Code.Member :=
  [constantMember c.schemaConstant, constantMember c.nameConstant, unaliasedMember,
    aliasMember r c.slots, rebindMember, handleMember r]

def rows (r : Runtime) (c : TableParts) : List (List Token) :=
  [docTokens c.documentation ++ derived ++
      publicTokens (recordTokens c.ident (commaTokens (slotRows r c.slots))),
    implTokens c.ident (c.memberRows r).flatten, traitTokens [word "Default"] c.ident defaultTokens]

/-- The items of a table. -/
def items (r : Runtime) (c : TableParts) : List Item :=
  [.data [docAttribute c.documentation, deriveAttribute] .everywhere false c.ident .empty
      (.named (slotFields r c.slots)),
    .impl [] false false .empty none (nameTy c.ident) ⟨[], c.memberItems r⟩,
    .impl [] false false .empty (some (false, .ofNames [plain "Default"])) (nameTy c.ident)
      ⟨[], [defaultMember]⟩]

theorem tableTokens_eq (r : Runtime) (c : TableParts) :
    tableTokens r.path c.ident c.schema c.table c.members = (c.rows r).flatten := by
  have fields : tableFields r.path c.members = commaTokens (slotRows r c.slots) := by
    simp [tableFields, members, slotRows, handle, word, plain, Function.comp_def]
  have items : tableItems r.path c.schema c.table c.members = (c.memberRows r).flatten := by
    simp [tableItems, tableConstants, tableMethods, memberRows, constantRow, schemaConstant,
      nameConstant, rebindTokens, handleGetter]
  simp [tableTokens, rows, fields, items, documentation, defaultTokens]

theorem reads_members {c : TableParts} (named : c.Named)
    (enough : r.names.length + 1 < more + 4) (several : c.slots.length + 1 < more + 4) :
    List.Forall₂ (ReadsNext opens (member (Grammar.nested (more + 4) (depth + 5)) .impl))
      (c.memberRows r) (c.memberItems r) := by
  have constants (k : Ident × String) (named : k.1.isName = true) :
      ReadsNext opens (member (Grammar.nested (more + 4) (depth + 5)) .impl) (constantRow k)
        (constantMember k) := reads_constantRow named
  exact .cons (constants _ (by show (plain "SCHEMA").isName = true; decide))
    (.cons (constants _ (by show (plain "NAME").isName = true; decide))
      (.cons (reads_unaliased more depth)
        (.cons (reads_alias named.slots enough several)
          (.cons (reads_rebind more depth) (.cons (reads_handle (by omega)) .nil)))))

/-- The row of the structure, after its attributes and its visibility. -/
def structRow (r : Runtime) (c : TableParts) : List Token :=
  recordTokens c.ident (commaTokens (slotRows r c.slots))

theorem reads_struct {c : TableParts} (named : c.Named) (enough : r.names.length + 1 < more + 4)
    (several : c.slots.length + 1 < more + 4) :
    Reads (item (Grammar.nested (more + 4) (depth + 5)))
      (docTokens c.documentation ++ derived ++ publicTokens (c.structRow r))
      (.data [docAttribute c.documentation, deriveAttribute] .everywhere false c.ident .empty
        (.named (slotFields r c.slots))) := by
  let g := Grammar.nested (more + 4) (depth + 5)
  let front : Front := ⟨[docAttribute c.documentation, deriveAttribute], .everywhere⟩
  have attributes := List.Forall₂.cons
    (outerAttribute_doc (more + 2) (depth + 3) c.documentation)
    (.cons (outerAttribute_derived g) .nil)
  have shorter : r.names.length < more + 4 := by omega
  have fields : List.Forall₂ (fun row f => ∀ rest, ends (row ++ .punct ',' false :: rest) = false ∧
      namedField g (row ++ .punct ',' false :: rest) = some (f, .punct ',' false :: rest))
      (slotRows r c.slots) (slotFields r c.slots) := reads_slots named.slots shorter
  have few : (slotRows r c.slots).length < g.more := by
    rw [slotRows, List.length_cons, List.length_map]
    exact several
  have body : Reads (itemAfter g front) (c.structRow r)
      (some (.data front.attributes front.visibility false c.ident .empty
        (.named (slotFields r c.slots)))) := by
    intro rest
    have read := structItem_record named.ident front fields few rest
    exact congrArg (Option.map fun r : Item × List Token => (some r.1, r.2)) read
  have seen (rest : List Token) : visibility (publicTokens (c.structRow r) ++ rest) =
      some (.everywhere, c.structRow r ++ rest) := rfl
  have item := item_rows attributes (by simp) (fun _ => rfl) seen body
  rwa [List.flatten_cons, List.flatten_singleton] at item

theorem reads_default_impl {i : Ident} (named : i.isName = true) :
    Reads (item (Grammar.nested (more + 4) (depth + 5)))
      (traitTokens [word "Default"] i defaultTokens)
      (.impl [] false false .empty (some (false, .ofNames [plain "Default"])) (nameTy i)
        ⟨[], [defaultMember]⟩) := by
  let g := Grammar.nested (more + 4) (depth + 5)
  let trait := [word "Default"]
  have lead (ts : List Token) : startsImplGenerics (trait ++ ts) = false ∧
      constTrait (trait ++ ts) = (false, trait ++ ts) ∧ starts ['!'] (trait ++ ts) = false :=
    ⟨rfl, rfl, rfl⟩
  have self (ts : List Token) : g.ty true (.ident i :: .opening .brace :: ts) =
      some (nameTy i, .opening .brace :: ts) := ty_name named (Nat.succ_pos _) rfl true
  have rows := List.Forall₂.cons (reads_default more depth) .nil
  have few : [defaultTokens].length < g.more := by simp [g]
  have members := implItem_trait lead (fun _ => rfl) self [] rows few
  rw [List.flatten_singleton] at members
  exact item_rows .nil (Nat.succ_pos _) (fun _ => rfl) (fun _ => rfl) members

theorem reads_rows {c : TableParts} (named : c.Named)
    (enough : r.names.length + 1 < more + 4) (several : c.slots.length + 1 < more + 4)
    (room : 6 < more + 4) :
    List.Forall₂ (ReadsNext opens (item (Grammar.nested (more + 4) (depth + 5))))
      (c.rows r) (c.items r) := by
  have few : (c.memberRows r).length < more + 4 := by simpa [memberRows] using room
  have members : List.Forall₂
      (ReadsNext opens (member (Grammar.nested (more + 4) (depth + 5)) .impl)) (c.memberRows r)
      (c.memberItems r) := reads_members named enough several
  have impl := item_impl named.ident members few
  exact .cons ⟨reads_struct named enough several, fun _ => rfl⟩
    (.cons ⟨impl, fun _ => rfl⟩ (.cons ⟨reads_default_impl named.ident, fun _ => rfl⟩ .nil))

end TableParts

end Table

end TypedDecl.Declaration
