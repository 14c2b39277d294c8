import TypedDecl.Declaration.Tokens
import TypedDecl.Proofs.Outline

namespace TypedDecl

open Code (Ident Token Path Outline.structs Outline.items Outline.constant? Outline.function?)
open Code.Token (word operator group Closed)
open Code.Item

namespace Code.Item

variable {a b : List Token}

@[simp] theorem closed_publicTokens (h : Closed a) : Closed (publicTokens a) := by
  simp [publicTokens, h]

@[simp] theorem closed_pathTokens (h : Closed a) (names : List String) :
    Closed (pathTokens a names) := by
  apply h.append
  apply Closed.flatMap
  intro n _
  simp

@[simp] theorem closed_callTokens (ha : Closed a) (hb : Closed b) : Closed (callTokens a b) := by
  simp [callTokens, ha, hb]

@[simp] theorem closed_typedTokens (ha : Closed a) (hb : Closed b) : Closed (typedTokens a b) := by
  simp [typedTokens, ha, hb]

@[simp] theorem closed_borrowTokens (h : Closed a) : Closed (borrowTokens a) := by
  simp [borrowTokens, h]

@[simp] theorem closed_letTokens (bound : String) (h : Closed a) :
    Closed (letTokens bound a) := by
  simp [letTokens, h]

@[simp] theorem closed_functionTokens (i : Ident) {params : List Token} (hp : Closed params)
    (ha : Closed a) (hb : Closed b) : Closed (functionTokens i params a b) := by
  simp [functionTokens, hp, ha, hb]

@[simp] theorem closed_aliasTokens (i : Ident) (h : Closed a) : Closed (aliasTokens i a) := by
  simp [aliasTokens, h]

theorem closed_commaTokens {rows : List (List Token)} (h : ∀ r ∈ rows, Closed r) :
    Closed (commaTokens rows) :=
  Closed.flatMap fun r hr => (h r hr).append (Closed.operator _)

theorem closed_argTokens {rows : List (List Token)} (h : ∀ r ∈ rows, Closed r) :
    Closed (argTokens rows) :=
  Closed.intersperse (Closed.operator _) h

end Code.Item

namespace Code.Outline

variable {i : Ident} {a : List Token}

theorem structs_docTokens (text : String) (rest : List Token) :
    structs (docTokens text ++ rest) = structs rest := rfl

theorem structs_derived (rest : List Token) :
    structs (Declaration.derived ++ rest) = structs rest := rfl

theorem structs_implTokens (h : i ≠ Ident.plain "struct") (closed : Closed a)
    (rest : List Token) : structs (implTokens i a ++ rest) = structs rest := by
  rw [implTokens, List.cons_append, List.cons_append, structs_word (by decide), structs_ident h,
    structs_group .brace closed]

/-- The items of a trait belong to no structure. -/
theorem structs_traitTokens {trait : List Token} (skip : ∀ rest,
    structs (word "impl" :: trait ++ word "for" :: rest) = structs rest)
    (h : i ≠ Ident.plain "struct") (closed : Closed a) (rest : List Token) :
    structs (traitTokens trait i a ++ rest) = structs rest := by
  have row : traitTokens trait i a ++ rest =
      word "impl" :: trait ++ word "for" :: .ident i :: (group .brace a ++ rest) := by
    simp [traitTokens]
  rw [row, skip, structs_ident h, structs_group .brace closed]

end Code.Outline

namespace Declaration

open Code.Outline

variable {i : Ident}

theorem structs_registryTokens (h : i ≠ Ident.plain "struct") {ms : List Spelled}
    (closed : ∀ m ∈ ms, Closed m.type ∧ Closed m.value) (rest : List Token) :
    structs (registryTokens i ms ++ rest) =
      ⟨i, .unit, ms.flatMap fun m => publicTokens (functionTokens m.ident [] m.type m.value)⟩ ::
        structs rest := by
  have items : Closed (ms.flatMap fun m =>
      publicTokens (functionTokens m.ident [] m.type m.value)) := by
    apply Closed.flatMap
    intro m hm
    obtain ⟨type, value⟩ := closed m hm
    exact closed_publicTokens (closed_functionTokens m.ident Closed.nil type value)
  rw [registryTokens, List.append_assoc, List.append_assoc, structs_docTokens, publicTokens,
    List.cons_append, structs_word (by decide), structs_unit h, items_impl i items,
    structs_implTokens h items]

theorem closed_runtimeTokens (runtime : Path) (names : List String) :
    Closed (runtimeTokens runtime names) :=
  closed_pathTokens runtime.closed_tokens names

theorem closed_fieldType (runtime : Path) {value : List Token} (h : Closed value) :
    Closed (fieldType runtime value) := by
  have field := closed_runtimeTokens runtime ["Field"]
  exact ((field.append (Closed.operator ['<'])).append h).append (Closed.operator ['>'])

theorem structs_fieldTokens (runtime : Path) (h : i ≠ Ident.plain "struct") {value : List Token}
    (closed : Closed value) (rest : List Token) :
    ∃ items, structs (fieldTokens runtime i value ++ rest) =
      ⟨i, .tuple (publicTokens (fieldType runtime value)), items⟩ :: structs rest := by
  have inner := closed_fieldType runtime closed
  have params : Closed (argTokens
      [typedTokens [word "table"] (borrowTokens (runtimeTokens runtime ["Table"])),
        typedTokens [word "column"] staticStr]) := by
    refine closed_argTokens (List.forall_mem_cons.mpr ⟨?_, List.forall_mem_singleton.mpr rfl⟩)
    exact closed_typedTokens rfl (closed_borrowTokens (closed_runtimeTokens runtime ["Table"]))
  have made : Closed (callTokens selfType (callTokens (runtimeTokens runtime ["Field", "new"])
      (argTokens [[word "table"], [word "column"]]))) :=
    closed_callTokens rfl (closed_callTokens (closed_runtimeTokens runtime ["Field", "new"]) rfl)
  have new := closed_publicTokens
    (closed_functionTokens (plain "new") params (rfl : Closed selfType) made)
  have deref : Closed (functionTokens (plain "deref") receiver
      (borrowTokens (selfPath ["Target"])) (selfField (.literal "0"))) := rfl
  have target := (closed_aliasTokens (plain "Target") inner).append deref
  obtain ⟨items, closed, row⟩ : ∃ items, Closed items ∧ fieldTokens runtime i value ++ rest =
      derived ++ (word "pub" :: (tupleTokens i (publicTokens (fieldType runtime value)) ++
        (implTokens i items ++ (traitTokens (pathTokens [] ["core", "ops", "Deref"]) i
          (aliasTokens (plain "Target") (fieldType runtime value) ++
            functionTokens (plain "deref") receiver (borrowTokens (selfPath ["Target"]))
              (selfField (.literal "0"))) ++ rest)))) :=
    ⟨_, new, by simp only [fieldTokens, publicTokens, List.append_assoc, List.cons_append]⟩
  have trait (rest : List Token) : structs (word "impl" ::
      pathTokens [] ["core", "ops", "Deref"] ++ word "for" :: rest) = structs rest := by
    simp [pathTokens, operator, Code.Parser.colons, structs_word, structs_punct]
  refine ⟨items, ?_⟩
  rw [row, structs_derived, structs_word (by decide), structs_tuple h (closed_publicTokens inner),
    items_impl i closed, structs_implTokens h closed, structs_traitTokens trait h target]

theorem closed_aliasBody (runtime : Path) {ms : List Spelled}
    (closed : ∀ m ∈ ms, Closed m.type ∧ Closed m.value) : Closed (aliasBody runtime ms) := by
  have fields : Closed (commaTokens (ms.map (fun m =>
      typedTokens [.ident m.ident] (callTokens (pathTokens m.type ["new"])
        (argTokens [borrowTokens [word "table"], m.value]))) ++
        [typedTokens [word handleName] [word "table"]])) := by
    apply closed_commaTokens
    intro r hr
    rcases List.mem_append.mp hr with made | last
    · obtain ⟨m, hm, rfl⟩ := List.mem_map.mp made
      obtain ⟨type, value⟩ := closed m hm
      have args : Closed (argTokens [borrowTokens [word "table"], m.value]) :=
        closed_argTokens (List.forall_mem_cons.mpr ⟨rfl, List.forall_mem_singleton.mpr value⟩)
      exact closed_typedTokens rfl (closed_callTokens (closed_pathTokens type ["new"]) args)
    · rw [List.mem_singleton.mp last]
      rfl
  have handle := closed_letTokens "table" (closed_callTokens
    (closed_runtimeTokens runtime ["Table", "new"])
    (rfl : Closed (argTokens [selfPath ["SCHEMA"], selfPath ["NAME"], [word "alias"]])))
  exact (handle.append (rfl : Closed selfType)).append (fields.group .brace)

theorem closed_tableFields (runtime : Path) {ms : List Spelled}
    (closed : ∀ m ∈ ms, Closed m.type ∧ Closed m.value) : Closed (tableFields runtime ms) := by
  refine closed_commaTokens (List.forall_mem_cons.mpr ⟨?_, fun r hr => ?_⟩)
  · exact closed_typedTokens rfl (closed_runtimeTokens runtime ["Table"])
  · obtain ⟨m, hm, rfl⟩ := List.mem_map.mp hr
    exact closed_publicTokens (closed_typedTokens rfl (closed m hm).1)

theorem closed_withAlias (runtime : Path) {ms : List Spelled}
    (closed : ∀ m ∈ ms, Closed m.type ∧ Closed m.value) : Closed (withAlias runtime ms) := by
  have params : Closed (typedTokens [word "alias"]
      (word "Option" :: operator ['<'] ++ [word "String"] ++ operator ['>'])) := rfl
  exact closed_functionTokens (plain "with_alias") params (rfl : Closed selfType)
    (closed_aliasBody runtime closed)

theorem closed_tableItems (runtime : Path) (schema table : String) {ms : List Spelled}
    (closed : ∀ m ∈ ms, Closed m.type ∧ Closed m.value) :
    Closed (tableItems runtime schema table ms) := by
  have handle : Closed (functionTokens (plain "table") receiver
      (borrowTokens (runtimeTokens runtime ["Table"])) (selfField (word handleName))) :=
    closed_functionTokens (plain "table") (rfl : Closed receiver)
      (closed_borrowTokens (closed_runtimeTokens runtime ["Table"])) rfl
  have methods : Closed (tableMethods runtime) := Closed.append rfl (closed_publicTokens handle)
  have before : Closed (tableConstants schema table ++ withoutAlias) := rfl
  exact (before.append (closed_publicTokens (closed_withAlias runtime closed))).append methods

theorem structs_tableTokens (runtime : Path) (h : i ≠ Ident.plain "struct")
    (schema table : String) {ms : List Spelled}
    (closed : ∀ m ∈ ms, Closed m.type ∧ Closed m.value) (rest : List Token) :
    structs (tableTokens runtime i schema table ms ++ rest) =
      ⟨i, .record (tableFields runtime ms), tableItems runtime schema table ms⟩ ::
        structs rest := by
  have fields := closed_tableFields runtime closed
  have items := closed_tableItems runtime schema table closed
  have default : Closed (functionTokens (plain "default") [] selfType
      (callTokens (selfPath ["new"]) [])) := rfl
  have trait (rest : List Token) :
      structs (word "impl" :: [word "Default"] ++ word "for" :: rest) = structs rest := by
    simp [structs_word]
  rw [tableTokens, List.append_assoc, List.append_assoc, List.append_assoc, List.append_assoc,
    structs_docTokens, structs_derived, publicTokens, List.cons_append, structs_word (by decide),
    structs_record h fields, items_impl i items, structs_implTokens h items,
    structs_traitTokens trait h default]

theorem constant?_schema (runtime : Path) (schema table : String) (ms : List Spelled) :
    constant? "SCHEMA" (tableItems runtime schema table ms) =
      some [.literal (Text.Quoted.quoteGuarded schema)] := by
  rfl

theorem constant?_name (runtime : Path) (schema table : String) (ms : List Spelled) :
    constant? "NAME" (tableItems runtime schema table ms) =
      some [.literal (Text.Quoted.quoteGuarded table)] := by
  rfl

theorem function?_withAlias (runtime : Path) (schema table : String) {ms : List Spelled}
    (closed : ∀ m ∈ ms, Closed m.type ∧ Closed m.value) :
    function? "with_alias" (tableItems runtime schema table ms) =
      some (aliasBody runtime ms) := by
  have params : ∀ t ∈ typedTokens [word "alias"]
      (word "Option" :: operator ['<'] ++ [word "String"] ++ operator ['>']),
        t ≠ .opening .brace := by decide
  have output : ∀ t ∈ selfType, t ≠ .opening .brace := by decide
  have found := function?_function "with_alias" params output (closed_aliasBody runtime closed)
    (tableMethods runtime)
  have skip (rest : List Token) : function? "with_alias"
      (tableConstants schema table ++ withoutAlias ++ rest) = function? "with_alias" rest := rfl
  rw [tableItems, List.append_assoc, skip]
  exact found

end Declaration

end TypedDecl
