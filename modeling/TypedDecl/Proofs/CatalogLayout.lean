import TypedDecl.Proofs.CatalogItems
import TypedDecl.Proofs.Layout.Laid

namespace TypedDecl.Declaration

open Code (Arg Attribute Expr Ident Interior Item Path Segment Ty docAttribute nameTy)
open Code.Parser
open Code.Path (argsPath)
open DirectoryCode (constantMember docAttribute_pieces textTy)
open Layout

variable {l : Interior} {r : Runtime} {a : Arg}

theorem laid_segments (l : Interior) (expr lead : Bool) (is : List Ident) :
    Laid (Segment.listPieces l expr lead (is.map fun i => .mk i .none)) := by
  induction is generalizing lead with
  | nil => exact laid_nil
  | cons i is ih =>
    have none : Code.Args.pieces l expr .none = [] := rfl
    cases lead <;> simp [Segment.listPieces, Segment.pieces, none, Code.wordsIf, ih]

theorem laid_names (l : Interior) (expr : Bool) (is : List Ident) :
    Laid ((Path.ofNames is).pieces l expr) := laid_segments l expr false is

theorem laid_nameTy (l : Interior) (i : Ident) : Laid ((nameTy i).pieces l) := laid_names l false [i]

theorem laid_nameExpr (l : Interior) (i : Ident) (free : Bool) :
    Laid ((nameExpr i).pieces l (.free free)) := laid_names l true [i]

theorem laid_attributes {as : List Attribute} (h : ∀ x ∈ as, Laid (x.pieces l)) :
    Laid (Attribute.listPieces l as) := by
  refine laid_flatten fun row mem => ?_
  obtain ⟨x, here, rfl⟩ := List.mem_map.mp mem
  exact h x here

theorem laid_doc (n : Nat) (text : String) :
    Laid ((docAttribute text).pieces (Interior.nested (n + 1))) := by
  obtain ⟨ps, s, ss, blank, pieces, inline, -⟩ := docAttribute_pieces n text
  have inside : Laid ps := inline.laid
  rw [pieces, laid_append]
  exact ⟨inside, by simp [turn]⟩

theorem laid_derive (l : Interior) : Laid (deriveAttribute.pieces l) := by
  have pieces : deriveAttribute.pieces l =
      [.text "#[", .text "derive", .text "(", .start step true, .zero, .text "Debug", .text ",",
        .space, .text "Clone", Piece.zero.outdented, .stop, .text ")", .text "]", .space] := rfl
  simp [pieces]

theorem laid_type (l : Interior) (r : Runtime) (name : String) : Laid ((r.type name).pieces l) :=
  laid_names l false _

theorem laid_path (global : Bool) (is : List Ident) (j : Ident) {args : Code.Args}
    (h : Laid (args.pieces l false)) :
    Laid ((Code.Path.mk global (argsPath is j args).segments).pieces l false) := by
  have lead (b : Bool) : Laid (Segment.listPieces l false b
      (is.map (fun i => .mk i .none) ++ [.mk j args])) := by
    induction is generalizing b with
    | nil => cases b <;> simp [Segment.listPieces, Segment.pieces, Code.wordsIf, h]
    | cons i is ih =>
      have none : Code.Args.pieces l false .none = [] := rfl
      cases b <;> simp [Segment.listPieces, Segment.pieces, none, Code.wordsIf, ih]
  exact lead global

theorem laid_angle {items : List Arg} (trailing : Bool) (h : ∀ a ∈ items, Laid (a.pieces l)) :
    Laid ((Code.Args.angle false items trailing).pieces l false) := by
  have listed : ∀ x ∈ Code.Arg.listPieces l items, Laid x.2 := by
    induction items with
    | nil => exact nofun
    | cons a items ih =>
      rw [List.forall_mem_cons] at h
      rw [Code.Arg.listPieces, List.forall_mem_cons]
      exact ⟨h.1, ih h.2⟩
  have row : ∀ row ∈ Code.livesFirst (Code.Arg.listPieces l items), Laid row := by
    intro row mem
    obtain ⟨x, here, rfl⟩ := List.mem_map.mp mem
    rcases List.mem_append.mp here with life | other
    · exact listed x (List.mem_of_mem_filter life)
    · exact listed x (List.mem_of_mem_filter other)
  have pieces : (Code.Args.angle false items trailing).pieces l false =
      Code.anglePieces false (Code.livesFirst (Code.Arg.listPieces l items)) := rfl
  rw [pieces, Code.anglePieces]
  split
  · exact laid_nil
  · simp [Code.wordsIf, laid_commaList row]

theorem laid_argsPath (is : List Ident) (j : Ident) (h : Laid (a.pieces l)) :
    Laid ((argsPath is j (.angle false [a] false)).pieces l false) :=
  laid_path false is j (laid_angle false (by simpa using h))

theorem laid_field (h : Laid (a.pieces l)) : Laid ((r.field a).pieces l) :=
  laid_argsPath r.names (plain "Field") h

theorem laid_reference {t : Ty} (h : Laid (t.pieces l)) :
    Laid ((Ty.reference none false t).pieces l) := by
  simp [Ty.pieces, Code.wordsIf, h]

/-- A function with laid parameters, result and statements. -/
theorem laid_function {i : Ident} {ps : List Code.FnParam} {t : Ty} {ss : List Code.Stmt}
    (hp : ∀ p ∈ ps, Laid (p.pieces l)) (ht : Laid (t.pieces l))
    (hs : ∀ row ∈ Code.Stmt.listPieces l ss, Laid row) {as : List Attribute}
    (ha : ∀ x ∈ as, Laid (x.pieces l)) (v : Code.Visibility) :
    Laid (Code.Member.pieces l
      ⟨as, v, false, .function (plainSignature i ps t) (some (.mk [] ss))⟩) := by
  let signature := plainSignature i ps t
  have rows : ∀ row ∈ ps.map (Code.FnParam.pieces l), Laid row := by
    intro row mem
    obtain ⟨p, here, rfl⟩ := List.mem_map.mp mem
    exact hp p here
  have params : Laid (signature.paramPieces l) := by
    have none : signature.variadic = none := rfl
    rw [Code.Signature.paramPieces, none]
    dsimp only
    split
    · exact laid_nil
    · simp [signature, plainSignature, laid_between laid_comma rows]
  have signed : Laid (signature.pieces l) := by
    have pieces : signature.pieces l = words "fn " ++ words i.text ++ words "(" ++
        .stay :: signature.paramPieces l ++ words ")" ++
          group (-step) true (words " -> " ++ t.pieces l) := by
      simp [Code.Signature.pieces, signature, plainSignature, Code.wordsIf, Code.abiPieces,
        Code.Generics.paramPieces, Code.Generics.empty]
    simp [pieces, params, ht]
  have body : Laid (braced [] (Code.Stmt.listPieces l ss)) := laid_braced laid_nil hs
  have pieces : Code.Member.pieces l ⟨as, v, false, .function signature (some (.mk [] ss))⟩ =
      Attribute.listPieces l as ++
        (group step true (words v.text ++ [] ++ signature.pieces l ++ words " " ++
          braced [] (Code.Stmt.listPieces l ss)) ++ words "\x7d") := rfl
  rw [pieces]
  simp [laid_attributes ha, signed, body]

/-- A statement that gives a value. -/
theorem laid_value {e : Expr} (h : Laid (e.pieces l (.free true))) :
    ∀ row ∈ Code.Stmt.listPieces l [.expr e false], Laid row := by
  intro row mem
  have only : row = group 0 false (e.pieces l (.free true) ++ Code.wordsIf ";" e.addsSemicolon) := by
    simpa [Code.Stmt.listPieces, Code.Stmt.pieces?] using mem
  have semicolon : Laid (Code.wordsIf ";" e.addsSemicolon) := by
    rw [Code.wordsIf]
    split <;> simp
  simp [only, h, semicolon]

theorem mem_listPieces {es : List Expr} {row : List Piece} :
    row ∈ Expr.listPieces l es ↔ ∃ e ∈ es, e.pieces l (.free false) = row := by
  induction es with
  | nil => simp [Expr.listPieces]
  | cons e es ih => simp [Expr.listPieces, ih, eq_comm]

/-- A call. -/
theorem laid_call {f : Expr} {args : List Expr} {first : Bool}
    (hf : Laid (f.pieces l (.free first))) (ha : ∀ e ∈ args, Laid (e.pieces l (.free false))) :
    Laid ((Expr.call f args false).pieces l (.free first)) := by
  have rows : ∀ row ∈ Expr.listPieces l args, Laid row := by
    intro row mem
    obtain ⟨e, here, rfl⟩ := mem_listPieces.mp mem
    exact ha e here
  have given : Laid (Code.argPieces args (Expr.listPieces l args)) := by
    unfold Code.argPieces
    split
    · next arg row single =>
      have only : Laid row := rows row (by simp [single])
      split
      · exact only
      · exact laid_commaList rows
    · exact laid_commaList rows
  have pieces : (Expr.call f args false).pieces l (.free first) =
      f.pieces l (.free first) ++ words "(" ++
        Code.argPieces args (Expr.listPieces l args) ++ words ")" := rfl
  simp [pieces, hf, given]

theorem laid_callNone {f : Expr} {first : Bool} (hf : Laid (f.pieces l (.free first))) :
    Laid ((Expr.call f [] false).pieces l (.free first)) :=
  laid_call hf (by simp)

theorem laid_callOne {f e : Expr} {first : Bool} (hf : Laid (f.pieces l (.free first)))
    (he : Laid (e.pieces l (.free false))) :
    Laid ((Expr.call f [e] false).pieces l (.free first)) :=
  laid_call hf (by simpa using he)

theorem laid_borrow {e : Expr} {first : Bool} (h : Laid (e.pieces l (.free false))) :
    Laid ((Expr.borrow false e).pieces l (.free first)) := by
  have pieces : (Expr.borrow false e).pieces l (.free first) =
      words "&" ++ [] ++ e.pieces l (.free false) := rfl
  simp [pieces, h]

/-- A part of the value that a method is called on. -/
theorem laid_part (m : Code.FieldName) :
    Laid ((Expr.field (nameExpr (plain "self")) m).pieces l (.free false)) := by
  have pieces : (Expr.field (nameExpr (plain "self")) m).pieces l (.free false) =
      group step true (group (-step) true (words "self") ++ [.zero] ++ words ("." ++ m.text)) := rfl
  simp [pieces]

theorem laid_recordPieces {path : List Piece} {rows : List (List Piece)} (hp : Laid path)
    (h : ∀ row ∈ rows, Laid row) : Laid (Code.recordPieces path rows none) := by
  let lead := group (-step) true path ++ words " \x7b"
  obtain ⟨content, fields⟩ : ∃ content, content = lead ++
      (if rows.isEmpty then [Piece.space.outdented]
        else .space :: between [.text ",", .space] rows ++ [.lastComma 1]) := ⟨_, rfl⟩
  have begun : Laid lead := by simp [lead, hp]
  have laid : Laid content := by
    rw [fields, laid_append]
    refine ⟨begun, ?_⟩
    split
    · simp
    · simp [laid_between laid_comma h]
  have pieces : Code.recordPieces path rows none =
      if Code.recordRoom < rowWidth content then
        group step true (content ++ [.overflow]) ++ words "\x7d"
      else if rows.isEmpty && true then group step true (lead ++ [.settle]) ++ words "\x7d"
      else group step true content ++ words "\x7d" := by
    rw [fields]
    rfl
  rw [pieces]
  split
  · simp [laid]
  · split
    · simp [begun]
    · simp [laid]

/-- A structure with its fields. -/
theorem laid_record {fields : List FieldRow}
    (h : ∀ f ∈ fields, Laid (f.value.pieces l (.free false))) {first : Bool} :
    Laid ((Expr.record (.plain (.ofNames [plain "Self"])) (fields.map FieldRow.field) true false
      none).pieces l (.free first)) := by
  let rows := Code.FieldValue.listPieces l (fields.map FieldRow.field)
  have each : ∀ row ∈ rows, Laid row := by
    have rows_eq : rows = fields.map fun f => Code.FieldValue.pieces l f.field := by
      show Code.FieldValue.listPieces l (fields.map FieldRow.field) = _
      induction fields with
      | nil => rfl
      | cons f fields ih =>
        rw [List.map_cons, List.map_cons, ← ih (List.forall_mem_cons.mp h).2]
        rfl
    intro row mem
    rw [rows_eq] at mem
    obtain ⟨f, here, rfl⟩ := List.mem_map.mp mem
    have pieces : Code.FieldValue.pieces l f.field =
        [] ++ words f.name.text ++ (words ": " ++ group 0 false (f.value.pieces l (.free false))) :=
      rfl
    simp [pieces, h f here]
  have pieces : (Expr.record (.plain (.ofNames [plain "Self"])) (fields.map FieldRow.field) true
      false none).pieces l (.free first) =
        Code.recordPieces ((Path.ofNames [plain "Self"]).pieces l true) rows none := rfl
  rw [pieces]
  exact laid_recordPieces (laid_names l true _) each

theorem laid_items {as : List Attribute} (ha : ∀ x ∈ as, Laid (x.pieces l)) {w : Ident}
    {fields : Code.Fields} (hf : ∀ lead, Laid lead → Laid (fields.pieces l lead .empty)) :
    Laid ((Item.data as .everywhere false w .empty fields).pieces l) := by
  have pieces : (Item.data as .everywhere false w .empty fields).pieces l =
      Attribute.listPieces l as ++
        fields.pieces l (words "pub " ++ words "struct " ++ words w.text ++ []) .empty := rfl
  rw [pieces, laid_append]
  exact ⟨laid_attributes ha, hf _ (by simp)⟩

/-- Members of a type, by way of a trait or on their own. -/
theorem laid_impl {via : Option Path} (hv : ∀ p, via = some p → Laid (p.pieces l false)) {w : Ident}
    {ms : List Code.Member} (hm : ∀ m ∈ ms, Laid (m.pieces l)) :
    Laid ((Item.impl [] false false .empty (via.map (false, ·)) (nameTy w) ⟨[], ms⟩).pieces l) := by
  have rows : ∀ row ∈ ms.map (Code.Member.pieces l), Laid row := by
    intro row mem
    obtain ⟨m, here, rfl⟩ := List.mem_map.mp mem
    exact hm m here
  have body : Laid (braced [] (ms.map (Code.Member.pieces l))) := laid_braced laid_nil rows
  have self := laid_nameTy l w
  have head : Laid (Code.implPieces l (words "impl") (via.map (false, ·)) (nameTy w)) := by
    cases via with
    | none => simp [Code.implPieces, self]
    | some p => simp [Code.implPieces, self, hv p rfl, Code.wordsIf]
  have pieces : (Item.impl [] false false .empty (via.map (false, ·)) (nameTy w) ⟨[], ms⟩).pieces l =
      group step true (Code.implPieces l (words "impl") (via.map (false, ·)) (nameTy w) ++
        words " " ++ braced [] (ms.map (Code.Member.pieces l))) ++ words "\x7d" := by
    simp [Item.pieces, Code.Members.pieces, Code.wordsIf, Code.Generics.paramPieces,
      Code.Generics.wherePieces, Code.Generics.empty, Attribute.listPieces]
  simp [pieces, head, body]

theorem laid_ownImpl {w : Ident} {ms : List Code.Member} (hm : ∀ m ∈ ms, Laid (m.pieces l)) :
    Laid ((Item.impl [] false false .empty none (nameTy w) ⟨[], ms⟩).pieces l) :=
  have none : ∀ p, (none : Option Path) = some p → Laid (p.pieces l false) := nofun
  laid_impl none hm

theorem laid_namedParam {i : Ident} {t : Ty} (h : Laid (t.pieces l)) :
    Laid ((namedParam i t).pieces l) := by
  have pieces : (namedParam i t).pieces l = words i.text ++ words ": " ++ t.pieces l := by
    simp [namedParam, Code.FnParam.pieces, Attribute.listPieces, Code.Pat.pieces, Code.wordsIf]
  simp [pieces, h]

/-- What a method is called on, if it is borrowed. -/
theorem laid_receiver (l : Interior) :
    Laid ((Code.FnParam.receiver [] (some none) false none).pieces l) := by
  simp [Code.FnParam.pieces, Attribute.listPieces, Code.wordsIf]

theorem laid_textTy (l : Interior) : Laid (textTy.pieces l) := by
  have pieces : textTy.pieces l = words "&" ++ (words "'static" ++ words " ") ++ words "str" := rfl
  simp [pieces]

/-- What makes a value of a type of the runtime, on its own. -/
theorem laid_maker (l : Interior) (r : Runtime) (name : String) (free : Bool) :
    Laid ((r.maker name).pieces l (.free free)) :=
  laid_names l true _

section Field

theorem laid_fieldStruct (w : Ident) (h : Laid (a.pieces l)) :
    Laid ((fieldStruct r w a).pieces l) := by
  refine laid_items (by simpa using laid_derive l) fun lead begun => ?_
  have field : Laid ((r.field a).pieces l) := laid_field h
  have pieces : (Code.Fields.tuple [⟨[], .everywhere, none, r.field a⟩]).pieces l lead .empty =
      group step true (lead ++ (words "(" ++
        (.zero :: (words "pub " ++ (r.field a).pieces l) ++ [.lastComma 0]) ++ words ")") ++
          words ";") := by
    simp [Code.Fields.pieces, Code.Field.tuplePieces, Code.Field.pieces, Attribute.listPieces,
      Code.Visibility.text, Code.namePieces, Code.Generics.whereEnd, Code.Generics.empty, between]
  simp [pieces, begun, field]

theorem laid_fieldMaker (l : Interior) (r : Runtime) : Laid ((fieldMaker r).pieces l) := by
  have table : Laid ((namedParam tableName (.reference none false (r.type "Table"))).pieces l) :=
    laid_namedParam (laid_reference (laid_type l r "Table"))
  have column : Laid ((namedParam columnName textTy).pieces l) := laid_namedParam (laid_textTy l)
  have inner : Laid ((Expr.call (r.maker "Field") [nameExpr tableName, nameExpr columnName]
      false).pieces l (.free false)) :=
    laid_call (laid_maker l r "Field" false) (by simp [laid_nameExpr])
  have value : Laid ((Expr.call (nameExpr (plain "Self"))
      [.call (r.maker "Field") [nameExpr tableName, nameExpr columnName] false] false).pieces l
        (.free true)) :=
    laid_callOne (laid_nameExpr l _ true) inner
  exact laid_function (by simpa using ⟨table, column⟩) (laid_nameTy l _) (laid_value value) (by simp) _

theorem laid_targetMember (h : Laid (a.pieces l)) : Laid ((targetMember r a).pieces l) := by
  have field : Laid ((r.field a).pieces l) := laid_field h
  have pieces : (targetMember r a).pieces l = group step true (words "" ++ words "type " ++
      words (plain "Target").text ++ (words " " ++
        (words "= " ++ .stay :: group (-step) false ((r.field a).pieces l)) ++ words ";")) := by
    simp [targetMember, Code.Member.pieces, Code.MemberBody.pieces, Attribute.listPieces,
      Code.Visibility.text, Code.wordsIf, Code.Generics.paramPieces, Code.Generics.shortWhereEnd,
      Code.Generics.empty, Code.boundsAfter, Code.Bound.listPieces]
  simp [pieces, field]

theorem laid_derefMember (l : Interior) : Laid (derefMember.pieces l) := by
  have target : Laid ((Ty.path (.plain (.ofNames [plain "Self", plain "Target"]))).pieces l) :=
    laid_names l false _
  have value : Laid ((Expr.borrow false (.field (nameExpr (plain "self")) (.index 0))).pieces l
      (.free true)) := laid_borrow (laid_part _)
  exact laid_function (by simpa using laid_receiver l) (laid_reference target) (laid_value value)
    (by simp) _

theorem laid_fieldItems (w : Ident) (h : Laid (a.pieces l)) :
    ∀ it ∈ fieldItems r w a, Laid (it.pieces l) := by
  have made : Laid ((Item.impl [] false false .empty none (nameTy w)
      ⟨[], [fieldMaker r]⟩).pieces l) := laid_ownImpl (by simpa using laid_fieldMaker l r)
  have members : ∀ m ∈ [targetMember r a, derefMember], Laid (m.pieces l) := by
    simpa using ⟨laid_targetMember h, laid_derefMember l⟩
  let deref : Path := .mk true (["core", "ops", "Deref"].map fun n => .mk (plain n) .none)
  have trait : ∀ p, some deref = some p → Laid (p.pieces l false) := by
    rintro p ⟨⟩
    exact laid_segments l false true [plain "core", plain "ops", plain "Deref"]
  simpa [fieldItems] using ⟨laid_fieldStruct w h, made, laid_impl trait members⟩

end Field

section Registry

theorem laid_entryMember (l : Interior) (t : Ident) : Laid ((entryMember t).pieces l) := by
  have made : Laid ((Expr.path (.plain (.ofNames [t, plain "new"]))).pieces l (.free true)) :=
    laid_names l true _
  have value := laid_value (laid_callNone made)
  exact laid_function (by simp) (laid_nameTy l t) value (by simp) _

theorem laid_registryItems (n : Nat) (i : Ident) (tables : List Ident) :
    ∀ it ∈ registryItems i tables, Laid (it.pieces (Interior.nested (n + 1))) := by
  let l := Interior.nested (n + 1)
  have unit : Laid ((Item.data [docAttribute " Entry points for every table in the catalog."]
      .everywhere false i .empty .unit).pieces l) := by
    refine laid_items (by simpa using laid_doc n _) fun lead begun => ?_
    have pieces : Code.Fields.unit.pieces l lead .empty = group step true (lead ++ words ";") := rfl
    simp [pieces, begun]
  have entries : ∀ m ∈ tables.map entryMember, Laid (m.pieces l) := by
    intro m mem
    obtain ⟨t, -, rfl⟩ := List.mem_map.mp mem
    exact laid_entryMember l t
  simpa [registryItems] using ⟨unit, laid_ownImpl entries⟩

end Registry

section Table

theorem laid_constantMember (l : Interior) (c : Ident × String) :
    Laid ((constantMember c).pieces l) :=
  (DirectoryCode.writes_constant l c).laid

theorem laid_slotValue (l : Interior) (s : Slot) : Laid ((slotValue s).pieces l (.free false)) := by
  have made : Laid ((Expr.path (.plain (.ofNames [s.held, plain "new"]))).pieces l (.free false)) :=
    laid_names l true _
  have borrowed : Laid ((Expr.borrow false (nameExpr tableName)).pieces l (.free false)) :=
    laid_borrow (laid_nameExpr l tableName false)
  have literal : Laid ((Expr.literal s.literal).pieces l (.free false)) := laid_words _
  exact laid_call made (by simpa using ⟨borrowed, literal⟩)

/-- A name that is bound to a value. -/
theorem laid_bind {i : Ident} {e : Expr} (h : Laid (e.pieces l (.free false))) :
    ∀ row ∈ ((Code.Stmt.bind [] (.name false false i none) none (some e) none).pieces? l).toList,
      Laid row := by
  have pieces : (Code.Stmt.bind [] (.name false false i none) none (some e) none).pieces? l =
      some (group 0 false (words "let " ++ words i.text ++
        (words " = " ++ .stay :: e.pieces l (.free false)) ++ words ";")) := by
    simp [Code.Stmt.pieces?, Code.Pat.pieces, Code.wordsIf, Attribute.listPieces]
  simp [pieces, h]

theorem laid_aliasMember (l : Interior) (r : Runtime) (slots : List Slot) :
    Laid ((aliasMember r slots).pieces l) := by
  have constants (name : String) : Laid ((selfExpr name).pieces l (.free false)) :=
    laid_names l true _
  have handle : Laid ((handleValue r).pieces l (.free false)) :=
    laid_call (laid_maker l r "Table" false) (by simp [constants, laid_nameExpr])
  have fields : ∀ f ∈ slotValues slots, Laid (f.value.pieces l (.free false)) := by
    intro f mem
    rcases List.mem_append.mp mem with mem | mem
    · obtain ⟨s, -, rfl⟩ := List.mem_map.mp mem
      exact laid_slotValue l s
    · rw [List.mem_singleton.mp mem]
      exact laid_nameExpr l tableName false
  have statements : ∀ row ∈ Code.Stmt.listPieces l (aliasStatements r slots), Laid row := by
    have value := laid_value (laid_record (l := l) fields)
    have rows : Code.Stmt.listPieces l (aliasStatements r slots) =
        ((Code.Stmt.bind [] (.name false false tableName none) none (some (handleValue r))
          none).pieces? l).toList ++
        Code.Stmt.listPieces l [.expr (.record (.plain (.ofNames [plain "Self"]))
          ((slotValues slots).map FieldRow.field) true false none) false] := rfl
    rw [rows, List.forall_mem_append]
    exact ⟨laid_bind handle, value⟩
  have option : Laid (optionTy.pieces l) := by
    have name : Laid ((Arg.type (nameTy (plain "String"))).pieces l) := laid_nameTy l _
    exact laid_argsPath [] (plain "Option") name
  exact laid_function (by simpa using laid_namedParam option) (laid_nameTy l _) statements (by simp) _

theorem laid_unaliasedMember (n : Nat) :
    Laid (unaliasedMember.pieces (Interior.nested (n + 1))) := by
  let l := Interior.nested (n + 1)
  have bound : Laid ((selfExpr "with_alias").pieces l (.free true)) := laid_names l true _
  have value := laid_value (laid_callOne bound (laid_nameExpr l (plain "None") false))
  exact laid_function (by simp) (laid_nameTy l _) value (by simpa using laid_doc n _) _

theorem laid_rebindMember (n : Nat) : Laid (rebindMember.pieces (Interior.nested (n + 1))) := by
  let l := Interior.nested (n + 1)
  have into : Laid (intoTy.pieces l) := by
    have name : Laid ((Arg.type (nameTy (plain "String"))).pieces l) := laid_nameTy l _
    have bound := laid_argsPath [] (plain "Into") name
    have pieces : intoTy.pieces l = words "impl " ++
        (argsPath [] (plain "Into") (.angle false [.type (nameTy (plain "String"))] false)).pieces l
          false := by
      simp [intoTy, Code.Ty.pieces, Code.Bound.listPieces, Code.Bound.pieces, Code.Binder.pieces,
        Code.wordsIf, between, argsPath]
    simp [pieces, bound]
  have text : Laid ((Expr.method (nameExpr (plain "alias")) (plain "into") .none []
      false).pieces l (.free false)) := by
    have pieces : (Expr.method (nameExpr (plain "alias")) (plain "into") .none [] false).pieces l
        (.free false) = group step true (group (-step) true (words "alias") ++ [.zero] ++
          words ".into" ++ [] ++ group 0 true (words "(" ++ [] ++ words ")")) := rfl
    simp [pieces]
  have given := laid_callOne (laid_nameExpr l (plain "Some") false) text
  have bound : Laid ((selfExpr "with_alias").pieces l (.free true)) := laid_names l true _
  have value := laid_value (laid_callOne bound given)
  have params := And.intro (laid_receiver l) (laid_namedParam (i := plain "alias") into)
  exact laid_function (by simpa using params) (laid_nameTy l _) value (by simpa using laid_doc n _) _

theorem laid_handleMember (l : Interior) (r : Runtime) : Laid ((handleMember r).pieces l) := by
  have value : Laid ((Expr.borrow false (.field (nameExpr (plain "self")) (.name handle))).pieces l
      (.free true)) := laid_borrow (laid_part _)
  exact laid_function (by simpa using laid_receiver l) (laid_reference (laid_type l r "Table"))
    (laid_value value) (by simp) _

theorem laid_defaultMember (l : Interior) : Laid (defaultMember.pieces l) := by
  have made : Laid ((selfExpr "new").pieces l (.free true)) := laid_names l true _
  exact laid_function (by simp) (laid_nameTy l _) (laid_value (laid_callNone made))
    (by simp) _

theorem laid_tableItems (n : Nat) (r : Runtime) (c : TableParts) :
    ∀ it ∈ c.items r, Laid (it.pieces (Interior.nested (n + 1))) := by
  let l := Interior.nested (n + 1)
  have fields : ∀ row ∈ (slotFields r c.slots).map fun f => f.pieces l ++ words ",", Laid row := by
    have field (f : Code.Field) (plain : f.attributes = []) (laid : Laid (f.ty.pieces l)) :
        Laid (f.pieces l) := by
      have named : Laid (Code.namePieces f.name) := by
        cases f.name <;> simp [Code.namePieces]
      simp [Code.Field.pieces, plain, Attribute.listPieces, named, laid]
    intro row mem
    obtain ⟨f, here, rfl⟩ := List.mem_map.mp mem
    suffices laid : Laid (f.pieces l) by simp [laid]
    rcases List.mem_cons.mp here with rfl | here
    · exact field _ rfl (laid_type l r "Table")
    · obtain ⟨s, -, rfl⟩ := List.mem_map.mp here
      exact field _ rfl (laid_nameTy l s.held)
  have struct : Laid ((Item.data [docAttribute c.documentation, deriveAttribute] .everywhere false
      c.ident .empty (.named (slotFields r c.slots))).pieces l) := by
    refine laid_items (by simpa using ⟨laid_doc n _, laid_derive l⟩) fun lead begun => ?_
    have pieces : (Code.Fields.named (slotFields r c.slots)).pieces l lead .empty =
        group step true (lead ++ words " " ++
          braced [] ((slotFields r c.slots).map fun f => f.pieces l ++ words ",")) ++
            words "\x7d" := rfl
    simp [pieces, begun, laid_braced laid_nil fields]
  have members : ∀ m ∈ c.memberItems r, Laid (m.pieces l) := by
    simp only [TableParts.memberItems, List.forall_mem_cons]
    exact ⟨laid_constantMember l _, laid_constantMember l _, laid_unaliasedMember n,
      laid_aliasMember l r _, laid_rebindMember n, laid_handleMember l r, by simp⟩
  have trait : ∀ p, some (Path.ofNames [plain "Default"]) = some p → Laid (p.pieces l false) := by
    rintro p ⟨⟩
    exact laid_names l false _
  have default : ∀ m ∈ [defaultMember], Laid (m.pieces l) := by simpa using laid_defaultMember l
  simpa [TableParts.items] using ⟨struct, laid_ownImpl members, laid_impl trait default⟩

end Table

end TypedDecl.Declaration
