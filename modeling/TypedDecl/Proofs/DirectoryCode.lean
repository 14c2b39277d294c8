import TypedDecl.Proofs.DirectoryModel
import TypedDecl.Proofs.FileCode

namespace TypedDecl

open Code (Attribute CommentKind Expr Grammar Ident Interior Item Token Ty docAttribute nameTy)
open Code.Token (word operator group)
open Code.Item
open Code.Parser
open Layout
open Text.Quoted (quoteGuarded)

/-- A directory as code: its path, its name, and its constants, each with the literal it holds. -/
structure DirectoryCode where
  path : String
  ident : Ident
  constants : List (Ident × String)

namespace DirectoryCode

def documentation (path : String) : String := " Resources under \x60" ++ path ++ "\x60."

def constantRow (c : Ident × String) : List Token :=
  publicTokens (constantTokens c.1 Declaration.staticStr [.literal c.2])

/-- The row of the structure, and that of the implementation if there is one. -/
def rows (d : DirectoryCode) : List (List Token) :=
  (docTokens (documentation d.path) ++ publicTokens (unitTokens d.ident)) ::
    if d.constants.isEmpty then [] else [implTokens d.ident (d.constants.map constantRow).flatten]

/-- The rows one after the other are the code of the directory. -/
theorem directoryTokens_eq (d : DirectoryCode) :
    Declaration.directoryTokens d.ident d.path
        (d.constants.map fun c => ⟨c.1, Declaration.staticStr, [.literal c.2]⟩) =
      d.rows.flatten := by
  have members : (d.constants.map fun c : Ident × String =>
      (⟨c.1, Declaration.staticStr, [.literal c.2]⟩ : Declaration.Spelled)).flatMap
        (fun m => publicTokens (constantTokens m.ident m.type m.value)) =
          (d.constants.map constantRow).flatten := by
    rw [List.flatMap_map, List.flatMap_def]
    rfl
  rw [Declaration.directoryTokens, members, List.isEmpty_map, rows, List.flatten_cons]
  refine congrArg (fun members : List Token =>
    docTokens (documentation d.path) ++ publicTokens (unitTokens d.ident) ++ members) ?_
  cases d.constants.isEmpty with
  | false => exact (List.flatten_singleton).symm
  | true => rfl

/-- The type of a piece of text that is always there. -/
def textTy : Ty := .reference (some (Ident.plain "static")) false (nameTy (Ident.plain "str"))

def constantMember (c : Ident × String) : Code.Member :=
  ⟨[], .everywhere, false, .constant c.1 textTy (some (.literal c.2))⟩

def items (d : DirectoryCode) : List Item :=
  .data [docAttribute (documentation d.path)] .everywhere false d.ident .empty .unit ::
    if d.constants.isEmpty then []
    else [.impl [] false false .empty none (nameTy d.ident) ⟨[], d.constants.map constantMember⟩]

/-- All of its names can be names. -/
structure Named (d : DirectoryCode) : Prop where
  ident : d.ident.isName = true
  constants : ∀ c ∈ d.constants, c.1.isName = true

section Reading

variable {more depth : Nat}

theorem textTy_before (equals : Bool) (rest : List Token) :
    (Grammar.nested (more + 2) (depth + 3)).ty true
        (Declaration.staticStr ++ .punct '=' equals :: rest) =
      some (textTy, .punct '=' equals :: rest) := by
  cases equals <;> rfl

theorem reads_constantRow {c : Ident × String} (h : c.1.isName = true) :
    ReadsNext opens (member (Grammar.nested (more + 2) (depth + 3)) .impl) (constantRow c)
      (constantMember c) :=
  member_constant h false (by simp) (textTy_before false)
    (fun rest => value_literal more (depth + 1) c.2 (.inr ⟨false, rest, rfl⟩))

theorem reads_constants (more depth : Nat) {cs : List (Ident × String)}
    (h : ∀ c ∈ cs, c.1.isName = true) :
    List.Forall₂ (ReadsNext opens (member (Grammar.nested (more + 2) (depth + 3)) .impl))
      (cs.map constantRow) (cs.map constantMember) := by
  rw [List.forall₂_map_left_iff, List.forall₂_map_right_iff, List.forall₂_same]
  exact fun c hc => reads_constantRow (h c hc)

/-- There are fewer constants than tokens. -/
theorem length_constants {c : DirectoryCode} (h : c.Named) :
    c.constants.length ≤ c.rows.flatten.length := by
  have counted := length_le_flatten (reads_constants 0 0 h.constants)
  rw [List.length_map] at counted
  cases none : c.constants.isEmpty with
  | true =>
    rw [List.isEmpty_iff.mp none]
    exact Nat.zero_le _
  | false =>
    simp only [rows, none, Bool.false_eq_true, if_false, implTokens, Token.group,
      List.flatten_cons, List.flatten_nil, List.length_append, List.length_cons]
    omega

/-- The rows are read as the items. -/
theorem reads_rows {d : DirectoryCode} (h : d.Named) (enough : d.constants.length < more + 2) :
    List.Forall₂ (ReadsNext opens (item (Grammar.nested (more + 2) (depth + 3)))) d.rows
      d.items := by
  have struct := item_unit h.ident more (depth + 1) (documentation d.path)
  have impl := item_impl h.ident (reads_constants more depth h.constants) (by simpa using enough)
  rw [rows, items]
  refine .cons ⟨struct, fun rest => rfl⟩ ?_
  split
  · exact .nil
  · exact .cons ⟨impl, fun rest => rfl⟩ .nil

end Reading

/-- A declaration is spelled so. -/
structure Spells (c : DirectoryCode) (d : Declaration) : Prop where
  kind : d.kind = .directory c.path
  ident : Declaration.ident d.name = .ok c.ident
  constants : List.Forall₂
    (fun m k => Declaration.ident m.name = .ok k.1 ∧ m.value = k.2) d.members c.constants

section Lines

/-- The line of a piece of documentation: a comment where the text can stand in one. -/
def docLine (text : String) : String :=
  (CommentKind.outer.write? text.toList).getD ("#[doc = " ++ quoteGuarded text ++ "]")

def constantLine (c : Ident × String) : String :=
  "pub const " ++ c.1.text ++ ": &'static str = " ++ c.2 ++ ";"

def structLine (d : DirectoryCode) : String := "pub struct " ++ d.ident.text ++ ";"

def implLines (d : DirectoryCode) : List String :=
  ("impl " ++ d.ident.text ++ " \x7b") :: d.constants.map (fun c => "    " ++ constantLine c) ++ ["\x7d"]

/-- The lines of each item, given the line of the documentation. -/
def itemLines (doc : String) (d : DirectoryCode) : List (List String) :=
  [doc, d.structLine] :: if d.constants.isEmpty then [] else [d.implLines]

variable {d : DirectoryCode}

/-- The pieces of documentation, and how wide the gap behind them is. -/
def docPieces (text : String) : List Piece × Nat :=
  match CommentKind.outer.write? text.toList with
  | some comment => ([.text comment], endless)
  | none => (["#[", "doc", " = ", quoteGuarded text, "]"].map .text, 1)

theorem pieces_docAttribute (n : Nat) (text : String) :
    (docAttribute text).pieces (Interior.nested (n + 1)) =
      (docPieces text).1 ++ [turn 0 (docPieces text).2] := by
  have body : (docAttribute text).body.text? = some text := by
    simp [docAttribute, Code.AttributeBody.text?, Text.Quoted.decode_quoteGuarded]
  have comment : (docAttribute text).comment? = CommentKind.outer.write? text.toList := by
    rw [Attribute.comment?, body]
    rfl
  rw [Attribute.pieces, comment, docPieces]
  cases CommentKind.outer.write? text.toList with
  | some line => rfl
  | none =>
    have value : (Interior.nested (n + 1)).expr [.literal (quoteGuarded text)] =
        [.text (quoteGuarded text)] := rfl
    rw [docAttribute, Code.AttributeBody.pieces, value]
    rfl

/-- Documentation ends its line, as a comment and as an attribute. -/
theorem docAttribute_pieces (n : Nat) (text : String) :
    ∃ ps s ss blank, (docAttribute text).pieces (Interior.nested (n + 1)) = ps ++ [turn 0 blank] ∧
      Inline ps (s :: ss) ∧ String.join (s :: ss) = docLine text := by
  have pieces := pieces_docAttribute n text
  rw [docPieces] at pieces
  rw [docLine]
  cases written : CommentKind.outer.write? text.toList with
  | some line =>
    rw [written] at pieces
    exact ⟨[.text line], line, [], endless, pieces, .words line, by simp [String.join_cons]⟩
  | none =>
    rw [written] at pieces
    refine ⟨_, "#[", ["doc", " = ", quoteGuarded text, "]"], 1, pieces,
      Inline.texts ["#[", "doc", " = ", quoteGuarded text, "]"], ?_⟩
    rw [← String.toList_inj]
    simp [String.join_cons]

theorem writes_struct (n : Nat) (text : String) (i : Ident) :
    WritesLines
      ((Item.data [docAttribute text] .everywhere false i .empty .unit).pieces
        (Interior.nested (n + 1)))
      [docLine text, "pub struct " ++ i.text ++ ";"] := by
  obtain ⟨ps, s, ss, blank, pieces, inline, line⟩ := docAttribute_pieces n text
  let row := group step true (words "pub " ++ words "struct " ++ words i.text ++ words ";")
  have written : Inline row ["pub ", "struct ", i.text, ";"] :=
    (Inline.texts ["pub ", "struct ", i.text, ";"]).group step true
  have text_eq : String.join ["pub ", "struct ", i.text, ";"] = "pub struct " ++ i.text ++ ";" := by
    rw [← String.toList_inj]
    simp [String.join_cons]
  have item : (Item.data [docAttribute text] .everywhere false i .empty .unit).pieces
      (Interior.nested (n + 1)) = ps ++ turn 0 blank :: row := by
    have attributes : Attribute.listPieces (Interior.nested (n + 1)) [docAttribute text] =
        ps ++ [turn 0 blank] := by
      rw [← pieces]
      exact List.flatMap_singleton _ _
    rw [Item.pieces, attributes, List.append_assoc]
    rfl
  have lines := (WritesLines.of_inline inline).append (.of_inline written) blank
  rw [item, ← line, ← text_eq]
  exact lines

theorem writes_constant (l : Interior) (c : Ident × String) :
    WritesLines ((constantMember c).pieces l) [constantLine c] := by
  have pieces : (constantMember c).pieces l =
      group 0 true (["pub ", "const ", c.1.text, ": ", "&", "'static", " ", "str", " = "].map .text ++
        ([.stay] ++ [c.2, ";"].map .text)) := rfl
  have written := ((Inline.texts
    ["pub ", "const ", c.1.text, ": ", "&", "'static", " ", "str", " = "]).append
      (Inline.stay.append (.texts [c.2, ";"]))).group 0 true
  have text_eq : String.join
      (["pub ", "const ", c.1.text, ": ", "&", "'static", " ", "str", " = "] ++ ([] ++ [c.2, ";"])) =
        constantLine c := by
    rw [← String.toList_inj]
    simp [String.join_cons, constantLine]
  rw [pieces, ← text_eq]
  exact .of_inline written

theorem writes_impl (l : Interior) {d : DirectoryCode} (some_constant : d.constants ≠ []) :
    WritesLines
      ((Item.impl [] false false .empty none (nameTy d.ident)
        ⟨[], d.constants.map constantMember⟩).pieces l) d.implLines := by
  let rows := d.constants.map fun c => (constantMember c).pieces l
  have some_row : rows ≠ [] := by simpa [rows] using some_constant
  have constants : List.Forall₂ WritesLines rows (d.constants.map fun c => [constantLine c]) := by
    rw [List.forall₂_map_left_iff, List.forall₂_map_right_iff, List.forall₂_same]
    exact fun c _ => writes_constant l c
  have head : Inline
      (group (-step) false (group step true (words "impl") ++ (words " " ++ words d.ident.text)) ++
        words " ")
      ["impl", " ", d.ident.text, " "] :=
    ((((Inline.words "impl").group step true).append
      (Inline.texts [" ", d.ident.text])).group (-step) false).append (.words " ")
  have pieces : (Item.impl [] false false .empty none (nameTy d.ident)
      ⟨[], d.constants.map constantMember⟩).pieces l =
        group step true
          (group (-step) false (group step true (words "impl") ++ (words " " ++ words d.ident.text)) ++
            words " " ++ braced [] rows) ++ words "\x7d" := by
    have params : Code.Generics.paramPieces l .empty = [] := rfl
    have conditions : Code.Generics.wherePieces l .empty = words " " := rfl
    have attributes : Attribute.listPieces l [] = [] := rfl
    have self : (nameTy d.ident).pieces l = words d.ident.text := rfl
    simp [rows, Item.pieces, Code.implPieces, Code.Members.pieces, Code.wordsIf, params, conditions,
      attributes, self, Function.comp_def]
  have lead : String.join ["impl", " ", d.ident.text, " "] ++ "\x7b" =
      "impl " ++ d.ident.text ++ " \x7b" := by
    rw [← String.toList_inj]
    simp [String.join_cons]
  have lines := WritesLines.block head (.between constants some_row)
  rw [lead] at lines
  rw [pieces, braced_eq some_row]
  have each : (d.constants.map fun c => [constantLine c]).flatten = d.constants.map constantLine := by
    rw [← List.flatMap_def, List.map_eq_flatMap]
  rw [each, List.map_map] at lines
  exact lines

theorem writes_items (n : Nat) (d : DirectoryCode) :
    List.Forall₂ WritesLines (Item.listPieces (Interior.nested (n + 1)) d.items)
      (d.itemLines (docLine (documentation d.path))) := by
  refine .cons (writes_struct n _ d.ident) ?_
  by_cases none : d.constants.isEmpty
  · simp [none, Item.listPieces]
  · have some_constant : d.constants ≠ [] := by simpa using none
    simpa [none, Item.listPieces] using writes_impl (Interior.nested (n + 1)) some_constant

end Lines

end DirectoryCode

namespace Directory

theorem typeTokens_pathType : Declaration.typeTokens pathType = .ok Declaration.staticStr := by
  decide +kernel

theorem Visit.members_declaration (v : Visit) :
    v.declaration.members = (if v.exposed then v.files else []).map v.constant := by
  rw [Visit.declaration]
  cases v.exposed <;> rfl

/-- Constants are spelled as they are declared; of each the name may have become raw. -/
theorem spelled_constants {v : Visit} {files : List String} {spelled : List Declaration.Spelled}
    (h : List.Forall₂ (fun m s => Declaration.spell m = .ok s) (files.map v.constant) spelled) :
    ∃ cs : List (Ident × String),
      List.Forall₂ (fun m k => Declaration.ident m.name = .ok k.1 ∧ m.value = k.2)
        (files.map v.constant) cs ∧
      (∀ k ∈ cs, k.1.isName = true) ∧
      spelled = cs.map fun k => ⟨k.1, Declaration.staticStr, [.literal k.2]⟩ := by
  induction files generalizing spelled with
  | nil =>
    cases h
    exact ⟨[], .nil, by simp, rfl⟩
  | cons f files ih =>
    cases h with
    | @cons _ s _ spelled first others =>
      obtain ⟨cs, hcs, names, rfl⟩ := ih others
      obtain ⟨hi, ht, hv⟩ := Declaration.spell_ok first
      obtain ⟨i, type, value⟩ := s
      rw [show (v.constant f).type = pathType from rfl, typeTokens_pathType] at ht
      rw [Visit.constant, Declaration.valueTokens_quote] at hv
      cases ht
      cases hv
      exact ⟨(i, _) :: cs, .cons ⟨hi, rfl⟩ hcs,
        List.forall_mem_cons.mpr ⟨Declaration.isName_of_ident hi, names⟩, rfl⟩

/-- The code of a directory on a walk. -/
theorem spells_of_tokens {runtime : Code.Path} {v : Visit} {row : List Token}
    (h : Declaration.tokens runtime v.declaration = .ok row) :
    ∃ c : DirectoryCode, c.Spells v.declaration ∧ c.Named ∧ row = c.rows.flatten := by
  obtain ⟨i, hi, h⟩ := Declaration.bind_ok h
  obtain ⟨spelled, hs, h⟩ := Declaration.bind_ok h
  cases h
  rw [v.members_declaration] at hs
  obtain ⟨constants, hc, names, rfl⟩ := spelled_constants (Declaration.mapM_ok hs)
  let path := if v.way = [] then "/" else v.path
  refine ⟨⟨path, i, constants⟩, ⟨rfl, hi, ?_⟩, ⟨Declaration.isName_of_ident hi, names⟩,
    DirectoryCode.directoryTokens_eq ⟨path, i, constants⟩⟩
  rw [v.members_declaration]
  exact hc

end Directory

end TypedDecl
