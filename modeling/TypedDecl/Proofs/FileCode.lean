import TypedDecl.Proofs.Emission
import TypedDecl.Proofs.Layout.Laid
import TypedDecl.Proofs.Layout.Lines
import TypedDecl.Proofs.Reading.Items
import TypedDecl.Proofs.Spelling
import TypedDecl.Rendering

namespace TypedDecl.Namespace

open Code (Ident Token Attribute Item Grammar)
open Code.Token (word)
open Code.Item
open Code.Parser
open Layout

/-- Names inside each other, the first one outermost. -/
def nestTokens : List Ident → List Token → List Token
  | [], items => items
  | i :: is, items => publicTokens (moduleTokens i (nestTokens is items))

theorem segments_ne_nil (text : String) : segments text ≠ [] := by
  have some_segment (acc cs : List Char) : segmentsGo acc cs ≠ [] := by
    fun_induction segmentsGo acc cs <;> simp_all
  simpa [segments] using some_segment [] text.toList

theorem nest_ok {names : List String} {items ts : List Token} (h : nest names items = .ok ts) :
    ∃ is, List.Forall₂ (fun n i => Declaration.ident n = .ok i) names is ∧
      (∀ i ∈ is, i.isName = true) ∧ ts = nestTokens is items := by
  induction names generalizing ts with
  | nil =>
    cases h
    exact ⟨[], .nil, by simp, rfl⟩
  | cons n names ih =>
    rw [nest, List.foldrM_cons] at h
    obtain ⟨inner, hi, h⟩ := Declaration.bind_ok h
    obtain ⟨is, spelled, named, rfl⟩ := ih hi
    cases hn : Declaration.ident n with
    | error e =>
      rw [hn] at h
      cases h
    | ok i =>
      rw [hn] at h
      cases h
      exact ⟨i :: is, .cons hn spelled,
        List.forall_mem_cons.mpr ⟨Declaration.isName_of_ident hn, named⟩, rfl⟩

/-- The modules that a namespace names, the outermost one apart from the others. -/
theorem tokens_ok {text : String} {items ts : List Token} (h : tokens text items = .ok ts) :
    ∃ i is, List.Forall₂ (fun n i => Declaration.ident n = .ok i) (segments text) (i :: is) ∧
      (∀ j ∈ i :: is, j.isName = true) ∧ ts = allowances ++ nestTokens (i :: is) items := by
  rw [tokens] at h
  split at h
  · cases h
  · cases hn : nest (segments text) items with
    | error e =>
      rw [hn] at h
      cases h
    | ok inner =>
      rw [hn] at h
      cases h
      obtain ⟨is, spelled, named, rfl⟩ := nest_ok hn
      cases is with
      | nil => exact absurd (List.forall₂_nil_right_iff.mp spelled) (segments_ne_nil text)
      | cons i is => exact ⟨i, is, spelled, named, rfl⟩

theorem nest_eq {names : List String} {is : List Ident}
    (h : List.Forall₂ (fun n i => Declaration.ident n = .ok i) names is) (items : List Token) :
    nest names items = .ok (nestTokens is items) := by
  induction h with
  | nil => rfl
  | cons first _ ih =>
    rw [nest] at ih ⊢
    rw [List.foldrM_cons, ih, nestTokens]
    exact congrArg (Except.map _) first

/-- A namespace that takes some items takes all. -/
theorem tokens_of_ok {text : String} {items ts : List Token} (h : tokens text items = .ok ts) :
    ∃ i is, (∀ j ∈ i :: is, j.isName = true) ∧
      ∀ others, tokens text others = .ok (allowances ++ nestTokens (i :: is) others) := by
  obtain ⟨i, is, spelled, named, rfl⟩ := tokens_ok h
  refine ⟨i, is, named, fun others => ?_⟩
  rw [tokens] at h ⊢
  split at h
  · cases h
  · next filled =>
    rw [if_neg filled, nest_eq spelled]
    rfl

/-- The rows in modules: one row for the outermost module. -/
def nestRows : List Ident → List (List Token) → List (List Token)
  | [], rows => rows
  | i :: is, rows => [publicTokens (moduleTokens i (nestRows is rows).flatten)]

theorem flatten_nestRows (is : List Ident) (rows : List (List Token)) :
    (nestRows is rows).flatten = nestTokens is rows.flatten := by
  induction is with
  | nil => rfl
  | cons i is ih => rw [nestRows, nestTokens, List.flatten_singleton, ih]

def nestItems : List Ident → List Item → List Item
  | [], items => items
  | i :: is, items => [.module [] .everywhere false i [] (nestItems is items)]

/-- What the allowances are read as. -/
def allowance : Attribute :=
  ⟨false, ⟨false, [Ident.plain "allow"]⟩,
    .group .paren
      ⟨[word "non_camel_case_types", .punct ',' false, word "non_snake_case", .punct ',' false,
        word "non_upper_case_globals", .punct ',' false, word "dead_code"], rfl⟩⟩

/-- The one item of a file. -/
def fileItem (i : Ident) (is : List Ident) (items : List Item) : Item :=
  .module [allowance] .everywhere false i [] (nestItems is items)

section Reading

variable {more depth : Nat} {rows : List (List Token)} {items : List Item}

theorem length_nestRows (is : List Ident) (rows : List (List Token)) :
    (nestRows is rows).length ≤ max rows.length 1 := by
  cases is with
  | nil => exact Nat.le_max_left _ _
  | cons i is => exact Nat.le_max_right _ _

theorem reads_module {i : Ident} (hi : i.isName = true)
    (h : List.Forall₂ (ReadsNext opens (item (Grammar.nested more depth))) rows items)
    (enough : rows.length < more) (front : Front) :
    Reads (itemAfter (Grammar.nested more (depth + 1)) front) (moduleTokens i rows.flatten)
      (some (.module front.attributes front.visibility false i [] items)) := by
  intro rest
  have read := moduleItem_rows (g := Grammar.nested more (depth + 1)) hi front h enough rest
  exact congrArg (Option.map fun r : Item × List Token => (some r.1, r.2)) read

/-- Each module is read one level above what is in it. -/
theorem reads_nest {is : List Ident} (names : ∀ i ∈ is, i.isName = true)
    (h : List.Forall₂ (ReadsNext opens (item (Grammar.nested more depth))) rows items)
    (enough : rows.length < more) (several : 1 < more) :
    List.Forall₂ (ReadsNext opens (item (Grammar.nested more (depth + is.length))))
      (nestRows is rows) (nestItems is items) := by
  induction is with
  | nil => exact h
  | cons i is ih =>
    rw [List.forall_mem_cons] at names
    have fewer := length_nestRows is rows
    have inner := reads_module names.1 (ih names.2) (by omega) ⟨[], .everywhere⟩
    refine .cons ⟨?_, fun rest => rfl⟩ .nil
    have seen (rest : List Token) :
        visibility (publicTokens (moduleTokens i (nestRows is rows).flatten) ++ rest) =
          some (.everywhere, moduleTokens i (nestRows is rows).flatten ++ rest) := rfl
    exact item_rows .nil (by simp; omega) (fun _ => rfl) seen inner

theorem outerAttribute_allowances (more depth : Nat) :
    ReadsNext startsAttribute (outerAttribute (Grammar.nested more depth)) allowances allowance :=
  ⟨fun _ => rfl, fun _ => rfl⟩

theorem length_nestTokens (is : List Ident) (items : List Token) :
    is.length + items.length ≤ (nestTokens is items).length := by
  induction is with
  | nil => simp [nestTokens]
  | cons i is ih =>
    simp only [nestTokens, publicTokens, moduleTokens, Token.group, List.length_cons,
      List.length_append]
    omega

/-- A file is read as its item, where the items in it are read at some depth. -/
theorem listOfTokens?_file {i : Ident} {is : List Ident} (names : ∀ j ∈ i :: is, j.isName = true)
    {ts : List Token} (ht : ts = allowances ++ nestTokens (i :: is) rows.flatten) (need : Nat)
    (h : ∀ depth, need ≤ depth →
      List.Forall₂ (ReadsNext opens (item (Grammar.nested (ts.length + 2) depth))) rows items)
    (shallow : need ≤ ts.length * 3) :
    Item.listOfTokens? ts = some [fileItem i is items] := by
  have longer : ts.length = allowances.length + (nestTokens (i :: is) rows.flatten).length := by
    rw [ht, List.length_append]
  have long := length_nestTokens (i :: is) rows.flatten
  have counted := length_le_flatten (h need (Nat.le_refl need))
  rw [List.length_cons] at long
  rw [List.forall_mem_cons] at names
  obtain ⟨depth, deep⟩ : ∃ depth, ts.length * 4 + 3 = depth + is.length + 1 :=
    ⟨ts.length * 4 + 2 - is.length, by omega⟩
  have fewer := length_nestRows is rows
  have nested := reads_nest names.2 (h depth (by omega)) (by omega) (by omega)
  have inner := reads_module names.1 nested (by omega) ⟨[allowance], .everywhere⟩
  have allowed := List.Forall₂.cons
    (outerAttribute_allowances (ts.length + 2) (depth + is.length + 1)) .nil
  have seen (rest : List Token) :
      visibility (publicTokens (moduleTokens i (nestRows is rows).flatten) ++ rest) =
        some (.everywhere, moduleTokens i (nestRows is rows).flatten ++ rest) := rfl
  have file := item_rows allowed (by simp) (fun _ => rfl) seen inner
  have row : [allowances].flatten ++ publicTokens (moduleTokens i (nestRows is rows).flatten) =
      ts := by
    rw [ht, flatten_nestRows, nestTokens, List.flatten_singleton]
  rw [row] at file
  have begun (rest : List Token) : opens (ts ++ rest) = true := by
    rw [ht]
    rfl
  have enough : [ts].length < ts.length + 1 := by
    rw [List.length_singleton]
    omega
  have whole := all_rows (.cons ⟨file, begun⟩ .nil) enough [] rfl
  have reader : (Grammar.forRow ts).item =
      item (Grammar.nested (ts.length + 2) (depth + is.length + 1)) := by
    rw [← deep]
    rfl
  rw [Item.listOfTokens?, Code.Parser.all?, reader]
  simp only [List.flatten_singleton, List.append_nil] at whole
  rw [whole]
  rfl

end Reading

section Lines

open Code (Interior)

def allowLine : String :=
  "#[allow(non_camel_case_types, non_snake_case, non_upper_case_globals, dead_code)]"

/-- Lines in modules, each module a level deeper than the one it is in. -/
def nestLines : List Ident → List String → List String
  | [], ls => ls
  | i :: is, ls => ("pub mod " ++ i.text ++ " \x7b") :: (nestLines is ls).map ("    " ++ ·) ++ ["\x7d"]

/-- Lines as a text. -/
def unlines (ls : List String) : String := String.join (ls.map (· ++ "\n"))

variable {l : Interior} {items : List Item} {lss : List (List String)}

theorem pieces_module (l : Interior) (i : Ident) (items : List Item) :
    (Item.module [] .everywhere false i [] items).pieces l =
      group step true (words "pub " ++ words "mod " ++ words i.text ++ words " " ++
        braced [] (Item.listPieces l items)) ++ words "\x7d" := by
  simp [Item.pieces, Code.Visibility.text, Code.wordsIf, Attribute.listPieces]

theorem writes_module {i : Ident} (some_item : items ≠ [])
    (h : List.Forall₂ WritesLines (Item.listPieces l items) lss) :
    WritesLines ((Item.module [] .everywhere false i [] items).pieces l)
      (nestLines [i] lss.flatten) := by
  have some_row : Item.listPieces l items ≠ [] := by
    cases items with
    | nil => exact absurd rfl some_item
    | cons it items => exact List.cons_ne_nil _ _
  have head : Inline (words "pub " ++ words "mod " ++ words i.text ++ words " ")
      ["pub ", "mod ", i.text, " "] := Inline.texts ["pub ", "mod ", i.text, " "]
  have lines := WritesLines.block head (.between h some_row)
  have lead : String.join ["pub ", "mod ", i.text, " "] ++ "\x7b" =
      "pub mod " ++ i.text ++ " \x7b" := by
    rw [← String.toList_inj]
    simp [String.join_cons]
  rw [lead] at lines
  rw [pieces_module, braced_eq some_row]
  exact lines

theorem nestItems_ne_nil {is : List Ident} (some_item : items ≠ []) : nestItems is items ≠ [] := by
  cases is with
  | nil => exact some_item
  | cons i is => exact List.cons_ne_nil _ _

/-- Modules are lines of their own, however the lines in them are cut into items. -/
theorem writes_nest (is : List Ident) (some_item : items ≠ [])
    (h : List.Forall₂ WritesLines (Item.listPieces l items) lss) :
    ∃ nested, List.Forall₂ WritesLines (Item.listPieces l (nestItems is items)) nested ∧
      nested.flatten = nestLines is lss.flatten := by
  induction is with
  | nil => exact ⟨lss, h, rfl⟩
  | cons i is ih =>
    obtain ⟨nested, written, lines⟩ := ih
    refine ⟨[nestLines [i] nested.flatten],
      .cons (writes_module (nestItems_ne_nil some_item) written) .nil, ?_⟩
    rw [List.flatten_singleton, lines]
    rfl

/-- At the start of a file. -/
def start : Writer := ⟨"", margin, 0, 0, [.broken 0 true]⟩

theorem fresh_start : start.Fresh := ⟨rfl, Int.le_refl _, Int.le_refl _, 0, [], rfl⟩

/-- The names that are let through, between their parentheses. -/
def allowanceRow : List Piece :=
  [turn 0 0, .text "non_camel_case_types", .text ",", turn 0 1, .text "non_snake_case", .text ",",
    turn 0 1, .text "non_upper_case_globals", .text ",", turn 0 1, .text "dead_code",
    turn (-step) 0]

theorem allowance_pieces (l : Interior) (rest : List Piece) :
    allowance.pieces l ++ rest =
      .text "#[" :: .text "allow" :: .text "(" :: .start step true :: (allowanceRow ++
        .stop :: .text ")" :: .text "]" :: turn 0 1 :: rest) := rfl

theorem allowanceRow_plain : ∀ p ∈ allowanceRow, (∃ s, p = .text s) ∨ ∃ g, p = .gap g := by
  simp [allowanceRow, turn]

theorem overlong_allowance {rest : List Piece} (h : Overlong 1 rest) :
    Overlong 1 (allowance.pieces l ++ rest) := by
  rw [allowance_pieces]
  have behind : Overlong 1 (.text ")" :: .text "]" :: turn 0 1 :: rest) :=
    .text _ (.text _ (.gap _ h))
  exact .text _ (.text _ (.text _ (.start _ _ (.row allowanceRow_plain (.stop behind)))))

/-- The allowances are short enough for one line. -/
theorem writes_allowance (l : Interior) (rest : List Piece) :
    start.pieces (allowance.pieces l ++ rest) = (start.ended [allowLine] 0).pieces rest := by
  let tail : List Piece := .stop :: .text ")" :: .text "]" :: turn 0 1 :: rest
  obtain ⟨w, hw⟩ : ∃ w, w = start.text "#[allow(" := ⟨_, rfl⟩
  have room : w.room = 81 := by
    rw [hw]
    decide
  have fit : fits w.room 1 (allowanceRow ++ tail) = true := by
    have width : rowWidth allowanceRow = 71 := by decide +kernel
    rw [room, fits_row allowanceRow_plain (by rw [width]; decide), width]
    simp [tail, turn, fits]
    decide
  let inner : Writer := { w with frames := .flat :: w.frames }
  have flat : inner.Flat := rfl
  have row : inner.pieces (allowanceRow ++ tail) = (inner.text
      "non_camel_case_types, non_snake_case, non_upper_case_globals, dead_code").pieces tail := by
    simp [allowanceRow, Writer.pieces_text, Writer.Flat.zero, Writer.Flat.space, flat,
      Writer.flat_text, Writer.text_text]
  have opened : ((start.text "#[").text "allow").text "(" = w := by
    rw [Writer.text_text, Writer.text_text, hw]
    rfl
  rw [allowance_pieces, Writer.pieces_text, Writer.pieces_text, Writer.pieces_text, opened,
    Writer.pieces, Writer.piece, Writer.startGroup, fit, if_pos rfl, row]
  have closed (names : String) : (inner.text names).pieces tail =
      (((w.text names).text ")").text "]").pieces (turn 0 1 :: rest) := rfl
  rw [closed, hw, Writer.text_text, Writer.text_text, Writer.text_text]
  have line := Writer.turn_texts (w := start) rfl allowLine [] 0 1 rest
  rw [fresh_start.finish, String.join_cons, String.join_nil, String.append_empty] at line
  exact line

theorem laid_allowance (l : Interior) : Laid (allowance.pieces l) := by
  have row := allowance_pieces l []
  rw [List.append_nil] at row
  simp [row, allowanceRow, turn]

theorem filePieces_file (depth : Nat) (i : Ident) (is : List Ident) (items : List Item) :
    Item.filePieces depth [fileItem i is items] =
      .start 0 true :: (allowance.pieces (Interior.nested depth) ++
        ((Item.module [] .everywhere false i [] (nestItems is items)).pieces
          (Interior.nested depth) ++ turn 0 endless :: [.stop])) := by
  simp [Item.filePieces, group, Item.listPieces, fileItem, Item.pieces, Attribute.listPieces,
    line_eq_turn]

theorem laid_file {depth : Nat} {i : Ident} {is : List Ident}
    (h : Laid ((Item.module [] .everywhere false i [] (nestItems is items)).pieces
      (Interior.nested depth))) : Laid (Item.filePieces depth [fileItem i is items]) := by
  rw [filePieces_file]
  simp [laid_allowance, h, turn]

/-- A file is the line of its allowances and its modules. -/
theorem format_file {i : Ident} {is : List Ident} {depth : Nat} (some_item : items ≠ [])
    (h : List.Forall₂ WritesLines (Item.listPieces (Interior.nested depth) items) lss) :
    Item.format? depth [fileItem i is items] =
      some (unlines (allowLine :: nestLines (i :: is) lss.flatten)) := by
  obtain ⟨nested, written, lines⟩ := writes_nest is some_item h
  have body := writes_module (i := i) (nestItems_ne_nil some_item) written
  let l := Interior.nested depth
  let module := (Item.module [] .everywhere false i [] (nestItems is items)).pieces l
  let content := allowance.pieces l ++ (module ++ turn 0 endless :: [.stop])
  have pieces : Item.filePieces depth [fileItem i is items] = .start 0 true :: content :=
    filePieces_file depth i is items
  have laid : .unknown ∉ Item.filePieces depth [fileItem i is items] := laid_file body.laid
  have long : fits margin 1 content = false :=
    overlong_allowance (body.passes (.turn 0 0 _)) margin (Int.le_refl _)
  have written : start.pieces content =
      ((start.ended [allowLine] 0).ended (nestLines [i] nested.flatten) 0).pieces [.stop] := by
    rw [writes_allowance, body.writes _ _ _ (fresh_start.ended _)]
  have begun : Writer.empty.startGroup 0 true content = start := by
    rw [Writer.startGroup, show Writer.empty.room = margin from rfl, long]
    rfl
  rw [Item.format?, if_neg laid, Layout.render, pieces, Writer.pieces, Writer.piece, begun, written,
    Writer.ended_ended, lines]
  simp [Writer.pieces, Writer.piece, Writer.stopGroup, Writer.ended, start, Writer.blanks, unlines,
    nestLines]

end Lines

section Formable

/-- What is laid out was read as items. -/
theorem isSome_of_formatTokens {ts : List Token} {text : String}
    (h : formatTokens ts = .ok text) : (Item.listOfTokens? ts).isSome = true := by
  unfold formatTokens at h
  split at h
  · next read => rw [read, Option.isSome_some]
  · cases h

open Code (Interior)

theorem laid_module {l : Interior} {i : Ident} {items : List Item}
    (h : ∀ it ∈ items, Laid (it.pieces l)) :
    Laid ((Item.module [] .everywhere false i [] items).pieces l) := by
  have rows : ∀ row ∈ Item.listPieces l items, Laid row := by
    induction items with
    | nil => exact nofun
    | cons it items ih =>
      obtain ⟨first, others⟩ := List.forall_mem_cons.mp h
      exact List.forall_mem_cons.mpr ⟨first, ih others⟩
  have body : Laid (braced [] (Item.listPieces l items)) := laid_braced laid_nil rows
  simp [pieces_module, body]

theorem laid_nestItems {l : Interior} (is : List Ident) {items : List Item}
    (h : ∀ it ∈ items, Laid (it.pieces l)) : ∀ it ∈ nestItems is items, Laid (it.pieces l) := by
  induction is with
  | nil => exact h
  | cons i is ih => simpa [nestItems] using laid_module ih

/-- Rows that are read as items, given as much room as they have tokens; and all of the items have a
layout. -/
structure Formable (rows : List (List Token)) (items : List Item) : Prop where
  reads : ∀ more depth, rows.flatten.length + 1 < more → rows.flatten.length * 3 ≤ depth →
    List.Forall₂ (ReadsNext opens (item (Grammar.nested more depth))) rows items
  laid : ∀ n, ∀ it ∈ items, Laid (it.pieces (Interior.nested (n + 1)))

namespace Formable

theorem nil : Formable [] [] := ⟨fun _ _ _ _ => .nil, fun _ => nofun⟩

theorem append {rows rows' : List (List Token)} {items items' : List Item}
    (h : Formable rows items) (h' : Formable rows' items') :
    Formable (rows ++ rows') (items ++ items') := by
  refine ⟨fun more depth enough deep => ?_, fun n => ?_⟩
  · rw [List.flatten_append, List.length_append] at enough deep
    exact List.rel_append (h.reads more depth (by omega) (by omega))
      (h'.reads more depth (by omega) (by omega))
  · rw [List.forall_mem_append]
    exact ⟨h.laid n, h'.laid n⟩

/-- In modules, such rows are read back and laid out. -/
theorem formatTokens {rows : List (List Token)} {items : List Item} (h : Formable rows items)
    {i : Ident} {is : List Ident} (names : ∀ j ∈ i :: is, j.isName = true) :
    ∃ text, formatTokens (allowances ++ nestTokens (i :: is) rows.flatten) = .ok text := by
  obtain ⟨ts, ht⟩ : ∃ ts, ts = allowances ++ nestTokens (i :: is) rows.flatten := ⟨_, rfl⟩
  have long := length_nestTokens (i :: is) rows.flatten
  have longer : ts.length = allowances.length + (nestTokens (i :: is) rows.flatten).length := by
    rw [ht, List.length_append]
  have read : Item.listOfTokens? ts = some [fileItem i is items] :=
    listOfTokens?_file names ht _ (fun depth deep => h.reads _ depth (by omega) deep) (by omega)
  have some_token : ts.length ≠ 0 := by
    rw [longer]
    exact Nat.ne_of_gt (Nat.add_pos_left (by decide) _)
  obtain ⟨n, hn⟩ := Nat.exists_eq_succ_of_ne_zero some_token
  have laid : Laid (Item.filePieces ts.length [fileItem i is items]) := by
    rw [hn]
    exact laid_file (laid_module (laid_nestItems is (h.laid n)))
  rw [← ht, TypedDecl.formatTokens, read]
  simp only [Item.format?, if_neg laid]
  exact ⟨_, rfl⟩

end Formable

end Formable

end TypedDecl.Namespace
