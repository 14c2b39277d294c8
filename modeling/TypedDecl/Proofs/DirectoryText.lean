import TypedDecl.Proofs.DirectoryCode
import TypedDecl.Proofs.Distinct

namespace TypedDecl

open Code (CommentKind Grammar Ident Interior Item Token dropSpaces)
open Code.Item
open Code.Parser
open Layout
open Namespace (allowLine nestLines unlines segments)

namespace DirectoryCode

/-- The lines of a directory, given that of its documentation. -/
def lines (doc : String) (d : DirectoryCode) : List String :=
  doc :: d.structLine :: if d.constants.isEmpty then [] else d.implLines

theorem flatten_itemLines (doc : String) (d : DirectoryCode) :
    (d.itemLines doc).flatten = d.lines doc := by
  rw [itemLines, lines]
  cases d.constants.isEmpty <;> simp

/-- The lines of the file with such modules and directories; `doc` tells how a path is
documented. -/
def fileLines (doc : String → String) (modules : List Ident) (codes : List DirectoryCode) :
    List String :=
  allowLine :: nestLines modules (codes.flatMap fun c => c.lines (doc c.path))

/-- Without a line feed the documentation of a path is one line comment. -/
theorem docLine_documentation {path : String} (h : '\n' ∉ path.toList) :
    docLine (documentation path) = "/// Resources under \x60" ++ path ++ "\x60." := by
  have chars : (documentation path).toList =
      " Resources under \x60".toList ++ path.toList ++ ['\x60', '.'] := by
    unfold documentation
    rw [String.toList_append, String.toList_append]
    rfl
  have kept : dropSpaces (documentation path).toList = (documentation path).toList := by
    rw [chars, dropSpaces]
    simp
  have one_line : (documentation path).toList.contains '\n' = false := by
    rw [chars]
    simp [h]
  have begins : (documentation path).toList.head? = some ' ' := by
    rw [chars]
    rfl
  have comment : CommentKind.outer.write? (documentation path).toList =
      some ("///" ++ documentation path) := by
    rw [CommentKind.write?, one_line, begins, kept, String.ofList_toList]
    rfl
  rw [docLine, comment, Option.getD_some, ← String.toList_inj, String.toList_append, chars]
  simp

section Files

variable {codes : List DirectoryCode}

theorem reads_codes {more depth : Nat} (h : ∀ c ∈ codes, c.Named)
    (enough : (codes.flatMap rows).flatten.length < more + 2) :
    List.Forall₂ (ReadsNext opens (item (Grammar.nested (more + 2) (depth + 3))))
      (codes.flatMap rows) (codes.flatMap items) := by
  induction codes with
  | nil => exact .nil
  | cons c codes ih =>
    rw [List.forall_mem_cons] at h
    rw [List.flatMap_cons, List.flatten_append, List.length_append] at enough
    have constants := length_constants h.1
    exact List.rel_append (reads_rows h.1 (by omega)) (ih h.2 (by omega))

theorem listPieces_append (l : Interior) (a b : List Item) :
    Item.listPieces l (a ++ b) = Item.listPieces l a ++ Item.listPieces l b := by
  induction a with
  | nil => rfl
  | cons it a ih => rw [List.cons_append, Item.listPieces, ih, Item.listPieces, List.cons_append]

theorem writes_codes (n : Nat) (codes : List DirectoryCode) :
    List.Forall₂ WritesLines (Item.listPieces (Interior.nested (n + 1)) (codes.flatMap items))
      (codes.flatMap fun c => c.itemLines (docLine (documentation c.path))) := by
  induction codes with
  | nil => exact .nil
  | cons c codes ih =>
    rw [List.flatMap_cons, List.flatMap_cons, listPieces_append]
    exact List.rel_append (writes_items n c) ih

/-- The text of a file with some directories in it. -/
theorem formatTokens_codes {i : Ident} {is : List Ident} (hi : ∀ j ∈ i :: is, j.isName = true)
    (hc : ∀ c ∈ codes, c.Named) (some_code : codes ≠ []) :
    formatTokens (Namespace.allowances ++ Namespace.nestTokens (i :: is)
        (codes.flatMap rows).flatten) =
      .ok (unlines (fileLines (fun path => docLine (documentation path)) (i :: is) codes)) := by
  obtain ⟨ts, ht⟩ : ∃ ts, ts = Namespace.allowances ++ Namespace.nestTokens (i :: is)
      (codes.flatMap rows).flatten := ⟨_, rfl⟩
  have long := Namespace.length_nestTokens (i :: is) (codes.flatMap rows).flatten
  have longer : ts.length = Namespace.allowances.length +
      (Namespace.nestTokens (i :: is) (codes.flatMap rows).flatten).length := by
    rw [ht, List.length_append]
  have allowed : 3 ≤ Namespace.allowances.length := by decide
  have reads (depth : Nat) (deep : 3 ≤ depth) :
      List.Forall₂ (ReadsNext opens (item (Grammar.nested (ts.length + 2) depth)))
        (codes.flatMap rows) (codes.flatMap items) := by
    obtain ⟨d, rfl⟩ := Nat.exists_eq_add_of_le' deep
    exact reads_codes hc (by omega)
  have read := Namespace.listOfTokens?_file hi ht 3 reads (by omega)
  have some_item : codes.flatMap items ≠ [] := by
    obtain ⟨c, cs, rfl⟩ := List.exists_cons_of_ne_nil some_code
    exact List.cons_ne_nil _ _
  obtain ⟨n, hn⟩ : ∃ n, ts.length = n + 1 := ⟨ts.length - 1, by omega⟩
  have written := writes_codes n codes
  rw [← hn] at written
  have text : Item.format? ts.length [Namespace.fileItem i is (codes.flatMap items)] = _ :=
    Namespace.format_file some_item written
  have lines : (codes.flatMap fun c => c.itemLines (docLine (documentation c.path))).flatten =
      codes.flatMap fun c => c.lines (docLine (documentation c.path)) := by
    rw [← List.flatMap_id, List.flatMap_assoc]
    simp only [List.flatMap_id, flatten_itemLines]
  rw [← ht, formatTokens, read]
  simp only [text, lines, fileLines]

end Files

end DirectoryCode

namespace Directory

open Declaration (Distinct Emits checkDistinct_eq_ok emits_of_listTokens)
open DirectoryCode (docLine documentation fileLines)

variable {root : Directory} {ds : List Declaration} {ns : String} {options : RenderOptions}
  {text : String}

theorem describe_ok (h : root.describe = .ok ds) :
    ds = root.visits.map Visit.declaration ∧ Distinct ds := by
  obtain ⟨u, checked, h⟩ := Declaration.bind_ok h
  cases h
  exact ⟨root.preOrder_tree, checkDistinct_eq_ok.mp checked⟩

theorem visits_ne_nil (root : Directory) : root.visits ≠ [] := by
  cases root
  exact List.cons_ne_nil _ _

/-- The code of the directories on a walk, one after the other. -/
theorem codes_of_emits {runtime : Code.Path} {vs : List Visit} {ts : List Token}
    (h : Emits runtime (vs.map Visit.declaration) ts) :
    ∃ codes : List DirectoryCode,
      List.Forall₂ (fun d c => c.Spells d) (vs.map Visit.declaration) codes ∧
      (∀ c ∈ codes, c.Named) ∧ ts = (codes.flatMap DirectoryCode.rows).flatten := by
  induction vs generalizing ts with
  | nil =>
    cases h
    exact ⟨[], .nil, by simp, rfl⟩
  | cons v vs ih =>
    cases h with
    | cons first others =>
      obtain ⟨c, spells, named, rfl⟩ := spells_of_tokens first
      obtain ⟨codes, hs, hn, rfl⟩ := ih others
      refine ⟨c :: codes, .cons spells hs, List.forall_mem_cons.mpr ⟨named, hn⟩, ?_⟩
      rw [List.flatMap_cons, List.flatten_append]

/-- The code of directories is read as items and laid out, whatever modules it is in. -/
theorem formatTokens_emits {runtime : Code.Path} {ts : List Token}
    (h : Emits runtime (root.visits.map Visit.declaration) ts) {i : Ident} {is : List Ident}
    (named : ∀ j ∈ i :: is, j.isName = true) :
    ∃ text, formatTokens (Namespace.allowances ++ Namespace.nestTokens (i :: is) ts) = .ok text := by
  obtain ⟨codes, spells, fit, rfl⟩ := codes_of_emits h
  have some_code : codes ≠ [] := by
    rintro rfl
    rw [List.forall₂_nil_right_iff, List.map_eq_nil_iff] at spells
    exact root.visits_ne_nil spells
  exact ⟨_, DirectoryCode.formatTokens_codes named fit some_code⟩

/-- Declarations that have become code are rendered in every namespace that takes some items. -/
theorem exists_render (hd : root.describe = .ok ds) {items others nested : List Token}
    (hi : Declaration.listTokens options.runtime ds = .ok items)
    (hn : Namespace.tokens ns others = .ok nested) : ∃ text, render ns ds options = .ok text := by
  obtain ⟨rfl, -⟩ := describe_ok hd
  obtain ⟨path, -, emits⟩ := emits_of_listTokens hi
  obtain ⟨i, is, named, taken⟩ := Namespace.tokens_of_ok hn
  obtain ⟨text, formatted⟩ := formatTokens_emits emits named
  have code : renderCode ns (root.visits.map Visit.declaration) options.runtime = .ok text := by
    rw [renderCode, hi]
    change (Namespace.tokens ns items).bind formatTokens = _
    rw [taken]
    exact formatted
  rw [render, code]
  exact ⟨_, rfl⟩

/-- What is rendered for a directory, line by line. -/
theorem render_lines (hd : root.describe = .ok ds) (hr : render ns ds options = .ok text) :
    ∃ modules codes,
      List.Forall₂ (fun n i => Declaration.ident n = .ok i) (segments ns) modules ∧
      List.Forall₂ (fun d c => DirectoryCode.Spells c d) ds codes ∧
      text = Header.text options.license options.provenance ++
        unlines (fileLines (fun path => docLine (documentation path)) modules codes) := by
  obtain ⟨rfl, -⟩ := describe_ok hd
  cases code : renderCode ns (root.visits.map Visit.declaration) options.runtime with
  | error e =>
    rw [render, code] at hr
    cases hr
  | ok body =>
    rw [render, code] at hr
    cases hr
    obtain ⟨items, hi, code⟩ := Declaration.bind_ok code
    obtain ⟨ts, ht, code⟩ := Declaration.bind_ok code
    obtain ⟨path, -, emits⟩ := emits_of_listTokens hi
    obtain ⟨codes, spells, named, rfl⟩ := codes_of_emits emits
    obtain ⟨i, is, modules, names, rfl⟩ := Namespace.tokens_ok ht
    refine ⟨i :: is, codes, modules, spells, ?_⟩
    have some_code : codes ≠ [] := by
      rintro rfl
      rw [List.forall₂_nil_right_iff, List.map_eq_nil_iff] at spells
      exact root.visits_ne_nil spells
    rw [DirectoryCode.formatTokens_codes names named some_code] at code
    cases code
    rfl

/-- A path has only the characters of its names, and slashes. -/
theorem Visit.not_mem_path {v : Visit} {c : Char} (slash : c ≠ '/')
    (h : ∀ n ∈ v.way, c ∉ n.toList) : c ∉ v.path.toList := by
  obtain ⟨way, files, exposed⟩ := v
  induction way with
  | nil => simp [Visit.path]
  | cons n way ih =>
    rw [List.forall_mem_cons] at h
    have others := ih h.2
    simp only [Visit.path, List.map_cons, String.join_cons, String.toList_append,
      List.mem_append, not_or] at others ⊢
    exact ⟨⟨by simpa using slash, h.1⟩, others⟩

/-- What is rendered for directories whose names have no line feeds is a template, whatever the
length of the names and the paths. -/
theorem render_template (plain : ∀ v ∈ root.visits, ∀ n ∈ v.way, '\n' ∉ n.toList)
    (hd : root.describe = .ok ds) (hr : render ns ds options = .ok text) :
    ∃ modules codes,
      List.Forall₂ (fun n i => Declaration.ident n = .ok i) (segments ns) modules ∧
      List.Forall₂ (fun d c => DirectoryCode.Spells c d) ds codes ∧
      text = Header.text options.license options.provenance ++
        unlines (fileLines (fun path => "/// Resources under \x60" ++ path ++ "\x60.") modules
          codes) := by
  obtain ⟨modules, codes, hm, hc, lines⟩ := render_lines hd hr
  refine ⟨modules, codes, hm, hc, ?_⟩
  have documented (c : DirectoryCode) (mem : c ∈ codes) :
      docLine (documentation c.path) = "/// Resources under \x60" ++ c.path ++ "\x60." := by
    obtain ⟨d, hd', spells⟩ := Declaration.exists_of_forall₂ hc mem
    rw [(describe_ok hd).1, List.mem_map] at hd'
    obtain ⟨v, hv, rfl⟩ := hd'
    have path : c.path = if v.way = [] then "/" else v.path := (Kind.directory.inj spells.kind).symm
    have no_feed := v.not_mem_path (by decide) (plain v hv)
    refine DirectoryCode.docLine_documentation ?_
    rw [path]
    split
    · decide
    · exact no_feed
  have template : codes.flatMap (fun c => c.lines (docLine (documentation c.path))) =
      codes.flatMap fun c => c.lines ("/// Resources under \x60" ++ c.path ++ "\x60.") :=
    List.flatMap_congr fun c mem => by rw [documented c mem]
  rw [lines, fileLines, fileLines, template]

/-- A name that is longer than any line stays on one line. -/
theorem render_template_of_wide_name : ∃ ds text,
    (mk "" ["a.txt"] [mk (String.ofList (List.replicate 90 'd')) ["b.css"] [] true] true).describe =
      .ok ds ∧
    render "site.type" ds ⟨"runtime", none, Provenance.own ⟨2024, 1, 2, 3, 4, 5, 0⟩⟩ = .ok text ∧
    ∃ modules codes,
      List.Forall₂ (fun n i => Declaration.ident n = .ok i) (segments "site.type") modules ∧
      List.Forall₂ (fun d c => DirectoryCode.Spells c d) ds codes ∧
      text = Header.text none (Provenance.own ⟨2024, 1, 2, 3, 4, 5, 0⟩) ++
        unlines (fileLines (fun path => "/// Resources under \x60" ++ path ++ "\x60.") modules
          codes) := by
  let root := mk "" ["a.txt"] [mk (String.ofList (List.replicate 90 'd')) ["b.css"] [] true] true
  let options : RenderOptions := ⟨"runtime", none, Provenance.own ⟨2024, 1, 2, 3, 4, 5, 0⟩⟩
  have described : root.describe.toBool = true := by decide +kernel
  obtain ⟨ds, hd⟩ := Declaration.exists_ok described
  have emitted : (root.describe.bind (Declaration.listTokens options.runtime)).toBool = true := by
    decide +kernel
  rw [hd, Except.bind] at emitted
  obtain ⟨items, hi⟩ := Declaration.exists_ok emitted
  have nests : (Namespace.tokens "site.type" []).toBool = true := by decide +kernel
  obtain ⟨nested, hn⟩ := Declaration.exists_ok nests
  have rendered : ∃ text, render "site.type" ds options = .ok text := exists_render hd hi hn
  obtain ⟨text, hr⟩ := rendered
  have plain : ∀ v ∈ root.visits, ∀ n ∈ v.way, '\n' ∉ n.toList := by decide +kernel
  have template := render_template plain hd hr
  exact ⟨ds, text, hd, hr, template⟩

end Directory

end TypedDecl
