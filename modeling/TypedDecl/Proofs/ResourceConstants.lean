import TypedDecl.Generation
import TypedDecl.Proofs.DirectoryText
import TypedDecl.Proofs.Names
import TypedDecl.Proofs.Scans

namespace TypedDecl

open Files (Node)
open Name (Word)

/-- Names with a slash before each. -/
def slashed (names : List String) : String := String.join (names.map ("/" ++ ·))

theorem splitGo_append {front : List Char} (free : '/' ∉ front) (acc rest : List Char) :
    Files.Path.splitGo acc (front ++ rest) = Files.Path.splitGo (front.reverse ++ acc) rest := by
  induction front generalizing acc with
  | nil => rfl
  | cons c front ih =>
    rw [List.mem_cons, not_or] at free
    rw [List.cons_append, Files.Path.splitGo, if_neg (Ne.symm free.1), ih free.2,
      List.reverse_cons, List.append_assoc]
    rfl

/-- Between the slashes are the names. -/
theorem splitGo_slashed {names : List String} (free : ∀ n ∈ names, '/' ∉ n.toList)
    (acc : List Char) :
    Files.Path.splitGo acc (slashed names).toList = acc.reverse :: names.map String.toList := by
  induction names generalizing acc with
  | nil => rfl
  | cons n names ih =>
    rw [List.forall_mem_cons] at free
    have chars : (slashed (n :: names)).toList = '/' :: (n.toList ++ (slashed names).toList) := by
      simp [slashed, String.join_cons]
    rw [chars, Files.Path.splitGo, if_pos rfl, splitGo_append free.1, List.append_nil,
      ih free.2, List.reverse_reverse]
    rfl

/-- What holds no slashes can be told from the whole. -/
theorem slashed_injective {a b : List String} (ha : ∀ n ∈ a, '/' ∉ n.toList)
    (hb : ∀ n ∈ b, '/' ∉ n.toList) (h : slashed a = slashed b) : a = b := by
  have names := splitGo_slashed ha []
  rw [h, splitGo_slashed hb []] at names
  exact (List.map_injective_iff.mpr fun _ _ => String.toList_injective) (List.cons.inj names).2.symm

/-- Code with a structure for each real directory below a place and, in it, a constant for each of
the directory's resources. The directories are known by the names that lead to them. -/
structure Reflects [Files.Start] (top : Node) (place : List String) (path : String)
    (code : List (List String × DirectoryCode)) : Prop where
  root : [] ∈ code.map Prod.fst
  once : (code.map Prod.fst).Nodup
  directories : ∀ w, w ∈ code.map Prod.fst ↔
    (top.at? (place ++ w)).any Node.isDirectory = true
  structs : (code.map (·.2.ident)).Nodup
  named : ∀ x ∈ code,
    Declaration.ident ("Root" ++ String.join (x.1.map fun n => "_" ++ Name.sanitize n)) =
      .ok x.2.ident
  constants : ∀ x ∈ code, ∃ files : List String, files.Nodup ∧
    (∀ f, f ∈ files ↔ top.IsResource (place ++ x.1) (Directory.pathBelow path x.1) f) ∧
    List.Forall₂ (fun f k => Text.Quoted.decode k.2 = some (slashed (x.1 ++ [f]))) files
      x.2.constants
  values : (code.flatMap fun x => x.2.constants.map fun k => Text.Quoted.decode k.2).Nodup

namespace Directory

theorem Visit.word_declaredName (v : Visit) : Word v.declaredName.toList := by
  have signs : ∀ c ∈ (String.join (v.way.map fun n => "_" ++ Name.sanitize n)).toList,
      Name.isWord c = true := by
    simp only [String.toList_join, List.mem_flatMap, List.mem_map]
    rintro c ⟨_, ⟨n, -, rfl⟩, hc⟩
    rw [String.toList_append, List.mem_append] at hc
    rcases hc with sign | name
    · obtain rfl : c = '_' := by simpa using sign
      rfl
    · exact (Name.word_sanitize n).isWord c name
  have root : Word ['R', 'o', 'o', 't'] := .intro rfl rfl (List.all_eq_true.mp rfl)
  rw [Visit.declaredName, String.toList_append]
  exact root.append signs

theorem exists_pairs {α β γ : Type} {R : α → β → Prop} {xs : List α} {ys : List β}
    (h : List.Forall₂ R xs ys) (f : α → γ) :
    ∃ ps : List (γ × β), ps.map Prod.fst = xs.map f ∧ ps.map Prod.snd = ys ∧
      ∀ p ∈ ps, ∃ x ∈ xs, p.1 = f x ∧ R x p.2 := by
  induction h with
  | nil => exact ⟨[], rfl, rfl, by simp⟩
  | @cons x y xs ys first _ ih =>
    obtain ⟨ps, fsts, snds, each⟩ := ih
    refine ⟨(f x, y) :: ps, by simp [fsts], by simp [snds], List.forall_mem_cons.mpr ⟨?_, ?_⟩⟩
    · exact ⟨x, List.mem_cons_self, rfl, first⟩
    · intro p hp
      obtain ⟨x', hx, related⟩ := each p hp
      exact ⟨x', List.mem_cons_of_mem x hx, related⟩

variable {top : Node} {place : List String} {path : String} {vs : List Visit}

/-- The constants of a directory hold the ways to its files. -/
theorem decode_constants {v : Visit} {c : DirectoryCode} (h : c.Spells v.declaration)
    (shown : v.exposed = true) :
    List.Forall₂ (fun f k => Text.Quoted.decode k.2 = some (slashed (v.way ++ [f]))) v.files
      c.constants := by
  have spelled := h.constants
  rw [v.members_declaration, shown, if_pos rfl, List.forall₂_map_left_iff] at spelled
  refine spelled.imp fun f k member => ?_
  have way : slashed (v.way ++ [f]) = v.path ++ "/" ++ f := by
    simp [slashed, Visit.path, String.join_append, String.append_assoc]
  rw [← member.2, way]
  exact Text.Quoted.decode_quote _

theorem map_decode {w : List String} {files : List String} {constants : List (Code.Ident × String)}
    (h : List.Forall₂ (fun f k => Text.Quoted.decode k.2 = some (slashed (w ++ [f]))) files
      constants) :
    (constants.map fun k => Text.Quoted.decode k.2) =
      files.map fun f => some (slashed (w ++ [f])) := by
  induction h with
  | nil => rfl
  | cons first _ ih => rw [List.map_cons, List.map_cons, first, ih]

variable [Files.Start]

/-- The names that lead to a resource have no slashes. -/
theorem names_of_isResource {w : List String} {f : String} (named : top.wellNamed = true)
    (h : top.IsResource (place ++ w) path f) : ∀ n ∈ w ++ [f], '/' ∉ n.toList := by
  have free {n : Node} (node : top.at? (place ++ w ++ [f]) = some n) :
      ∀ n ∈ w ++ [f], '/' ∉ n.toList := by
    have all := (Node.wellNamed_at? named node).2
    rw [List.append_assoc] at all
    exact fun n hn => all n (List.mem_append_right place hn)
  cases h with
  | file here => exact free here
  | link here _ => exact free here

/-- Different resources have different ways to them, and a way shows in the constant. -/
theorem nodup_values {code : List (List String × DirectoryCode)} (named : top.wellNamed = true)
    (once : (code.map Prod.fst).Nodup)
    (constants : ∀ x ∈ code, ∃ files : List String, files.Nodup ∧
      (∀ f, f ∈ files ↔ top.IsResource (place ++ x.1) (pathBelow path x.1) f) ∧
      List.Forall₂ (fun f k => Text.Quoted.decode k.2 = some (slashed (x.1 ++ [f]))) files
        x.2.constants) :
    (code.flatMap fun x => x.2.constants.map fun k => Text.Quoted.decode k.2).Nodup := by
  have ways {w u : List String} {p q f e : String} (hf : top.IsResource (place ++ w) p f)
      (he : top.IsResource (place ++ u) q e)
      (same : some (slashed (w ++ [f])) = some (slashed (u ++ [e]))) : w = u ∧ f = e := by
    have whole := slashed_injective (names_of_isResource named hf) (names_of_isResource named he)
      (Option.some.inj same)
    have parts := List.append_inj' whole rfl
    exact ⟨parts.1, (List.cons.inj parts.2).1⟩
  rw [List.nodup_flatMap]
  constructor
  · intro x hx
    obtain ⟨files, nodup, resources, decoded⟩ := constants x hx
    rw [map_decode decoded]
    refine nodup.map_on fun f hf e he same => ?_
    exact (ways ((resources f).mp hf) ((resources e).mp he) same).2
  · rw [List.Nodup, List.pairwise_map] at once
    refine once.imp_of_mem fun {x y} hx hy different value first second => different ?_
    obtain ⟨files, -, resources, decoded⟩ := constants x hx
    obtain ⟨others, -, resources', decoded'⟩ := constants y hy
    change value ∈ x.2.constants.map _ at first
    change value ∈ y.2.constants.map _ at second
    rw [map_decode decoded, List.mem_map] at first
    rw [map_decode decoded', List.mem_map] at second
    obtain ⟨f, hf, rfl⟩ := first
    obtain ⟨e, he, same⟩ := second
    exact (ways ((resources f).mp hf) ((resources' e).mp he) same.symm).1

theorem reflects_of_spells {codes : List DirectoryCode} (covers : Covers top place path vs)
    (named : top.wellNamed = true) (here : (top.at? place).any Node.isDirectory = true)
    (distinct : Declaration.Distinct (vs.map Visit.declaration))
    (spells : List.Forall₂ (fun v c => DirectoryCode.Spells c (Visit.declaration v)) vs codes) :
    ∃ code, code.map Prod.snd = codes ∧ Reflects top place path code := by
  obtain ⟨code, ways, snds, each⟩ := exists_pairs spells Visit.way
  have constants : ∀ x ∈ code, ∃ files : List String, files.Nodup ∧
      (∀ f, f ∈ files ↔ top.IsResource (place ++ x.1) (pathBelow path x.1) f) ∧
      List.Forall₂ (fun f k => Text.Quoted.decode k.2 = some (slashed (x.1 ++ [f]))) files
        x.2.constants := by
    rintro ⟨w, c⟩ hx
    obtain ⟨v, hv, rfl, hc⟩ := each _ hx
    exact ⟨v.files, (covers.files v hv).1, (covers.files v hv).2,
      decode_constants hc (covers.exposed v hv)⟩
  have named_so : ∀ x ∈ code,
      Declaration.ident (Visit.declaredName ⟨x.1, [], true⟩) = .ok x.2.ident := by
    rintro ⟨w, c⟩ hx
    obtain ⟨v, -, rfl, hc⟩ := each _ hx
    exact hc.ident
  have once : (code.map Prod.fst).Nodup := by
    rw [ways]
    exact covers.nodup
  refine ⟨code, snds, ?_, once, ?_, ?_, named_so, constants, nodup_values named once constants⟩
  · rw [ways, covers.ways, List.append_nil]
    exact here
  · rw [ways]
    exact covers.ways
  · have spelled : ∀ x ∈ code, x.2.ident.name = Visit.declaredName ⟨x.1, [], true⟩ :=
      fun x hx => Declaration.ident_word_name (Visit.word_declaredName _) (named_so x hx)
    have names : (code.map (·.2.ident)).map Code.Ident.name =
        (vs.map Visit.declaration).map Declaration.name :=
      calc (code.map (·.2.ident)).map Code.Ident.name
          = code.map (·.2.ident.name) := List.map_map ..
        _ = code.map fun x => Visit.declaredName ⟨x.1, [], true⟩ := List.map_congr_left spelled
        _ = (code.map Prod.fst).map fun w => Visit.declaredName ⟨w, [], true⟩ := by
          rw [List.map_map]
          rfl
        _ = (vs.map Visit.declaration).map Declaration.name := by
          rw [ways, List.map_map, List.map_map]
          rfl
    refine List.Nodup.of_map Code.Ident.name ?_
    rw [names]
    exact distinct.1

/-- The constants hold the ways to the files that a walk comes to. -/
theorem mem_values {code : List (List String × DirectoryCode)}
    (reflects : Reflects top place path code) (covers : Covers top place path vs)
    {value : Option String} :
    value ∈ (code.flatMap fun x => x.2.constants.map fun k => Text.Quoted.decode k.2) ↔
      ∃ v ∈ vs, ∃ f ∈ v.files, value = some (slashed (v.way ++ [f])) := by
  rw [List.mem_flatMap]
  constructor
  · rintro ⟨x, hx, mem⟩
    obtain ⟨files, -, resources, decoded⟩ := reflects.constants x hx
    rw [map_decode decoded, List.mem_map] at mem
    obtain ⟨f, hf, rfl⟩ := mem
    have way := (covers.ways x.1).mpr ((reflects.directories x.1).mp (List.mem_map_of_mem hx))
    obtain ⟨v, hv, same⟩ := List.mem_map.mp way
    refine ⟨v, hv, f, ((covers.files v hv).2 f).mpr ?_, by rw [same]⟩
    rw [same]
    exact (resources f).mp hf
  · rintro ⟨v, hv, f, hf, rfl⟩
    have directory := (covers.ways v.way).mp (List.mem_map_of_mem hv)
    obtain ⟨x, hx, same⟩ := List.mem_map.mp ((reflects.directories v.way).mpr directory)
    obtain ⟨files, -, resources, decoded⟩ := reflects.constants x hx
    refine ⟨x, hx, ?_⟩
    rw [map_decode decoded, List.mem_map]
    refine ⟨f, (resources f).mpr ?_, by rw [same]⟩
    rw [same]
    exact ((covers.files v hv).2 f).mp hf

end Directory

namespace Generated

section Scans

variable [Files.Start]

theorem run_staticMap (top : Node) (s : Settings) (p : Provenance) (path : String) :
    ((staticMap Node.host s p path).run top).1 =
      ((scan Node.host path).run top).1.bind (ofDirectory s p) := by
  rw [staticMap, StateT.run_bind]
  rfl

/-- What is generated for a directory of resources reflects what is there. -/
theorem reflects_of_staticMap {top : Node} {s : Settings} {p : Provenance} {path : String}
    {g : Generated} (named : top.wellNamed = true)
    (run : ((staticMap Node.host s p path).run top).1 = .ok g) :
    ∃ place modules code, top.resolve path = .ok place ∧ Reflects top place path code ∧
      g.count = code.length ∧
      List.Forall₂ (fun n i => Declaration.ident n = .ok i)
        (Namespace.segments s.staticMap.namespaceText) modules ∧
      g.code = Header.text (s.renderOptions s.sql.runtime p).license p ++
        Namespace.unlines (DirectoryCode.fileLines
          (fun path => DirectoryCode.docLine (DirectoryCode.documentation path)) modules
          (code.map Prod.snd)) := by
  rw [run_staticMap] at run
  obtain ⟨root, found, made⟩ := Declaration.bind_ok run
  obtain ⟨place, resolved, directory, -, scanned, -⟩ := scan_eq_ok named found
  obtain ⟨ds, described, made⟩ := Declaration.bind_ok made
  obtain ⟨text, rendered, made⟩ := Declaration.bind_ok made
  cases made
  obtain ⟨modules, codes, hm, spells, lines⟩ := Directory.render_lines described rendered
  obtain ⟨rfl, distinct⟩ := Directory.describe_ok described
  rw [List.forall₂_map_left_iff] at spells
  obtain ⟨code, rfl, reflects⟩ :=
    Directory.reflects_of_spells (scanned.covers directory) named directory distinct spells
  refine ⟨place, modules, code, resolved, reflects, ?_, hm, lines⟩
  have counted := spells.length_eq
  rw [List.length_map] at counted
  rw [← counted, List.length_map]

end Scans

/-- Files with a link to the directory they are in, one to a file and one to nothing. -/
def linkedFiles : Node :=
  .directory [("site", .directory [("again", .link "../site"),
    ("fonts", .directory [("a.woff", .file ⟨#[]⟩)]), ("front", .link "fonts/a.woff"),
    ("gone", .link "nowhere"), ("style \".css", .file ⟨#[]⟩)])]

/-- The link to a directory has no constant; the file and the other links have one each. -/
theorem reflects_of_linkedFiles : ∃ g,
    linkedFiles.wellNamed = true ∧
    ((staticMap Node.host Settings.standard (Provenance.own ⟨2024, 1, 2, 3, 4, 5, 0⟩) "site").run
      linkedFiles).1 = .ok g ∧
    ∃ modules code, Reflects linkedFiles ["site"] "site" code ∧ g.count = code.length ∧
      (code.flatMap fun x => x.2.constants.map fun k => Text.Quoted.decode k.2).Perm
        [some "/front", some "/gone", some "/style \".css", some "/fonts/a.woff"] ∧
      List.Forall₂ (fun n i => Declaration.ident n = .ok i)
        (Namespace.segments Settings.standard.staticMap.namespaceText) modules ∧
      g.code = Header.text
          (Settings.standard.renderOptions Settings.standard.sql.runtime
            (Provenance.own ⟨2024, 1, 2, 3, 4, 5, 0⟩)).license
          (Provenance.own ⟨2024, 1, 2, 3, 4, 5, 0⟩) ++
        Namespace.unlines (DirectoryCode.fileLines
          (fun path => DirectoryCode.docLine (DirectoryCode.documentation path)) modules
          (code.map Prod.snd)) := by
  have found : ((scan Node.host "site").run linkedFiles).1 = .ok (.mk ""
      ["front", "gone", "style \".css"] [.mk "fonts" ["a.woff"] [] true] true) := by
    have listed : linkedFiles.listVia .plain "site" = .ok [("again", .link true),
        ("fonts", .directory [("a.woff", .file)]), ("front", .link false), ("gone", .link false),
        ("style \".css", .file)] := rfl
    have told : Directory.foundEntries "site" [("again", .link true),
        ("fonts", .directory [("a.woff", .file)]), ("front", .link false), ("gone", .link false),
        ("style \".css", .file)] =
      [("fonts", (Directory.assemble "fonts" [("a.woff", .ok none)]).map some),
        ("front", .ok none), ("gone", .ok none), ("style \".css", .ok none)] := rfl
    have fonts : Directory.assemble "fonts" [("a.woff", .ok none)] =
        .ok (.mk "fonts" ["a.woff"] [] true) :=
      Directory.assemble_of_sorted _ (List.pairwise_singleton ..)
    have sorted : ([("fonts", .ok (some (Directory.mk "fonts" ["a.woff"] [] true))),
        ("front", .ok none), ("gone", .ok none), ("style \".css", .ok none)] : List Found).Pairwise
          fun a b => decide (a.1 ≤ b.1) = true := by
      decide +kernel
    rw [Node.host, run_scan, listed]
    dsimp only
    rw [Directory.ofEntries, told, fonts]
    exact congrArg (Except.mapError _) (Directory.assemble_of_sorted _ sorted)
  have generated : (((staticMap Node.host Settings.standard
      (Provenance.own ⟨2024, 1, 2, 3, 4, 5, 0⟩) "site").run linkedFiles).1).toBool = true := by
    rw [run_staticMap, found]
    decide +kernel
  obtain ⟨g, run⟩ := Declaration.exists_ok generated
  have named : linkedFiles.wellNamed = true := by decide +kernel
  obtain ⟨place, modules, code, resolved, reflects, count, segments, text⟩ :=
    reflects_of_staticMap named run
  have resolves : linkedFiles.resolve "site" = .ok ["site"] := rfl
  rw [resolves] at resolved
  cases resolved
  obtain ⟨place, resolved, directory, -, scanned, -⟩ := scan_eq_ok named found
  rw [resolves] at resolved
  cases resolved
  refine ⟨g, named, run, modules, code, reflects, count, ?_, segments, text⟩
  refine (List.perm_ext_iff_of_nodup reflects.values (by decide)).mpr fun value => ?_
  rw [Directory.mem_values reflects (scanned.covers directory)]
  simp [Directory.visits, Directory.visitsBelow, Directory.Visit.below, Directory.name, slashed,
    String.join, or_assoc]

end Generated

end TypedDecl
