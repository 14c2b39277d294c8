import TypedDecl.Proofs.CatalogNaming
import TypedDecl.Proofs.DirectoryNaming

namespace TypedDecl

open Catalog (tableKeys columnsOf wrapperName)
open Code (Ident Path Token)
open Code.Item (callTokens pathTokens)

namespace Declaration

/-- The identifier that a name stands as. -/
def identOf (name : String) : Ident := (Ident.ofName? name).getD (plain name)

theorem identOf_eq {name : String} {i : Ident} (h : ident name = .ok i) : identOf name = i := by
  rw [identOf, ofName?_of_ident h]
  rfl

/-- The name can be used and stands as its identifier. -/
def Stands (name : String) : Prop := ident name = .ok (identOf name)

theorem Stands.of_ident {name : String} {i : Ident} (h : ident name = .ok i) : Stands name := by
  rw [Stands, identOf_eq h, h]

theorem Stands.isName {name : String} (h : Stands name) : (identOf name).isName = true :=
  isName_of_ident h

/-- A member of the registry: its function, what that returns and what that calls. -/
def entryCode (m : Member) : Spelled :=
  ⟨identOf m.name, [.ident (identOf m.type)],
    callTokens (pathTokens [.ident (identOf m.type)] ["new"]) []⟩

/-- A member of a table: its field and the structure that it holds. -/
def slotCode (m : Member) : Spelled :=
  ⟨identOf m.name, [.ident (identOf m.type)], [.literal m.value]⟩

/-- A member of a directory: its constant. -/
def constantCode (m : Member) : Spelled := ⟨identOf m.name, staticStr, [.literal m.value]⟩

/-- A member as code with its names in their places. A field has no members. -/
def memberCode : Kind → Member → Spelled
  | .registry => entryCode
  | .table _ _ => slotCode
  | .field _ => constantCode
  | .directory _ => constantCode

/-- The names of a member that have places in code. -/
def memberNames : Kind → Member → List String
  | .registry, m => [m.name, m.type]
  | .table _ _, m => [m.name, m.type]
  | .field _, _ => []
  | .directory _, m => [m.name]

/-- The code of a declaration with its names in their places. -/
def template (runtime : Path) (d : Declaration) : List Token :=
  match d.kind with
  | .registry => registryTokens (identOf d.name) (d.members.map entryCode)
  | .table schema table =>
    tableTokens runtime (identOf d.name) schema table (d.members.map slotCode)
  | .field valueType =>
    fieldTokens runtime (identOf d.name) ((typeTokens valueType).toOption.getD [])
  | .directory path => directoryTokens (identOf d.name) path (d.members.map constantCode)

/-- The names that have places in the code of a declaration. -/
def placedNames (d : Declaration) : List String := d.name :: d.members.flatMap (memberNames d.kind)

/-- The code of a member is its template, and every name in it stands as its identifier. -/
def MemberPlaced (kind : Kind) (m : Member) : Prop :=
  ∀ s, spell m = .ok s → s = memberCode kind m ∧ ∀ n ∈ memberNames kind m, Stands n

/-- The code of a declaration is its template, and every name in it stands as its identifier. -/
structure Placed (runtime : Path) (d : Declaration) (row : List Token) : Prop where
  row_eq : row = d.template runtime
  stands : ∀ n ∈ d.placedNames, Stands n

theorem members_placed {kind : Kind} {ms : List Member} {spelled : List Spelled}
    (each : ∀ m ∈ ms, MemberPlaced kind m) (h : ms.mapM spell = .ok spelled) :
    spelled = ms.map (memberCode kind) ∧ ∀ n ∈ ms.flatMap (memberNames kind), Stands n := by
  have spells := mapM_ok h
  clear h
  induction spells with
  | nil => exact ⟨rfl, nofun⟩
  | cons first _ ih =>
    rw [List.forall_mem_cons] at each
    obtain ⟨here, stands⟩ := each.1 _ first
    obtain ⟨further, others⟩ := ih each.2
    rw [List.map_cons, List.flatMap_cons, ← here, further]
    exact ⟨rfl, List.forall_mem_append.mpr ⟨stands, others⟩⟩

variable {runtime : Path} {row : List Token}

theorem placed_of_members {d : Declaration} (each : ∀ m ∈ d.members, MemberPlaced d.kind m)
    (h : tokens runtime d = .ok row) : Placed runtime d row := by
  obtain ⟨name, kind, members⟩ := d
  obtain ⟨i, named, h⟩ := bind_ok h
  have whole {spelled : List Spelled} (spells : members.mapM spell = .ok spelled) :
      spelled = members.map (memberCode kind) ∧
        ∀ n ∈ placedNames ⟨name, kind, members⟩, Stands n := by
    obtain ⟨code, stands⟩ := members_placed each spells
    exact ⟨code, List.forall_mem_cons.mpr ⟨.of_ident named, stands⟩⟩
  cases kind with
  | registry =>
    obtain ⟨spelled, spells, h⟩ := bind_ok h
    cases h
    obtain ⟨code, stands⟩ := whole spells
    refine ⟨?_, stands⟩
    rw [code, ← identOf_eq named]
    rfl
  | table schema table =>
    obtain ⟨spelled, spells, h⟩ := bind_ok h
    cases h
    obtain ⟨code, stands⟩ := whole spells
    refine ⟨?_, stands⟩
    rw [code, ← identOf_eq named]
    rfl
  | field valueType =>
    obtain ⟨value, typed, h⟩ := bind_ok h
    cases h
    have type : (typeTokens valueType).toOption.getD [] = value := by
      rw [typed]
      rfl
    refine ⟨?_, List.forall_mem_cons.mpr ⟨.of_ident named, ?_⟩⟩
    · rw [← identOf_eq named, ← type]
      rfl
    · intro n mem
      obtain ⟨m, -, mem⟩ := List.mem_flatMap.mp mem
      cases mem
  | directory path =>
    obtain ⟨spelled, spells, h⟩ := bind_ok h
    cases h
    obtain ⟨code, stands⟩ := whole spells
    refine ⟨?_, stands⟩
    rw [code, ← identOf_eq named]
    rfl

theorem entry_placed {t : Table} (word : Name.Word t.declared.toList) :
    MemberPlaced .registry t.entry := by
  intro s h
  have named : ident t.declared = .ok s.ident := (spell_ok h).1
  have stands := Stands.of_ident named
  refine ⟨?_, List.forall_mem_cons.mpr ⟨stands, List.forall_mem_singleton.mpr stands⟩⟩
  have function : identOf t.entry.name = s.ident := identOf_eq named
  have type : identOf t.entry.type = s.ident := identOf_eq named
  change s = entryCode t.entry
  rw [entryCode, function, type]
  exact spell_entry word h

theorem slot_placed {withSchema : Bool} {cs : List Column} {k : TableKey} {c : Column}
    (hc : c ∈ columnsOf cs k) :
    MemberPlaced (.table k.schema k.table) ((Table.ofKey withSchema cs k).member c) := by
  intro s h
  obtain ⟨named, _, _⟩ := spell_ok h
  obtain ⟨w, hw⟩ := ident_wrapperName withSchema c
  have held : (Table.ofKey withSchema cs k).fieldName c = wrapperName withSchema c :=
    Table.fieldName_ofKey hc
  have wrapper : ident ((Table.ofKey withSchema cs k).fieldName c) = .ok w := held ▸ hw
  have word : Name.Word (Table.ofKey withSchema cs k).declared.toList :=
    Table.word_declaredName withSchema k
  have made := spell_member word h wrapper
  refine ⟨?_, List.forall_mem_cons.mpr
    ⟨.of_ident named, List.forall_mem_singleton.mpr (.of_ident wrapper)⟩⟩
  change s = slotCode _
  rw [slotCode, identOf_eq named]
  have type := identOf_eq wrapper
  exact made.trans (congrArg (fun i => Spelled.mk s.ident [.ident i] _) type.symm)

theorem constant_placed (v : Directory.Visit) (file path : String) :
    MemberPlaced (.directory path) (v.constant file) := by
  intro s h
  obtain ⟨named, typed, valued⟩ := spell_ok h
  have type : staticStr = s.type :=
    Except.ok.inj (Directory.typeTokens_pathType.symm.trans typed)
  have value : [Token.literal (v.constant file).value] = s.value :=
    Except.ok.inj ((valueTokens_quote _).symm.trans valued)
  refine ⟨?_, List.forall_mem_singleton.mpr (.of_ident named)⟩
  change s = constantCode _
  rw [constantCode, identOf_eq named, value, type]

theorem emits_placed {ds : List Declaration} {ts : List Token} (h : Emits runtime ds ts)
    (each : ∀ d ∈ ds, ∀ m ∈ d.members, MemberPlaced d.kind m) :
    ts = ds.flatMap (template runtime) ∧ ∀ n ∈ ds.flatMap placedNames, Stands n := by
  induction h with
  | nil => exact ⟨rfl, nofun⟩
  | cons first _ ih =>
    rw [List.forall_mem_cons] at each
    obtain ⟨row_eq, stands⟩ := placed_of_members each.1 first
    obtain ⟨further, others⟩ := ih each.2
    rw [List.flatMap_cons, List.flatMap_cons, ← row_eq, ← further]
    exact ⟨rfl, List.forall_mem_append.mpr ⟨stands, others⟩⟩

/-- Every member of a catalog's declarations is placed. -/
theorem catalog_placed {options : CatalogOptions} {cs : List Column} {d : Declaration}
    (h : d ∈ Catalog.description options cs) : ∀ m ∈ d.members, MemberPlaced d.kind m := by
  intro m mem
  rcases Catalog.mem_description.mp h with rfl | ⟨k, -, rfl⟩ | ⟨k, -, c, -, rfl⟩
  · rw [CatalogModel.members_registry, List.mem_map] at mem
    obtain ⟨k, -, rfl⟩ := mem
    exact entry_placed (Table.word_declaredName options.withSchema k)
  · obtain ⟨c, hc, rfl⟩ := List.mem_map.mp mem
    exact slot_placed hc
  · cases mem

theorem visit_placed (v : Directory.Visit) :
    ∀ m ∈ v.declaration.members, MemberPlaced v.declaration.kind m := by
  intro m mem
  rw [v.members_declaration, List.mem_map] at mem
  obtain ⟨f, -, rfl⟩ := mem
  exact constant_placed v f _

end Declaration

open Declaration (Emits Stands identOf placedNames template)

/-- The declarations of a catalog or of a directory of resources, with those names in them that can
be any word. The others are made of several words, with underscores between them. -/
inductive Modelled : List Declaration → List String → Prop
  | catalog {options : CatalogOptions} {cs : List Column} {m : CatalogModel}
      (h : CatalogModel.ofColumns options cs = .ok m) :
      Modelled m.declarations
        (options.registry :: ((tableKeys cs).map (Table.declaredName options.withSchema) ++
          cs.map fun c => Name.sanitize c.name))
  | directory {root : Directory} {ds : List Declaration} (h : root.describe = .ok ds) :
      Modelled ds root.constantNames

theorem Modelled.members_placed {ds : List Declaration} {names : List String} (h : Modelled ds names) :
    ∀ d ∈ ds, ∀ m ∈ d.members, Declaration.MemberPlaced d.kind m := by
  intro d mem
  cases h with
  | catalog h =>
    rw [(CatalogModel.ofColumns_ok h).2.1] at mem
    exact Declaration.catalog_placed mem
  | directory h =>
    rw [(Directory.describe_ok h).1] at mem
    obtain ⟨v, -, rfl⟩ := List.mem_map.mp mem
    exact Declaration.visit_placed v

theorem Namespace.placed {ns : String} {items ts : List Token}
    (h : Namespace.tokens ns items = .ok ts) :
    ts = allowances ++ nestTokens ((segments ns).map identOf) items ∧
      ∀ n ∈ segments ns, Stands n := by
  obtain ⟨i, is, named, -, rfl⟩ := tokens_ok h
  have modules : List.Forall₂ (· = ·) ((segments ns).map identOf) (i :: is) :=
    List.forall₂_map_left_iff.mpr (named.imp fun _ _ => Declaration.identOf_eq)
  rw [List.forall₂_eq_eq_eq] at modules
  have stands : ∀ n ∈ segments ns, Stands n := by
    intro n mem
    obtain ⟨j, -, read⟩ := Declaration.exists_of_forall₂ named.flip mem
    exact .of_ident read
  rw [modules]
  exact ⟨rfl, stands⟩

/-- A text that is rendered is the layout of the declarations' code in the modules of the namespace,
behind the header. -/
theorem render_tokens {ns text : String} {ds : List Declaration} {options : RenderOptions}
    (h : render ns ds options = .ok text) :
    ∃ items ts body, Declaration.listTokens options.runtime ds = .ok items ∧
      Namespace.tokens ns items = .ok ts ∧ formatTokens ts = .ok body ∧
      text = Header.text options.license options.provenance ++ body := by
  cases code : renderCode ns ds options.runtime with
  | error e =>
    rw [render, code] at h
    cases h
  | ok body =>
    rw [render, code] at h
    cases h
    obtain ⟨items, emitted, code⟩ := Declaration.bind_ok code
    obtain ⟨ts, nested, formatted⟩ := Declaration.bind_ok code
    exact ⟨items, ts, body, emitted, nested, formatted, rfl⟩

theorem render_ok {ns text : String} {ds : List Declaration} {options : RenderOptions}
    (h : render ns ds options = .ok text) :
    ∃ path items ts body, Declaration.runtimePath options.runtime = .ok path ∧
      Emits path ds items ∧ Namespace.tokens ns items = .ok ts ∧ formatTokens ts = .ok body ∧
      text = Header.text options.license options.provenance ++ body := by
  obtain ⟨items, ts, body, emitted, nested, formatted, whole⟩ := render_tokens h
  obtain ⟨path, read, emits⟩ := Declaration.emits_of_listTokens emitted
  exact ⟨path, items, ts, body, read, emits, nested, formatted, whole⟩

/-- What is rendered of a model is its declarations in the modules of the namespace, where each name
stands as its identifier. -/
theorem Modelled.placed {ds : List Declaration} {names : List String} (h : Modelled ds names)
    {ns text : String} {options : RenderOptions} (hr : render ns ds options = .ok text) :
    ∃ path body, Declaration.runtimePath options.runtime = .ok path ∧
      formatTokens (Namespace.allowances ++
        Namespace.nestTokens ((Namespace.segments ns).map identOf)
          (ds.flatMap (template path))) = .ok body ∧
      text = Header.text options.license options.provenance ++ body ∧
      ∀ n ∈ Namespace.segments ns ++ ds.flatMap placedNames, Stands n := by
  obtain ⟨path, items, ts, body, read, emits, nested, formatted, whole⟩ := render_ok hr
  obtain ⟨rfl, declared⟩ := Declaration.emits_placed emits h.members_placed
  obtain ⟨rfl, modules⟩ := Namespace.placed nested
  exact ⟨path, body, read, formatted, whole, List.forall_mem_append.mpr ⟨modules, declared⟩⟩

end TypedDecl
