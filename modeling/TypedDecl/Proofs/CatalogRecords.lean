import Mathlib.Data.List.Forall2
import TypedDecl.Generation
import TypedDecl.Proofs.CatalogTexts

namespace TypedDecl.Catalog

open Json (Value)

/-- The fields of a column by their keys, in the order in which a list has them. -/
def columnFields (c : Column) : List (String × String) :=
  [("schema", c.schema), ("table", c.table), ("column", c.name), ("type", c.native)]

def columnKeys : List String := ["schema", "table", "column", "type"]

/-- The members that a key names. -/
def membersOf (key : String) (members : List (Option String × Value)) :
    List (Option String × Value) :=
  members.filter fun m => m.1 = some key

inductive Describes : Value → Column → Prop
  | object {members : List (Option String × Value)} {c : Column} (names : ∀ m ∈ members, m.1 ≠ none)
      (each : ∀ f ∈ columnFields c, membersOf f.1 members = [(some f.1, .text (some f.2))]) :
      Describes (.object members) c
  | list (c : Column) : Describes (.list ((columnFields c).map fun f => .text (some f.2))) c

/-- What describes no column. -/
inductive Faulty : Value → Prop
  | missing {members : List (Option String × Value)} {key : String} (known : key ∈ columnKeys)
      (missing : membersOf key members = []) : Faulty (.object members)
  | repeated {members : List (Option String × Value)} {key : String} (known : key ∈ columnKeys)
      (repeated : 1 < (membersOf key members).length) : Faulty (.object members)
  | noText {members : List (Option String × Value)} {key : String} {v : Value}
      (known : key ∈ columnKeys) (mem : (some key, v) ∈ members) (other : ∀ s, v ≠ .text (some s)) :
      Faulty (.object members)
  | length {elements : List Value} (other : elements.length ≠ 4) : Faulty (.list elements)
  | element {elements : List Value} {v : Value} (mem : v ∈ elements)
      (other : ∀ s, v ≠ .text (some s)) : Faulty (.list elements)

/-- The elements describe the columns, one each and in their order. -/
def Lists (v : Value) (columns : List Column) : Prop :=
  ∃ elements, v = .list elements ∧ List.Forall₂ Describes elements columns

section Fields

variable {members : List (Option String × Value)} {c : Column} {key : String} {f : String × String}

theorem columnFields_keys (c : Column) : (columnFields c).map Prod.fst = columnKeys := rfl

theorem mem_columnKeys (mem : f ∈ columnFields c) : f.1 ∈ columnKeys :=
  columnFields_keys c ▸ List.mem_map_of_mem mem

theorem columnFields_unique {s s' : String} (h : (key, s) ∈ columnFields c)
    (h' : (key, s') ∈ columnFields c) : s = s' := by
  simp only [columnFields, List.mem_cons, Prod.mk.injEq, List.not_mem_nil, or_false] at h h'
  rcases h with ⟨rfl, rfl⟩ | ⟨rfl, rfl⟩ | ⟨rfl, rfl⟩ | ⟨rfl, rfl⟩ <;> simpa [eq_comm] using h'

namespace PartialColumn

variable {p : PartialColumn}

theorem get?_eq_none : p.get? key = none ↔ key ∉ columnKeys := by
  unfold get?
  split <;> simp_all [columnKeys]

theorem get?_set (known : key ∈ columnKeys) (s k : String) :
    (p.set key s).get? k = if k = key then some (some s) else p.get? k := by
  simp only [columnKeys, List.mem_cons, List.not_mem_nil, or_false] at known
  rcases known with rfl | rfl | rfl | rfl <;> simp only [set] <;> split
  all_goals first
    | subst k; rfl
    | unfold get?; split <;> simp_all

theorem get?_empty (known : key ∈ columnKeys) : empty.get? key = some none := by
  simp only [columnKeys, List.mem_cons, List.not_mem_nil, or_false] at known
  rcases known with rfl | rfl | rfl | rfl <;> rfl

theorem complete_iff : p.complete.toOption = some c ↔
    ∀ f ∈ columnFields c, p.get? f.1 = some (some f.2) := by
  obtain ⟨schema, table, name, native⟩ := c
  rcases p with ⟨- | s, - | t, - | n, - | u⟩ <;>
    simp [complete, columnFields, get?, Except.toOption]

end PartialColumn

variable {p : PartialColumn} {v : Value}

/-- The field was read before, or it is still to come: once and as a text. -/
def Supplied (p : PartialColumn) (members : List (Option String × Value)) (f : String × String) :
    Prop :=
  p.get? f.1 = some (some f.2) ∧ membersOf f.1 members = [] ∨
    p.get? f.1 = some none ∧ membersOf f.1 members = [(some f.1, .text (some f.2))]

theorem supplied_empty (known : f.1 ∈ columnKeys) :
    Supplied .empty members f ↔ membersOf f.1 members = [(some f.1, .text (some f.2))] := by
  simp [Supplied, PartialColumn.get?_empty known]

theorem mem_membersOf {m : Option String × Value} :
    m ∈ membersOf key members ↔ m ∈ members ∧ m.1 = some key := by
  simp [membersOf]

theorem membersOf_cons_same (key : String) (v : Value) (members : List (Option String × Value)) :
    membersOf key ((some key, v) :: members) = (some key, v) :: membersOf key members :=
  List.filter_cons_of_pos (by simp)

theorem membersOf_cons_other {k : String} (other : k ≠ key) :
    membersOf k ((some key, v) :: members) = membersOf k members :=
  List.filter_cons_of_neg (by simpa using other.symm)

theorem supplied_cons_other (other : f.1 ≠ key) :
    Supplied p ((some key, v) :: members) f ↔ Supplied p members f := by
  rw [Supplied, Supplied, membersOf_cons_other other]

/-- A field that comes now is new and a text, and does not come again. -/
theorem supplied_cons_same {s : String} :
    Supplied p ((some key, v) :: members) (key, s) ↔
      p.get? key = some none ∧ v = .text (some s) ∧ membersOf key members = [] := by
  simp [Supplied, membersOf_cons_same]

theorem supplied_set_same {s s' : String} (known : key ∈ columnKeys) :
    Supplied (p.set key s) members (key, s') ↔ s = s' ∧ membersOf key members = [] := by
  simp [Supplied, PartialColumn.get?_set known]

theorem supplied_set_other {s : String} (known : key ∈ columnKeys) (other : f.1 ≠ key) :
    Supplied (p.set key s) members f ↔ Supplied p members f := by
  rw [Supplied, Supplied, PartialColumn.get?_set known, if_neg other]

theorem text?_eq_some {s : String} : v.text? = some s ↔ v = .text (some s) := by
  cases v <;> simp [Value.text?]

theorem exists_field (c : Column) (known : key ∈ columnKeys) : ∃ s, (key, s) ∈ columnFields c := by
  rw [← columnFields_keys c] at known
  obtain ⟨f, mem, rfl⟩ := List.mem_map.mp known
  exact ⟨f.2, mem⟩

/-- A member leaves the fields supplied if it is taken, and then by those that come after it. -/
theorem supplied_cons :
    (∀ f ∈ columnFields c, Supplied p ((some key, v) :: members) f) ↔
      ∃ q, take? p key v = some q ∧ ∀ f ∈ columnFields c, Supplied q members f := by
  rw [take?]
  cases before : p.get? key with
  | none =>
    have other : ∀ f ∈ columnFields c, f.1 ≠ key := by
      rintro f mem rfl
      exact PartialColumn.get?_eq_none.mp before (mem_columnKeys mem)
    simp only [Option.some.injEq, exists_eq_left']
    exact forall₂_congr fun f mem => supplied_cons_other (other f mem)
  | some earlier =>
    have known : key ∈ columnKeys := by
      by_contra absent
      rw [PartialColumn.get?_eq_none.mpr absent] at before
      cases before
    obtain ⟨s, field⟩ := exists_field c known
    cases earlier with
    | some s' =>
      simp only [reduceCtorEq, false_and, exists_false, iff_false]
      intro all
      have new := (supplied_cons_same.mp (all _ field)).1
      rw [before] at new
      cases new
    | none =>
      simp only [Option.map_eq_some_iff, text?_eq_some]
      constructor
      · intro all
        obtain ⟨-, rfl, gone⟩ := supplied_cons_same.mp (all _ field)
        refine ⟨p.set key s, ⟨s, rfl, rfl⟩, fun f mem => ?_⟩
        by_cases same : f.1 = key
        · subst same
          exact (supplied_set_same known).mpr ⟨columnFields_unique field mem, gone⟩
        · exact (supplied_set_other known same).mpr ((supplied_cons_other same).mp (all f mem))
      · rintro ⟨-, ⟨t, isText, rfl⟩, all⟩ f mem
        by_cases same : f.1 = key
        · subst same
          obtain ⟨rfl, gone⟩ := (supplied_set_same known).mp (all f mem)
          exact supplied_cons_same.mpr ⟨before, isText, gone⟩
        · exact (supplied_cons_other same).mpr ((supplied_set_other known same).mp (all f mem))

/-- Members make up a column if it has each of its fields from them. -/
theorem gather?_eq_some :
    gather? p members = some c ↔
      (∀ m ∈ members, m.1 ≠ none) ∧ ∀ f ∈ columnFields c, Supplied p members f := by
  induction members generalizing p with
  | nil => simp [gather?, PartialColumn.complete_iff, Supplied, membersOf]
  | cons m members ih =>
    obtain ⟨- | key, v⟩ := m
    · simp [gather?]
    · rw [List.forall_mem_cons, supplied_cons]
      simp only [gather?, Option.bind_some, Option.bind_eq_some_iff, ih]
      constructor
      · rintro ⟨q, taken, names, all⟩
        exact ⟨⟨Option.some_ne_none key, names⟩, q, taken, all⟩
      · rintro ⟨⟨-, names⟩, q, taken, all⟩
        exact ⟨q, taken, names, all⟩

end Fields

section Elements

variable {v : Value} {c : Column} {elements : List Value} {columns : List Column}

theorem texts?_eq_some {n : Nat} {ss : List String} :
    texts? n elements = some ss ↔ ss.length = n ∧ elements = ss.map fun s => .text (some s) := by
  induction n generalizing elements ss with
  | zero => cases elements <;> cases ss <;> simp [texts?]
  | succ n ih =>
    cases elements with
    | nil => cases ss <;> simp [texts?]
    | cons v vs =>
      simp only [texts?, Option.bind_eq_some_iff, Option.map_eq_some_iff, ih, text?_eq_some]
      constructor
      · rintro ⟨s, rfl, ss, ⟨rfl, rfl⟩, rfl⟩
        exact ⟨rfl, rfl⟩
      · rintro ⟨length, same⟩
        cases ss with
        | nil => cases same
        | cons s ss =>
          obtain ⟨rfl, rfl⟩ := List.cons.inj same
          exact ⟨s, rfl, ss, ⟨Nat.succ.inj length, rfl⟩, rfl⟩

theorem column?_eq_some : column? v = some c ↔ Describes v c := by
  constructor
  · intro read
    cases v with
    | object members =>
      obtain ⟨names, all⟩ := gather?_eq_some.mp read
      exact .object names fun f mem => (supplied_empty (mem_columnKeys mem)).mp (all f mem)
    | list elements =>
      obtain ⟨ss, texts, made⟩ := Option.bind_eq_some_iff.mp read
      obtain ⟨-, rfl⟩ := texts?_eq_some.mp texts
      split at made
      · cases made
        exact Describes.list ⟨_, _, _, _⟩
      · cases made
    | _ => cases read
  · rintro (⟨names, each⟩ | -)
    · refine gather?_eq_some.mpr ⟨names, fun f mem => ?_⟩
      exact (supplied_empty (mem_columnKeys mem)).mpr (each f mem)
    · rfl

/-- What is faulty describes no column. -/
theorem Faulty.describes_nothing (h : Faulty v) : ¬ Describes v c := by
  intro d
  cases d with
  | @object members _ names each =>
    have once {key : String} (known : key ∈ columnKeys) :
        ∃ s, membersOf key members = [(some key, .text (some s))] := by
      obtain ⟨s, field⟩ := exists_field c known
      exact ⟨s, each _ field⟩
    cases h with
    | missing known missing =>
      obtain ⟨s, single⟩ := once known
      rw [missing] at single
      cases single
    | repeated known repeated =>
      obtain ⟨s, single⟩ := once known
      rw [single] at repeated
      exact Nat.lt_irrefl _ repeated
    | noText known mem other =>
      obtain ⟨s, single⟩ := once known
      have own := mem_membersOf.mpr ⟨mem, rfl⟩
      rw [single, List.mem_singleton] at own
      exact other s (Prod.mk.inj own).2
  | list =>
    cases h with
    | length other => exact other rfl
    | element mem other =>
      obtain ⟨f, -, rfl⟩ := List.mem_map.mp mem
      exact other f.2 rfl

theorem mapM_column?_eq_some :
    elements.mapM column? = some columns ↔ List.Forall₂ Describes elements columns := by
  induction elements generalizing columns with
  | nil => cases columns <;> simp
  | cons v elements ih =>
    rw [List.mapM_cons, List.forall₂_cons_left_iff]
    simp only [Option.bind_eq_bind, Option.bind_eq_some_iff, column?_eq_some, ih, Option.pure_def,
      Option.some.injEq]
    constructor
    · rintro ⟨c, first, cs, others, rfl⟩
      exact ⟨c, cs, first, others, rfl⟩
    · rintro ⟨c, cs, first, others, rfl⟩
      exact ⟨c, first, cs, others, rfl⟩

theorem columns?_eq_some : columns? v = some columns ↔ Lists v columns := by
  cases v with
  | list elements => simp [columns?, Lists, mapM_column?_eq_some]
  | _ => simp [columns?, Lists]

theorem not_lists_of_faulty (mem : v ∈ elements) (h : Faulty v) :
    ¬ Lists (.list elements) columns := by
  rintro ⟨_, ⟨⟩, each⟩
  induction each with
  | nil => cases mem
  | cons d _ ih =>
    rcases List.mem_cons.mp mem with rfl | mem
    · exact h.describes_nothing d
    · exact ih mem

end Elements

section Exports

open Files (Node)

variable {top : Node} {path text : String} {v : Value}

section Reading

variable [Files.Start]

theorem load_run (read : top.readText path = .ok text) :
    (Catalog.load Node.host path).run top =
      ((parse text).mapError (.invalidCatalog path), top) := by
  have reads : (Node.host.readText path).run top = (pure (.ok text, top) : Id _) := by
    rw [← read]
    rfl
  rw [Catalog.load, StateT.run_bind, reads, pure_bind]
  rfl

/-- An export is read as the columns that its elements describe, and is invalid, without any, if
they do not describe columns; so it is if one of them is faulty. -/
theorem load_written (read : top.readText path = .ok text) (written : v.IsTextOf text) :
    (∀ columns,
      (Catalog.load Node.host path).run top = (.ok columns, top) ↔ Lists v columns) ∧
    ((∃ failure, (Catalog.load Node.host path).run top =
        (.error (.invalidCatalog path failure), top)) ↔ ∀ columns, ¬ Lists v columns) ∧
    ∀ elements, v = .list elements → ∀ e ∈ elements, Faulty e →
      ∃ failure, (Catalog.load Node.host path).run top =
        (.error (.invalidCatalog path failure), top) := by
  have parsed := parse_written written
  rw [load_run read]
  cases found : columns? v with
  | some cs =>
    rw [found] at parsed
    have lists := columns?_eq_some.mp found
    rw [show parse text = .ok cs from parsed]
    refine ⟨fun columns => ?_, ⟨?_, fun nothing => absurd lists (nothing cs)⟩, ?_⟩
    · rw [← columns?_eq_some, found]
      constructor
      · rintro ⟨⟩
        rfl
      · rintro ⟨⟩
        rfl
    · rintro ⟨failure, ⟨⟩⟩
    · rintro elements rfl e mem faulty
      exact absurd lists (not_lists_of_faulty mem faulty)
  | none =>
    rw [found] at parsed
    obtain ⟨failure, fails⟩ := parsed
    have nothing (columns : List Column) : ¬ Lists v columns := by
      rw [← columns?_eq_some, found]
      exact nofun
    rw [fails]
    refine ⟨fun columns => ⟨nofun, fun lists => absurd lists (nothing columns)⟩, ?_, ?_⟩
    · exact ⟨fun _ => nothing, fun _ => ⟨failure, rfl⟩⟩
    · exact fun _ _ _ _ _ => ⟨failure, rfl⟩

end Reading

/-- An export with a column of either shape, with escapes and with a member that is no field. -/
def mixedText : String :=
  "[\x7b\"type\":\"int\",\"x\":[1, \x7b\x7d],\"column\":\"\\u0049d\", \"schema\":\"dbo\",\"table\":" ++
    "\"\\ud83d\\ude00\"\x7d ,[\"dbo\",\"Posts\",\"Title\",\"text\"]]"

def mixedExport : Node := .directory [("Blog.json", .file mixedText.toUTF8)]

def plainMember (name : String) (v : Value) (text : List Char) : Json.Member :=
  ⟨some name, name.toList, [], [], v, text⟩

def mixedMembers : List Json.Member :=
  [plainMember "type" (.text (some "int")) (Json.inQuotes "int"),
    plainMember "x" (.list [.number ['1'], .object []]) "[1, \x7b\x7d]".toList,
    plainMember "column" (.text (some "Id")) "\"\\u0049d\"".toList,
    plainMember "schema" (.text (some "dbo")) (Json.inQuotes "dbo"),
    plainMember "table" (.text (some "😀")) "\"\\ud83d\\ude00\"".toList]

theorem load_of_mixed_elements :
    (Catalog.load Node.host "Blog.json").run mixedExport =
      (.ok [⟨"dbo", "😀", "Id", "int"⟩, ⟨"dbo", "Posts", "Title", "text"⟩], mixedExport) := by
  have read : mixedExport.readText "Blog.json" = .ok mixedText := by decide +kernel
  have none : Json.Blank [] := nofun
  have space : Json.Blank [' '] := by simp [Json.Blank]
  have digit0 : Json.HexDigit '0' 0 := .decimal (by decide) (by decide)
  have id : (Value.text (some "Id")).Written "\"\\u0049d\"".toList := by
    have digit4 : Json.HexDigit '4' 4 := .decimal (by decide) (by decide)
    have digit9 : Json.HexDigit '9' 9 := .decimal (by decide) (by decide)
    have code : Json.HexCode ['0', '0', '4', '9'] 'I'.toNat := .digits digit0 digit0 digit4 digit9
    exact @Value.Written.text (some "Id") "\\u0049d".toList
      (.cons (.code code) (.own (by decide)))
  have face : (Value.text (some "😀")).Written "\"\\ud83d\\ude00\"".toList := by
    have digit3 : Json.HexDigit '3' 3 := .decimal (by decide) (by decide)
    have digit8 : Json.HexDigit '8' 8 := .decimal (by decide) (by decide)
    have digitD : Json.HexDigit 'd' 13 := .small (by decide) (by decide)
    have digitE : Json.HexDigit 'e' 14 := .small (by decide) (by decide)
    have high : Json.HexCode ['d', '8', '3', 'd'] (0xd800 + 0x3d) :=
      .digits digitD digit8 digit3 digitD
    have low : Json.HexCode ['d', 'e', '0', '0'] (0xdc00 + 0x200) :=
      .digits digitD digitE digit0 digit0
    exact @Value.Written.text (some "😀") "\\ud83d\\ude00".toList
      (.cons (.pair high low (by decide) (by decide)) .nil)
  have other : (Value.list [.number ['1'], .object []]).Written "[1, \x7b\x7d]".toList := by
    have empty : (Value.object []).Written ['\x7b', '\x7d'] :=
      @Value.Written.object [] [] nofun nofun (.none none)
    have one : (Value.number ['1']).Written ['1'] :=
      .unsigned (.parts (.digits (by decide) (.one rfl)) .none .none)
    exact @Value.Written.list [(.number ['1'], ['1']), (.object [], ['\x7b', '\x7d'])] _
      (by simp [empty, one]) (.first none (.next none space (.none none)))
  have plain (name : String) (value : Value) (text : List Char)
      (own : name.toList.all (Json.Unescaped ·) = true) : (plainMember name value text).Named :=
    ⟨.own own, none, none⟩
  have named : ∀ m ∈ mixedMembers, m.Named := by
    simp only [mixedMembers, List.forall_mem_cons]
    exact ⟨plain _ _ _ (by decide), plain _ _ _ (by decide), plain _ _ _ (by decide),
      plain _ _ _ (by decide), plain _ _ _ (by decide), nofun⟩
  have each : ∀ m ∈ mixedMembers, m.value.Written m.text := by
    simp only [mixedMembers, List.forall_mem_cons]
    exact ⟨.own (by decide), other, id, .own (by decide), face, nofun⟩
  have first := @Value.Written.object mixedMembers _ named each (.first none (.next none none
    (.next none none (.next none space (.next none none (.none none))))))
  have texts : ∀ e ∈ ["dbo", "Posts", "Title", "text"].map fun s =>
      (Value.text (some s), Json.inQuotes s), e.1.Written e.2 := by
    simp only [List.map_cons, List.map_nil, List.forall_mem_cons]
    exact ⟨.own (by decide), .own (by decide), .own (by decide), .own (by decide), nofun⟩
  have second := @Value.Written.list _ _ texts
    (.first none (.next none none (.next none none (.next none none (.none none)))))
  have both := @Value.Written.list [(_, _), (_, _)] _
    (List.forall_mem_cons.mpr ⟨first, List.forall_mem_cons.mpr ⟨second, nofun⟩⟩)
    (.first none (.next space none (.none none)))
  have written : Value.IsTextOf _ mixedText := ⟨[], _, [], none, both, none, by decide +kernel⟩
  refine ((load_written read written).1 _).mpr ⟨_, rfl, ?_⟩
  refine .cons (.object (by decide) ?_) (.cons (.list ⟨"dbo", "Posts", "Title", "text"⟩) .nil)
  simp only [columnFields, List.forall_mem_cons]
  exact ⟨rfl, rfl, rfl, rfl, nofun⟩

end Exports

end TypedDecl.Catalog
