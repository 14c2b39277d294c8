import TypedDecl.Proofs.Files.Writes

namespace TypedDecl.Files.Node

variable {top new : Node} {links : Nat} {p q place parts dir : List String} {name path : String}

/-- A walk comes to a place: it looks up the name that the place has in its directory. -/
inductive Passes (top : Node) (p : List String) : Nat → List String → List String → Prop
  | here {links : Nat} {place rest : List String} {part : String}
      (inside : (top.held? place).any isDirectory = true) (named : Named part)
      (own : place ++ [part] = p) : Passes top p links place (part :: rest)
  | stay {links : Nat} {place rest : List String}
      (inside : (top.held? place).any isDirectory = true) (others : Passes top p links place rest) :
      Passes top p links place ("." :: rest)
  | rise {links : Nat} {place rest : List String}
      (inside : (top.held? place).any isDirectory = true)
      (others : Passes top p links place.dropLast rest) : Passes top p links place (".." :: rest)
  | enter {links : Nat} {place rest : List String} {part : String} {n : Node}
      (inside : (top.held? place).any isDirectory = true) (named : Named part)
      (here : top.held? (place ++ [part]) = some n) (plain : ∀ target, n ≠ .link target)
      (others : Passes top p links (place ++ [part]) rest) : Passes top p links place (part :: rest)
  | follow {links : Nat} {place rest : List String} {part target : String}
      (inside : (top.held? place).any isDirectory = true) (named : Named part)
      (here : top.held? (place ++ [part]) = some (.link target))
      (others : Passes top p links (if Path.isAbsolute target then [] else place)
        (Path.parts target ++ rest)) : Passes top p (links + 1) place (part :: rest)

/-- A path is looked up by way of a place. -/
def PassesOn [Start] (top : Node) (p : List String) (path : String) : Prop :=
  top.Passes p linkLimit (Start.of path) (Path.parts path)

/-- What the walk does with its first part. -/
theorem Passes.of_cons {part : String} {rest : List String}
    (h : top.Passes p links place (part :: rest)) :
    part = "." ∧ top.Passes p links place rest ∨
    part = ".." ∧ top.Passes p links place.dropLast rest ∨
    Named part ∧ (place ++ [part] = p ∨
      (∃ n, top.held? (place ++ [part]) = some n ∧ (∀ target, n ≠ .link target) ∧
        top.Passes p links (place ++ [part]) rest) ∨
      ∃ fewer target, links = fewer + 1 ∧ top.held? (place ++ [part]) = some (.link target) ∧
        top.Passes p fewer (if Path.isAbsolute target then [] else place)
          (Path.parts target ++ rest)) := by
  cases h with
  | here _ named own => exact .inr (.inr ⟨named, .inl own⟩)
  | stay _ others => exact .inl ⟨rfl, others⟩
  | rise _ others => exact .inr (.inl ⟨rfl, others⟩)
  | enter _ named here plain others =>
    exact .inr (.inr ⟨named, .inr (.inl ⟨_, here, plain, others⟩)⟩)
  | follow _ named here others =>
    exact .inr (.inr ⟨named, .inr (.inr ⟨_, _, rfl, here, others⟩)⟩)

section Beside

variable (leaf : (top.held? p).any isDirectory = false)

include leaf

theorem ne_of_inside (inside : (top.held? q).any isDirectory = true) : q ≠ p := by
  rintro rfl
  rw [leaf] at inside
  cases inside

/-- Where all but one place holds what it held, a walk that does not come to that one goes on as it
did. -/
theorem Leads.beside (same : ∀ other ≠ p, ∀ n, top.held? other = some n → new.held? other = some n)
    (leads : Leads top links place parts q) (free : ¬top.Passes p links place parts) :
    Leads new links place parts q := by
  have inside {place : List String} (h : (top.held? place).any isDirectory = true) :
      (new.held? place).any isDirectory = true := by
    have apart := ne_of_inside leaf h
    cases held : top.held? place with
    | none =>
      rw [held] at h
      cases h
    | some n => rwa [same place apart n held, ← held]
  induction leads with
  | done links place => exact .done links place
  | stay first _ ih => exact .stay (inside first) (ih fun passes => free (.stay first passes))
  | rise first _ ih => exact .rise (inside first) (ih fun passes => free (.rise first passes))
  | enter first named held plain _ ih =>
    have apart := fun own => free (.here first named own)
    exact .enter (inside first) named (same _ apart _ held) plain
      (ih fun passes => free (.enter first named held plain passes))
  | follow first named held _ ih =>
    have apart := fun own => free (.here first named own)
    exact .follow (inside first) named (same _ apart _ held)
      (ih fun passes => free (.follow first named held passes))

/-- A walk to a directory does not come to a place without a directory or a link. -/
theorem Leads.not_passes (plain : ∀ target, top.held? p ≠ some (.link target))
    (leads : Leads top links place parts q) (inside : (top.held? q).any isDirectory = true) :
    ¬top.Passes p links place parts := by
  induction leads with
  | done links place => exact nofun
  | stay first _ ih =>
    intro passes
    rcases passes.of_cons with ⟨-, others⟩ | ⟨rises, -⟩ | ⟨named, -⟩
    · exact ih inside others
    · exact absurd rises (by decide)
    · exact named.stays rfl
  | rise first _ ih =>
    intro passes
    rcases passes.of_cons with ⟨stays, -⟩ | ⟨-, others⟩ | ⟨named, -⟩
    · exact absurd stays (by decide)
    · exact ih inside others
    · exact named.rises rfl
  | enter first named held no_link others ih =>
    intro passes
    rcases passes.of_cons with ⟨stays, -⟩ | ⟨rises, -⟩ | ⟨-, own | ⟨_, -, -, passes⟩ |
      ⟨_, target, -, link, -⟩⟩
    · exact named.stays stays
    · exact named.rises rises
    · rw [own] at others
      rw [others.of_leaf leaf, leaf] at inside
      cases inside
    · exact ih inside passes
    · rw [held] at link
      exact no_link target (Option.some.inj link)
  | follow first named held others ih =>
    intro passes
    rcases passes.of_cons with ⟨stays, -⟩ | ⟨rises, -⟩ | ⟨-, own | ⟨_, here, no_link, -⟩ |
      ⟨fewer, target, same, here, passes⟩⟩
    · exact named.stays stays
    · exact named.rises rises
    · rw [own] at held
      exact plain _ held
    · rw [held] at here
      exact no_link _ (Option.some.inj here).symm
    · rw [held] at here
      cases here
      cases same
      exact ih inside passes

/-- A walk that ends at a place without a directory has come to it. -/
theorem Leads.passes (leads : Leads top links place parts p)
    (start : (top.held? place).any isDirectory = true) : top.Passes p links place parts := by
  have outer {place : List String} (a : List String)
      (here : (top.held? place).any isDirectory = true) (front : ∃ b, a ++ b = place) :
      (top.held? a).any isDirectory = true := by
    obtain ⟨b, rfl⟩ := front
    rw [any_held?] at here ⊢
    exact isDirectory_of_append here
  induction leads with
  | done links place =>
    rw [leaf] at start
    cases start
  | stay first _ ih => exact .stay first (ih leaf first)
  | @rise _ place _ _ first _ ih =>
    have above : ∃ b, place.dropLast ++ b = place := place.dropLast_prefix
    exact .rise first (ih leaf (outer _ first above))
  | @enter _ place _ q part n first named held plain others ih =>
    by_cases own : place ++ [part] = q
    · exact .here first named own
    · refine .enter first named held plain (ih leaf ?_)
      by_contra other
      exact own (others.of_leaf (Bool.eq_false_iff.mpr other)).symm
  | @follow _ place _ _ _ target first named held _ ih =>
    refine .follow first named held (ih leaf ?_)
    split
    · exact outer [] first ⟨place, rfl⟩
    · exact first

end Beside

/-- A walk begins in a directory. -/
theorem Leads.start (leads : Leads top links place parts q) (some_part : parts ≠ []) :
    (top.held? place).any isDirectory = true := by
  cases leads with
  | done => exact absurd rfl some_part
  | stay inside _ | rise inside _ | enter inside _ _ _ _ | follow inside _ _ _ => exact inside

theorem filter_splitGo_ne_nil {acc cs : List Char} (h : acc ≠ [] ∨ ∃ c ∈ cs, c ≠ '/') :
    (Path.splitGo acc cs).filter (!·.isEmpty) ≠ [] := by
  induction cs generalizing acc with
  | nil =>
    have some_char : acc ≠ [] := h.resolve_right (by simp)
    simp [Path.splitGo, some_char]
  | cons c cs ih =>
    rw [Path.splitGo]
    split
    · next slash =>
      by_cases some_char : acc = []
      · obtain ⟨d, mem, other⟩ := h.resolve_left (not_not.mpr some_char)
        have later : d ∈ cs :=
          (List.mem_cons.mp mem).resolve_left fun same => other (same.trans slash)
        simp [some_char, ih (.inr ⟨d, later, other⟩)]
      · simp [some_char]
    · exact ih (.inl (List.cons_ne_nil _ _))

/-- A path that can be looked up has a part. -/
theorem parts_ne_nil {path : String} (sound : pathFault? path = none) : Path.parts path ≠ [] := by
  intro none
  obtain ⟨names, last⟩ := List.append_eq_nil_iff.mp none
  have slashes : ∀ c ∈ path.toList, c = '/' := by
    intro c mem
    by_contra other
    have named : (Path.splitGo [] path.toList).filter (!·.isEmpty) ≠ [] :=
      filter_splitGo_ne_nil (.inr ⟨c, mem, other⟩)
    exact named (List.map_eq_nil_iff.mp names)
  cases end_char : path.toList.getLast? with
  | none =>
    have empty : path = "" := String.toList_eq_nil_iff.mp (List.getLast?_eq_none_iff.mp end_char)
    rw [empty] at sound
    exact absurd sound (by decide)
  | some c =>
    rw [if_pos (end_char.trans (congrArg some (slashes c (List.mem_of_getLast? end_char))))] at last
    cases last

/-- The parts of a longer way lead somewhere on the way. -/
theorem Leads.split {a b : List String} (leads : Leads top links place (a ++ b) q) :
    ∃ fewer mid, Leads top links place a mid ∧ Leads top fewer mid b q := by
  generalize whole : a ++ b = all at leads
  induction leads generalizing a with
  | done links place =>
    obtain ⟨rfl, rfl⟩ := List.append_eq_nil_iff.mp whole
    exact ⟨links, place, .done links place, .done links place⟩
  | @stay links place rest q first others ih =>
    cases a with
    | nil =>
      cases whole
      exact ⟨links, place, .done links place, .stay first others⟩
    | cons part a =>
      cases whole
      obtain ⟨fewer, mid, front, back⟩ := ih rfl
      exact ⟨fewer, mid, .stay first front, back⟩
  | @rise links place rest q first others ih =>
    cases a with
    | nil =>
      cases whole
      exact ⟨links, place, .done links place, .rise first others⟩
    | cons part a =>
      cases whole
      obtain ⟨fewer, mid, front, back⟩ := ih rfl
      exact ⟨fewer, mid, .rise first front, back⟩
  | @enter links place rest q part n first named held plain others ih =>
    cases a with
    | nil =>
      cases whole
      exact ⟨links, place, .done links place, .enter first named held plain others⟩
    | cons part a =>
      cases whole
      obtain ⟨fewer, mid, front, back⟩ := ih rfl
      exact ⟨fewer, mid, .enter first named held plain front, back⟩
  | @follow links place rest q part target first named held others ih =>
    cases a with
    | nil =>
      cases whole
      exact ⟨links + 1, place, .done _ place, .follow first named held others⟩
    | cons part a =>
      cases whole
      obtain ⟨fewer, mid, front, back⟩ := ih (List.append_assoc ..)
      exact ⟨fewer, mid, .follow first named held front, back⟩

theorem isSome_at? {n : Node} (h : top.held? place = some n) : (top.at? place).isSome = true := by
  rw [held?, Option.map_eq_some_iff] at h
  obtain ⟨_, here, -⟩ := h
  rw [here]
  rfl

theorem makeDirectory_of_leadsInside {base above : List String}
    (h : LeadsInside top base (above ++ [name])) :
    top.makeDirectory base (above ++ [name]) = .error .alreadyThere := by
  obtain ⟨dir, leads, -⟩ := h
  obtain ⟨fewer, mid, front, last⟩ := leads.split
  simp only [makeDirectory, List.getLast?_concat, List.dropLast_concat, walk_of_leads front,
    Except.bind, ← any_held?]
  cases last with
  | stay inside _ | rise inside _ => simp [inside, Path.isDots]
  | enter inside named held _ _ | follow inside named held _ =>
    have short := Nat.not_lt.mpr named.short
    simp [inside, Path.isDots, named.stays, named.rises, short, isSome_at? held]

/-- Directories that are there already are not made again. -/
theorem makeDirectories_of_leadsInside {base : List String} (some_part : parts ≠ [])
    (h : LeadsInside top base parts) :
    top.makeDirectories base parts.reverse = (top, .ok ()) := by
  obtain ⟨above, name, rfl⟩ := (List.eq_nil_or_concat' parts).resolve_left some_part
  have there := leadsInside_iff.mp h
  have reversed : (above ++ [name]).reverse = name :: above.reverse := by simp
  have refused := makeDirectory_of_leadsInside h
  rw [reversed, makeDirectories]
  simp only [List.reverse_cons, List.reverse_reverse, refused, unlessThere, there, if_true]

section Paths

variable [Start]

/-- The way to a file whose path leads through a place: to the directories that the path is in, as
they are made, or to the one that the file is moved to. -/
inductive WrittenThrough (top : Node) (p : List String) (path : String) : Prop
  | making (passes : top.Passes p linkLimit (Start.of path) (parentParts path))
  | moving (passes : top.Passes p linkLimit (Start.of path) (Path.parts path).dropLast)

theorem read_eq_ok_iff {content : ByteArray} :
    top.read path = .ok content ↔ pathFault? path = none ∧
      ∃ q, Leads top linkLimit (Start.of path) (Path.parts path) q ∧
        top.at? q = some (file content) := by
  rw [read, find, resolve]
  cases pathFault? path with
  | some fault => simp [Except.bind]
  | none =>
    constructor
    · intro read
      cases walked : top.walk linkLimit (Start.of path) (Path.parts path) with
      | error fault =>
        rw [walked] at read
        cases read
      | ok q =>
        refine ⟨rfl, q, leads_of_walk walked, ?_⟩
        simp only [walked, Except.bind] at read
        cases here : top.at? q with
        | none =>
          rw [here] at read
          cases read
        | some n =>
          rw [here] at read
          cases n <;> cases read
          rfl
    · rintro ⟨-, q, leads, here⟩
      simp [walk_of_leads leads, Except.bind, here]

section Written

variable {made after : Node} {text : String}

section

variable (written : top.Written after path text p)

include written

theorem Written.held : after.held? p = some (file text.toUTF8) := by
  rw [held?, written.holds]
  rfl

theorem Written.leaf : (after.held? p).any isDirectory = false := by
  rw [written.held]
  rfl

end

variable (prepared : top.prepare path = (made, .ok p))

include prepared

/-- What a write puts a file into. -/
theorem fits_of_prepare : ∃ above name dir, Fits made path above name dir ∧ p = dir ++ [name] := by
  have placed := prepare_ok (congrArg Prod.snd prepared)
  rw [prepared] at placed
  exact placeFor_eq_ok_iff.mp placed

theorem makeParents_of_prepare : top.makeParents path = (made, .ok ()) := by
  rw [prepare] at prepared
  cases ran : top.makeParents path with
  | mk other result =>
    rw [ran] at prepared
    cases result with
    | error fault => cases prepared
    | ok _ =>
      obtain ⟨rfl, -⟩ := Prod.mk.inj prepared
      rfl

theorem kept_of_prepare : Kept top made := by
  have kept := kept_prepare top path
  rwa [prepared] at kept

/-- Where a file can be put no directory is, neither before those on the way are made nor after. -/
theorem leaf_of_prepare :
    (made.held? p).any isDirectory = false ∧ (top.held? p).any isDirectory = false := by
  obtain ⟨above, name, dir, fits, rfl⟩ := fits_of_prepare prepared
  refine ⟨fits.clear, ?_⟩
  by_contra directory
  rw [Bool.not_eq_false] at directory
  have grown := (kept_of_prepare prepared).extends.inside directory
  rw [fits.clear] at grown
  cases grown

/-- A place that holds no link has none on the way to it. -/
theorem not_writtenThrough (plain : ∀ target, made.held? p ≠ some (.link target)) :
    ¬made.WrittenThrough p path := by
  have leaf := (leaf_of_prepare prepared).1
  intro through
  cases through with
  | making passes =>
    obtain ⟨dir, leads, inside⟩ := leadsInside_of_makeParents (makeParents_of_prepare prepared)
    exact leads.not_passes leaf plain inside passes
  | moving passes =>
    obtain ⟨above, name, dir, fits, -⟩ := fits_of_prepare prepared
    rw [fits.parts, List.dropLast_concat] at passes
    exact fits.leads.not_passes leaf plain fits.inside passes

variable (written : top.Written after path text p)

include written

theorem Written.others (other : List String) (apart : other ≠ p) :
    after.held? other = made.held? other := by
  obtain ⟨above, name, dir, fits, rfl⟩ := fits_of_prepare prepared
  rw [written.put, prepared, held?_of_fits fits, if_neg apart]

/-- What was there before the write is there after it, but for what the file has replaced. -/
theorem Written.same (other : List String) (apart : other ≠ p) (n : Node)
    (here : top.held? other = some n) : after.held? other = some n := by
  rw [written.others prepared other apart]
  exact (kept_of_prepare prepared).extends other n here

/-- The path of a file that was written leads to its place again, unless it leads through it. -/
theorem Written.prepare_again (free : ¬made.WrittenThrough p path) :
    after.prepare path = (after, .ok p) := by
  have same (other : List String) (apart : other ≠ p) (n : Node)
      (here : made.held? other = some n) : after.held? other = some n := by
    rwa [written.others prepared other apart]
  have leaf := (leaf_of_prepare prepared).1
  have inside {dir : List String} (h : (made.held? dir).any isDirectory = true) :
      (after.held? dir).any isDirectory = true := by
    rwa [written.others prepared dir (ne_of_inside leaf h)]
  have ways := makeParents_of_prepare prepared
  have parents : after.makeParents path = (after, .ok ()) := by
    obtain ⟨dir, leads, directory⟩ := leadsInside_of_makeParents ways
    have there : LeadsInside after (Start.of path) (parentParts path) :=
      ⟨dir, leads.beside leaf same fun passes => free (.making passes), inside directory⟩
    rw [makeParents, makeWay] at ways ⊢
    split at ways
    · cases ways
    · next clean =>
      rw [if_neg clean]
      exact makeDirectories_of_leadsInside (parentParts_ne_nil path) there
  obtain ⟨above, name, dir, fits, whole⟩ := fits_of_prepare prepared
  have front : (Path.parts path).dropLast = above := by rw [fits.parts, List.dropLast_concat]
  have again : Fits after path above name dir := by
    refine ⟨fits.sound, fits.parts, ?_, inside fits.inside, fits.named, ?_⟩
    · exact fits.leads.beside leaf same fun passes => free (.moving (front ▸ passes))
    · rw [← whole]
      exact written.leaf
  rw [prepare, parents]
  exact congrArg (Prod.mk after) (placeFor_eq_ok_iff.mpr ⟨above, name, dir, again, whole⟩)

theorem Written.inside (directory : (top.held? dir).any isDirectory = true) :
    (after.held? dir).any isDirectory = true := by
  have apart := ne_of_inside (leaf_of_prepare prepared).2 directory
  rw [written.others prepared dir apart]
  exact (kept_of_prepare prepared).extends.inside directory

/-- A walk that does not come to the place of a file that was written goes on as it did. -/
theorem Written.leads (leads : Leads top links place parts q)
    (free : ¬top.Passes p links place parts) : Leads after links place parts q :=
  leads.beside (leaf_of_prepare prepared).2 (written.same prepared) free

/-- A file that is not found through the place is what it was. -/
theorem Written.read_eq {other : String} {content : ByteArray} (read : top.read other = .ok content)
    (free : ¬top.PassesOn p other) : after.read other = .ok content := by
  obtain ⟨sound, q, leads, here⟩ := read_eq_ok_iff.mp read
  have apart : q ≠ p := by
    rintro rfl
    exact free (leads.passes (leaf_of_prepare prepared).2 (leads.start (parts_ne_nil sound)))
  exact read_eq_ok_iff.mpr ⟨sound, q, written.leads prepared leads free,
    (written.kept q apart).at?_eq rfl here⟩

/-- A path that stands for a directory and does not lead through the place stands for it still. -/
theorem Written.standsForDirectory {other : String} (stands : top.StandsForDirectory other)
    (free : ¬top.PassesOn p other) : after.StandsForDirectory other := by
  obtain ⟨sound, dir, leads, inside⟩ := stands
  exact ⟨sound, dir, written.leads prepared leads free, written.inside prepared inside⟩

/-- A path that stands for a directory after the write stands for one before the file is there. -/
theorem Written.standsForDirectory_made {other : String}
    (stands : after.StandsForDirectory other) : made.StandsForDirectory other := by
  obtain ⟨sound, dir, leads, inside⟩ := stands
  have plain target : after.held? p ≠ some (.link target) := by
    rw [written.held]
    exact nofun
  have apart := ne_of_inside written.leaf inside
  have back (other : List String) (apart : other ≠ p) (n : Node)
      (here : after.held? other = some n) : made.held? other = some n := by
    rwa [← written.others prepared other apart]
  have free := leads.not_passes written.leaf plain inside
  refine ⟨sound, dir, leads.beside written.leaf back free, ?_⟩
  rwa [← written.others prepared dir apart]

end Written

end Paths

end TypedDecl.Files.Node
