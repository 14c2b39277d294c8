import TypedDecl.Proofs.Files.Changes

namespace TypedDecl.Files.Node

variable {top new : Node} {links : Nat} {place parts q : List String} {part name : String}

theorem any_held? (top : Node) (place : List String) :
    (top.held? place).any isDirectory = (top.at? place).any isDirectory := by
  rw [held?]
  cases top.at? place with
  | none => rfl
  | some n => cases n <;> rfl

/-- A part that is looked up as a name. -/
structure Named (part : String) : Prop where
  stays : part ≠ "."
  rises : part ≠ ".."
  short : part.utf8ByteSize ≤ nameLimit

/-- A walk that follows at most so many links, by what the places on its way hold. -/
inductive Leads (top : Node) : Nat → List String → List String → List String → Prop
  | done (links : Nat) (place : List String) : Leads top links place [] place
  | stay {links : Nat} {place rest q : List String}
      (inside : (top.held? place).any isDirectory = true) (others : Leads top links place rest q) :
      Leads top links place ("." :: rest) q
  | rise {links : Nat} {place rest q : List String}
      (inside : (top.held? place).any isDirectory = true)
      (others : Leads top links place.dropLast rest q) : Leads top links place (".." :: rest) q
  | enter {links : Nat} {place rest q : List String} {part : String} {n : Node}
      (inside : (top.held? place).any isDirectory = true) (named : Named part)
      (here : top.held? (place ++ [part]) = some n) (plain : ∀ target, n ≠ .link target)
      (others : Leads top links (place ++ [part]) rest q) : Leads top links place (part :: rest) q
  | follow {links : Nat} {place rest q : List String} {part target : String}
      (inside : (top.held? place).any isDirectory = true) (named : Named part)
      (here : top.held? (place ++ [part]) = some (.link target))
      (others : Leads top links (if Path.isAbsolute target then [] else place)
        (Path.parts target ++ rest) q) : Leads top (links + 1) place (part :: rest) q

/-- How a walk goes on from a link. -/
def follows (top : Node) : Nat → List String → List String → Except Fault (List String)
  | 0 => fun _ _ => .error .tooManyLinks
  | links + 1 => top.walk links

theorem walk_cons (top : Node) (links : Nat) (place : List String) (part : String)
    (rest : List String) :
    top.walk links place (part :: rest) =
      if !(top.held? place).any isDirectory then .error .notDirectory
      else if part = "." then top.walk links place rest
      else if part = ".." then top.walk links place.dropLast rest
      else if nameLimit < part.utf8ByteSize then .error .nameTooLong
      else
        match top.held? (place ++ [part]) with
        | none => .error .missing
        | some (.link target) =>
          top.follows links (if Path.isAbsolute target then [] else place)
            (Path.parts target ++ rest)
        | some _ => top.walk links (place ++ [part]) rest := by
  have parted (place parts : List String) :
      top.walk links place parts = top.walkParts (top.follows links) place parts := by
    cases links <;> rfl
  simp only [parted]
  rw [walkParts, any_held?, held?]
  cases top.at? (place ++ [part]) with
  | none => rfl
  | some n => cases n <;> rfl

theorem walk_nil (top : Node) (links : Nat) (place : List String) :
    top.walk links place [] = .ok place := by
  cases links <;> rfl

/-- With as many links as there are, on the parts; what is behind a link is known. -/
theorem leads_of_parts (followed : ∀ place parts, top.follows links place parts = .ok q →
      ∃ fewer, links = fewer + 1 ∧ Leads top fewer place parts q)
    (h : top.walk links place parts = .ok q) : Leads top links place parts q := by
  induction parts generalizing place with
  | nil =>
    rw [walk_nil] at h
    cases h
    exact .done links _
  | cons part rest ih =>
    rw [walk_cons] at h
    by_cases inside : (top.held? place).any isDirectory = true
    · by_cases stays : part = "."
      · subst stays
        exact .stay inside (ih (by simpa [inside] using h))
      · by_cases rises : part = ".."
        · subst rises
          exact .rise inside (ih (by simpa [inside] using h))
        · by_cases long : nameLimit < part.utf8ByteSize
          · simp [inside, stays, rises, long] at h
          · have named : Named part := ⟨stays, rises, Nat.not_lt.mp long⟩
            simp only [inside, stays, rises, long, Bool.not_true, Bool.false_eq_true, if_false] at h
            cases here : top.held? (place ++ [part]) with
            | none =>
              rw [here] at h
              cases h
            | some n =>
              rw [here] at h
              cases n with
              | file content => exact .enter inside named here nofun (ih h)
              | directory entries => exact .enter inside named here nofun (ih h)
              | link target =>
                obtain ⟨fewer, rfl, others⟩ := followed _ _ h
                exact .follow inside named here others
    · simp [inside] at h

theorem leads_of_walk (h : top.walk links place parts = .ok q) : Leads top links place parts q := by
  induction links generalizing place parts with
  | zero => exact leads_of_parts nofun h
  | succ links ih => exact leads_of_parts (fun _ _ ran => ⟨links, rfl, ih ran⟩) h

theorem walk_of_leads (h : Leads top links place parts q) : top.walk links place parts = .ok q := by
  induction h with
  | done links place => exact walk_nil top links place
  | stay inside _ ih => simp [walk_cons, inside, ih]
  | rise inside _ ih => simp [walk_cons, inside, ih]
  | @enter _ _ _ _ _ n inside named here plain _ ih =>
    have short := Nat.not_lt.mpr named.short
    cases n with
    | link target => exact absurd rfl (plain target)
    | file content => simp [walk_cons, inside, named.stays, named.rises, short, here, ih]
    | directory entries => simp [walk_cons, inside, named.stays, named.rises, short, here, ih]
  | follow inside named here _ ih =>
    have short := Nat.not_lt.mpr named.short
    simp [walk_cons, inside, named.stays, named.rises, short, here, follows, ih]

/-- What the first tree holds, the second one holds too. -/
def Extends (top new : Node) : Prop :=
  ∀ place n, top.held? place = some n → new.held? place = some n

theorem Kept.extends (h : Kept top new) : Extends top new := by
  intro place n here
  rcases h place with same | ⟨nothing, _⟩
  · rw [same, here]
  · rw [nothing] at here
    cases here

theorem Extends.inside (h : Extends top new)
    (here : (top.held? place).any isDirectory = true) :
    (new.held? place).any isDirectory = true := by
  cases held : top.held? place with
  | none =>
    rw [held] at here
    cases here
  | some n =>
    rw [held] at here
    rw [h place n held]
    exact here

/-- A walk goes on as it did when more is there. -/
theorem Leads.extends (h : Extends top new) (leads : Leads top links place parts q) :
    Leads new links place parts q := by
  induction leads with
  | done links place => exact .done links place
  | stay inside _ ih => exact .stay (h.inside inside) ih
  | rise inside _ ih => exact .rise (h.inside inside) ih
  | enter inside named here plain _ ih =>
    exact .enter (h.inside inside) named (h _ _ here) plain ih
  | follow inside named here _ ih => exact .follow (h.inside inside) named (h _ _ here) ih

/-- Only from a directory does a walk go anywhere. -/
theorem Leads.of_leaf (leads : Leads top links place parts q)
    (leaf : (top.held? place).any isDirectory = false) : q = place := by
  cases leads with
  | done => rfl
  | stay inside _ | rise inside _ | enter inside _ _ _ _ | follow inside _ _ _ =>
    rw [leaf] at inside
    cases inside

/-- One more name that is no link. -/
theorem Leads.snoc {dir : List String} (leads : Leads top links place parts dir)
    (inside : (top.held? dir).any isDirectory = true) (named : Named name) {n : Node}
    (here : top.held? (dir ++ [name]) = some n) (plain : ∀ target, n ≠ .link target) :
    Leads top links place (parts ++ [name]) (dir ++ [name]) := by
  induction leads with
  | done links place => exact .enter inside named here plain (.done links _)
  | stay first _ ih => exact .stay first (ih inside here)
  | rise first _ ih => exact .rise first (ih inside here)
  | enter first called held other _ ih => exact .enter first called held other (ih inside here)
  | follow first called held _ ih =>
    have next := ih inside here
    rw [List.append_assoc] at next
    exact .follow first called held next

/-- Two trees that hold the same but for one place, where neither has a directory or a link. -/
structure Agree (one two : Node) (place : List String) : Prop where
  first : ∀ n, one.held? place = some n → ∃ content, n = file content
  second : ∀ n, two.held? place = some n → ∃ content, n = file content
  same : ∀ other ≠ place, one.held? other = two.held? other

namespace Agree

variable {one two : Node} {here : List String}

theorem symm (h : Agree one two here) : Agree two one here :=
  ⟨h.second, h.first, fun other apart => (h.same other apart).symm⟩

theorem leaf (h : Agree one two here) : (one.held? here).any isDirectory = false := by
  cases held : one.held? here with
  | none => rfl
  | some n =>
    obtain ⟨content, rfl⟩ := h.first n held
    rfl

theorem inside_eq (h : Agree one two here) (place : List String) :
    (one.held? place).any isDirectory = (two.held? place).any isDirectory := by
  by_cases own : place = here
  · rw [own, h.leaf, h.symm.leaf]
  · rw [h.same place own]

/-- A walk to a directory does not pass the place. -/
theorem leads (h : Agree one two here) (leads : Leads one links place parts q)
    (inside : (one.held? q).any isDirectory = true) : Leads two links place parts q := by
  induction leads with
  | done links place => exact .done links place
  | stay first _ ih => exact .stay (h.inside_eq _ ▸ first) (ih inside)
  | rise first _ ih => exact .rise (h.inside_eq _ ▸ first) (ih inside)
  | @enter _ place _ q part _ first named held plain others ih =>
    have other : place ++ [part] ≠ here := by
      rintro rfl
      have stuck := others.of_leaf h.leaf
      rw [stuck, h.leaf] at inside
      cases inside
    exact .enter (h.inside_eq _ ▸ first) named (h.same _ other ▸ held) plain (ih inside)
  | @follow _ place _ q part target first named held others ih =>
    have other : place ++ [part] ≠ here := by
      rintro rfl
      obtain ⟨content, link⟩ := h.first _ held
      cases link
    exact .follow (h.inside_eq _ ▸ first) named (h.same _ other ▸ held) (ih inside)

end Agree

section Places

/-- The last name of a path stands in the directory that the others lead to, and names no directory
there: a file with that path fits. -/
structure Fits [Start] (top : Node) (path : String) (above : List String) (name : String)
    (dir : List String) : Prop where
  sound : pathFault? path = none
  parts : Path.parts path = above ++ [name]
  leads : Leads top linkLimit (Start.of path) above dir
  inside : (top.held? dir).any isDirectory = true
  named : Named name
  clear : (top.held? (dir ++ [name])).any isDirectory = false

theorem isDots_eq_false_iff : Path.isDots name = false ↔ name ≠ "." ∧ name ≠ ".." := by
  simp [Path.isDots]

theorem reverse_eq_cons_iff {above : List String} :
    parts.reverse = name :: above ↔ parts = above.reverse ++ [name] := by
  rw [List.reverse_eq_iff, List.reverse_cons]

/-- Whether a path ends in a slash shows in its last part. -/
theorem not_slash {path : String} {above : List String} (h : Path.parts path = above ++ [name])
    (named : Named name) : path.toList.getLast? ≠ some '/' := by
  intro slash
  rw [Path.parts, if_pos slash] at h
  obtain ⟨_, last⟩ := List.append_inj' h rfl
  exact named.stays (List.cons_eq_cons.mp last).1.symm

variable [Start]

theorem placeFor_eq_ok_iff {path : String} :
    top.placeFor path = .ok place ↔
      ∃ above name dir, Fits top path above name dir ∧ place = dir ++ [name] := by
  constructor
  · intro h
    unfold placeFor at h
    cases sound : pathFault? path with
    | some fault =>
      rw [sound] at h
      cases h
    | none =>
      simp only [sound] at h
      split at h
      · cases h
      · next name above parts =>
        cases walked : top.walk linkLimit (Start.of path) above.reverse with
        | error fault =>
          rw [walked] at h
          cases h
        | ok dir =>
          simp only [walked, Except.bind] at h
          -- After a slash all is refused, one way or the other.
          by_cases slash : path.toList.getLast? = some '/'
          · simp only [slash, if_true] at h
            repeat' split at h
            all_goals cases h
          · simp only [slash, if_false] at parts h
            repeat' split at h
            all_goals cases h
            next inside dots short clear =>
            have named := isDots_eq_false_iff.mp (by simpa using dots)
            refine ⟨above.reverse, name, dir, ⟨sound, reverse_eq_cons_iff.mp parts,
              leads_of_walk walked, ?_, ⟨named.1, named.2, Nat.not_lt.mp short⟩, ?_⟩, rfl⟩
            · simpa [any_held?] using inside
            · simpa [any_held?] using clear
  · rintro ⟨above, name, dir, fits, rfl⟩
    have slash := not_slash fits.parts fits.named
    have walked := walk_of_leads fits.leads
    have inside := fits.inside
    have clear := fits.clear
    rw [any_held?] at inside clear
    have dots := isDots_eq_false_iff.mpr ⟨fits.named.stays, fits.named.rises⟩
    have short := Nat.not_lt.mpr fits.named.short
    simp [placeFor, fits.sound, fits.parts, slash, walked, Except.bind, inside, clear, dots, short]

theorem Fits.agree {one two : Node} {here : List String} (h : Agree one two here) {path : String}
    {above dir : List String} (fits : Fits one path above name dir) :
    Fits two path above name dir :=
  ⟨fits.sound, fits.parts, h.leads fits.leads fits.inside, h.inside_eq dir ▸ fits.inside,
    fits.named, h.inside_eq _ ▸ fits.clear⟩

theorem Agree.placeFor_ok {one two : Node} {here : List String} (h : Agree one two here)
    {path : String} (placed : one.placeFor path = .ok place) : two.placeFor path = .ok place := by
  obtain ⟨above, name, dir, fits, rfl⟩ := placeFor_eq_ok_iff.mp placed
  exact placeFor_eq_ok_iff.mpr ⟨above, name, dir, fits.agree h, rfl⟩

end Places

section Directories

variable {base : List String}

/-- Parts that lead to a directory from a place. -/
def LeadsInside (top : Node) (base parts : List String) : Prop :=
  ∃ dir, Leads top linkLimit base parts dir ∧ (top.held? dir).any isDirectory = true

theorem leadsInside_iff : LeadsInside top base parts ↔ top.leadsToDirectory base parts = true := by
  rw [leadsToDirectory]
  cases walked : top.walk linkLimit base parts with
  | error fault =>
    refine iff_of_false ?_ (by simp)
    rintro ⟨dir, leads, _⟩
    rw [walk_of_leads leads] at walked
    cases walked
  | ok dir =>
    constructor
    · rintro ⟨dir', leads, inside⟩
      rw [walk_of_leads leads] at walked
      cases walked
      rwa [any_held?] at inside
    · intro inside
      exact ⟨dir, leads_of_walk walked, by rwa [any_held?]⟩

/-- A directory that was made is where its parts lead. -/
theorem leadsInside_of_makeDirectory (h : top.makeDirectory base parts = .ok new) :
    LeadsInside new base parts := by
  have grown := (kept_of_makeDirectory h).extends
  obtain ⟨above, name, dir, rfl, walked, inside, dots, short, nothing, rfl⟩ := makeDirectory_ok h
  rw [← any_held?] at inside
  have named := isDots_eq_false_iff.mp dots
  have made : (putAt empty (dir ++ [name]) top).held? (dir ++ [name]) = some empty := by
    rw [held?_putAt childless_empty (by rwa [← any_held?])
      (fun n old => by cases nothing.symm.trans old), if_pos rfl]
    rfl
  have leads := ((leads_of_walk walked).extends grown).snoc (grown.inside inside)
    ⟨named.1, named.2, short⟩ made nofun
  exact ⟨dir ++ [name], leads, by rw [made]; rfl⟩

/-- A directory that could not be made is there if its parts lead to it. -/
theorem leadsInside_of_unlessThere {fault : Fault}
    (h : top.unlessThere base parts fault = (new, .ok ())) : LeadsInside new base parts := by
  rw [unlessThere] at h
  split at h
  · next there =>
    cases h
    exact leadsInside_iff.mpr there
  · cases h

theorem leadsInside_of_makeDirectories (some_part : parts ≠ [])
    (h : top.makeDirectories base parts = (new, .ok ())) : LeadsInside new base parts.reverse := by
  cases parts with
  | nil => exact absurd rfl some_part
  | cons name above =>
    simp only [makeDirectories] at h
    split at h
    · next made =>
      cases h
      exact leadsInside_of_makeDirectory made
    · split at h
      · cases h
      · split at h
        · next made =>
          cases h
          exact leadsInside_of_makeDirectory made
        · exact leadsInside_of_unlessThere h
    · exact leadsInside_of_unlessThere h

theorem parentParts_ne_nil (path : String) : parentParts path ≠ [] := by
  unfold parentParts
  split
  · exact List.cons_ne_nil _ _
  · next some_part => exact some_part

variable [Start]

/-- A path that stands for a directory: nothing is wrong with it, and its parts lead to one. -/
def StandsForDirectory (top : Node) (path : String) : Prop :=
  pathFault? path = none ∧ LeadsInside top (Start.of path) (Path.parts path)

theorem isDirectoryAt_iff {path : String} :
    top.isDirectoryAt path = true ↔ top.StandsForDirectory path := by
  rw [StandsForDirectory, leadsInside_iff, isDirectoryAt, find, resolve]
  cases pathFault? path with
  | some fault => simp [Except.bind]
  | none =>
    rw [leadsToDirectory]
    cases top.walk linkLimit (Start.of path) (Path.parts path) with
    | error fault => simp [Except.bind]
    | ok place => cases here : top.at? place <;> simp [Except.bind, here]

/-- Once they are made, the directories that a path is in lead to one. -/
theorem leadsInside_of_makeParents {path : String} (h : top.makeParents path = (new, .ok ())) :
    LeadsInside new (Start.of path) (parentParts path) := by
  rw [makeParents, makeWay] at h
  split at h
  · cases h
  · have leads := leadsInside_of_makeDirectories
      (List.reverse_ne_nil_iff.mpr (parentParts_ne_nil path)) h
    rwa [List.reverse_reverse] at leads

end Directories

end TypedDecl.Files.Node
