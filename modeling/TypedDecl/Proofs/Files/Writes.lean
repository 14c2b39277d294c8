import Mathlib.Data.List.Nodup
import TypedDecl.Proofs.Files.Walks

namespace TypedDecl.Files.Node

variable {a : Attempt} {top made new : Node} {dir : List String} {name path text : String}
  {place : List String}

section Drafts

variable [Start]

/-- A draft is made in a directory, under a name that is free there. -/
theorem draftFor_ok (h : top.draftFor a path = .ok (dir, name)) :
    (top.at? dir).any isDirectory = true ∧ top.at? (dir ++ [name]) = none := by
  unfold draftFor at h
  split at h
  · cases h
  · cases walked : top.walk linkLimit (Start.of path) (parentParts path) with
    | error fault =>
      rw [walked] at h
      cases h
    | ok dir' =>
      simp only [walked, Except.bind] at h
      split at h
      · next entries here =>
        split at h
        · next name' found =>
          cases h
          have free := List.find?_some found
          refine ⟨by rw [here]; rfl, ?_⟩
          rw [at?_append, here]
          simpa [at?, child?] using free
        · cases h
      · cases h

end Drafts

/-- Where nothing is or a file, a new file is in nobody's way. -/
theorem agree_putAt (inside : (top.at? dir).any isDirectory = true)
    (plain : ∀ n, top.held? (dir ++ [name]) = some n → ∃ content, n = file content)
    (content : ByteArray) :
    Agree top (putAt (file content) (dir ++ [name]) top) (dir ++ [name]) := by
  have leaf : Childless (file content) := childless_of_leaf rfl
  have childless : ∀ n, top.at? (dir ++ [name]) = some n → Childless n := by
    intro n here
    obtain ⟨old, bared⟩ := plain n.bare (by rw [held?, here]; rfl)
    cases n with
    | file => exact childless_of_leaf rfl
    | link | directory => cases bared
  have put := held?_putAt leaf inside childless
  refine ⟨plain, fun n held => ?_, fun other apart => by rw [put, if_neg apart]⟩
  rw [put, if_pos rfl] at held
  exact ⟨content, (Option.some.inj held).symm⟩

theorem agree_draft (inside : (top.at? dir).any isDirectory = true)
    (free : top.at? (dir ++ [name]) = none) (content : ByteArray) :
    Agree top (putAt (file content) (dir ++ [name]) top) (dir ++ [name]) := by
  refine agree_putAt inside (fun n held => ?_) content
  rw [held?, free] at held
  cases held

section Draft

variable [Start] (inside : (top.at? dir).any isDirectory = true)
  (free : top.at? (dir ++ [name]) = none)

include inside free

/-- A draft leaves nothing behind: either it is moved to the place of the path, or all is as it
was. -/
theorem deliver_cases (a : Attempt) (path text : String) :
    (∃ fault, top.deliver a dir name path text = (top, .error fault)) ∨
      ∃ place, top.placeFor path = .ok place ∧
        top.deliver a dir name path text = (putAt (file text.toUTF8) place top, .ok ()) := by
  have erased (content : ByteArray) :
      (putAt (file content) (dir ++ [name]) top).eraseEntry name dir = top :=
    eraseEntry_putAt inside free
  simp only [deliver, putAt_putAt, erased]
  cases a.filling with
  | some fault => exact .inl ⟨fault, rfl⟩
  | none =>
    cases a.moving with
    | some fault => exact .inl ⟨fault, rfl⟩
    | none =>
      cases placed : (putAt (file text.toUTF8) (dir ++ [name]) top).placeFor path with
      | error fault => exact .inl ⟨fault, rfl⟩
      | ok place => exact .inr ⟨place, (agree_draft inside free _).symm.placeFor_ok placed, rfl⟩

theorem deliver_of_place {a : Attempt} (filling : a.filling = none) (moving : a.moving = none)
    (placed : top.placeFor path = .ok place) (text : String) :
    top.deliver a dir name path text = (putAt (file text.toUTF8) place top, .ok ()) := by
  have beside := (agree_draft inside free text.toUTF8).placeFor_ok placed
  simp only [deliver, putAt_putAt, eraseEntry_putAt inside free, filling, moving, beside]

end Draft

/-- A write that fails leaves at most new directories; one that does not leaves the file. -/
theorem writeVia_cases [Start] (a : Attempt) (top : Node) (path text : String) :
    (∃ fault new, top.writeVia a path text = (new, .error fault) ∧ Kept top new) ∨
      ∃ new place, top.writeVia a path text = (new, .ok ()) ∧ Written top new path text place := by
  unfold writeVia
  cases a.making with
  | some refusal => exact .inl ⟨_, _, rfl, kept_makeWay top _ _⟩
  | none =>
    have kept := kept_makeWay top (Start.of path) (parentParts path)
    rw [← makeParents] at kept
    cases way : top.makeParents path with
    | mk made result =>
      rw [way] at kept
      cases result with
      | error fault => exact .inl ⟨fault, made, rfl, kept⟩
      | ok _ =>
        cases draft : made.draftFor a path with
        | error fault => exact .inl ⟨fault, made, by simp only [draft], kept⟩
        | ok found =>
          obtain ⟨dir, name⟩ := found
          obtain ⟨inside, free⟩ := draftFor_ok draft
          rcases deliver_cases inside free a path text with ⟨fault, ran⟩ | ⟨place, placed, ran⟩
          · exact .inl ⟨fault, made, by simp only [draft, ran], kept⟩
          · have prepared : top.prepare path = (made, .ok place) := by
              simp only [prepare, way, placed]
            have placed : (top.prepare path).2 = .ok place := by rw [prepared]
            have written := written_putAt placed text
            rw [prepared] at written
            exact .inr ⟨_, place, by simp only [draft, ran], written⟩

theorem nodup_draftNames (entries : List (String × Node)) :
    (draftNames (directory entries)).Nodup := by
  refine List.Nodup.map (fun m n same => ?_) List.nodup_range
  have lengths := congrArg (fun s : String => s.toList.length) same
  simpa using lengths

/-- Some name for a draft is free, for there are more of them than names in the directory. -/
theorem exists_draftName (entries : List (String × Node)) :
    ∃ name, (draftNames (directory entries)).find? (fun n => (entries.lookup n).isNone) =
      some name := by
  cases found : (draftNames (directory entries)).find? (fun n => (entries.lookup n).isNone) with
  | some name => exact ⟨name, rfl⟩
  | none =>
    have taken : draftNames (directory entries) ⊆ entries.map Prod.fst := by
      intro n mem
      have there := List.find?_eq_none.mp found n mem
      rw [Option.isNone_iff_eq_none, ← ne_eq, ← Option.isSome_iff_ne_none,
        List.lookup_isSome_iff] at there
      obtain ⟨e, entry, same⟩ := there
      exact List.mem_map.mpr ⟨e, entry, (beq_iff_eq.mp same).symm⟩
    have fewer := (nodup_draftNames entries).length_le_of_subset taken
    simp only [draftNames, List.length_map, List.length_range] at fewer
    omega

section Drafts

variable [Start]

theorem exists_draft (leads : LeadsInside top (Start.of path) (parentParts path)) :
    ∃ dir name, top.draftFor .unhindered path = .ok (dir, name) := by
  obtain ⟨dir, leads, inside⟩ := leads
  rw [any_held?] at inside
  cases here : top.at? dir with
  | none =>
    rw [here] at inside
    cases inside
  | some n =>
    cases n with
    | file content | link target =>
      rw [here] at inside
      cases inside
    | directory entries =>
      obtain ⟨name, found⟩ := exists_draftName entries
      refine ⟨dir, name, ?_⟩
      simp only [draftFor, Attempt.unhindered, walk_of_leads leads, Except.bind, here, found]

/-- A write with a place leaves the file there. -/
theorem write_of_place (h : (top.prepare path).2 = .ok place) (text : String) :
    ∃ new, top.write path text = (new, .ok ()) ∧ Written top new path text place := by
  refine ⟨_, ?_, written_putAt h text⟩
  cases way : top.makeParents path with
  | mk made result =>
    cases result with
    | error fault =>
      rw [prepare, way] at h
      cases h
    | ok _ =>
      have placed := prepare_ok h
      simp only [prepare, way] at placed ⊢
      obtain ⟨dir, name, draft⟩ := exists_draft (leadsInside_of_makeParents way)
      obtain ⟨inside, free⟩ := draftFor_ok draft
      simp only [write, writeVia, Attempt.unhindered] at draft ⊢
      simp only [way, draft]
      exact deliver_of_place inside free rfl rfl placed text

theorem write_cases (top : Node) (path text : String) :
    (∃ fault new, top.write path text = (new, .error fault) ∧ Kept top new) ∨
      ∃ new place, top.write path text = (new, .ok ()) ∧ Written top new path text place :=
  writeVia_cases _ top path text

end Drafts

section Fitting

variable [Start] {above : List String} {content : ByteArray} (fits : Fits made path above name dir)

include fits

theorem held?_of_fits (content : ByteArray) (other : List String) :
    (putAt (file content) (dir ++ [name]) made).held? other =
      if other = dir ++ [name] then some (file content) else made.held? other := by
  have inside := fits.inside
  have clear := fits.clear
  rw [any_held?] at inside clear
  have leaf : Childless (file content) := childless_of_leaf rfl
  exact held?_putAt leaf inside
    (fun n old => childless_of_leaf (not_isDirectory_of_any clear old)) other

/-- A file with that path is read at it, where the way to its directory leads. -/
theorem read_of_fits (leads : Leads new linkLimit (Start.of path) above dir)
    (inside : (new.held? dir).any isDirectory = true)
    (here : new.at? (dir ++ [name]) = some (file content)) : new.read path = .ok content := by
  have held : new.held? (dir ++ [name]) = some (file content) := by
    rw [held?, here]
    rfl
  have plain : ∀ target, file content ≠ .link target := fun target linked => by cases linked
  have walked := walk_of_leads (leads.snoc inside fits.named held plain)
  rw [← fits.parts] at walked
  simp only [read, find, resolve, fits.sound, walked, Except.bind, here]

theorem agree_of_fits (unlinked : ∀ target, made.held? (dir ++ [name]) ≠ some (.link target))
    (content : ByteArray) :
    Agree made (putAt (file content) (dir ++ [name]) made) (dir ++ [name]) := by
  have inside := fits.inside
  rw [any_held?] at inside
  refine agree_putAt inside (fun n held => ?_) content
  cases n with
  | file old => exact ⟨old, rfl⟩
  | link target => exact absurd held (unlinked target)
  | directory entries =>
    have clear := fits.clear
    rw [held] at clear
    cases clear

end Fitting

/-- A place that holds a link held it before. -/
theorem KeptAt.link {target : String} (h : KeptAt top new place)
    (held : new.held? place = some (.link target)) : top.at? place = some (.link target) := by
  rcases h with same | ⟨-, made⟩
  · rw [same, held?, Option.map_eq_some_iff] at held
    obtain ⟨n, here, bared⟩ := held
    cases n with
    | link =>
      cases bared
      exact here
    | file | directory => cases bared
  · rw [made] at held
    cases held

/-- What a file that was written has changed: the place of its path, in the directory that the path
leads to once the directories on the way are there. -/
theorem Written.effect [Start] (written : Written top new path text place) :
    ∃ made above name dir, top.prepare path = (made, .ok (dir ++ [name])) ∧ Kept top made ∧
      Fits made path above name dir ∧ new.at? (dir ++ [name]) = some (file text.toUTF8) ∧
      (∀ other ≠ dir ++ [name], new.held? other = made.held? other) ∧
      (Leads new linkLimit (Start.of path) above dir → new.read path = .ok text.toUTF8) ∧
      ((∀ target, top.at? (dir ++ [name]) ≠ some (.link target)) →
        Leads new linkLimit (Start.of path) above dir) := by
  obtain ⟨above, name, dir, fits, rfl⟩ := placeFor_eq_ok_iff.mp (prepare_ok written.placed)
  have kept := kept_prepare top path
  have put := written.put
  have prepared : top.prepare path = ((top.prepare path).1, .ok (dir ++ [name])) :=
    Prod.ext rfl written.placed
  generalize (top.prepare path).1 = made at prepared fits kept put
  subst put
  have others : ∀ other ≠ dir ++ [name],
      (putAt (file text.toUTF8) (dir ++ [name]) made).held? other = made.held? other :=
    fun other apart => by rw [held?_of_fits fits, if_neg apart]
  have inside := fits.inside
  rw [← others dir (by simp)] at inside
  refine ⟨made, above, name, dir, prepared, kept, fits, written.holds, others,
    fun leads => read_of_fits fits leads inside written.holds, fun plain => ?_⟩
  have unlinked target : made.held? (dir ++ [name]) ≠ some (.link target) :=
    fun held => plain target ((kept _).link held)
  exact (agree_of_fits fits unlinked _).leads fits.leads fits.inside

section Calls

/-- A write among others. -/
structure Call where
  attempt : Attempt
  path : String
  text : String

variable [Start]

/-- The files after some writes, whether they succeed or not. -/
def perform : Node → List Call → Node
  | top, [] => top
  | top, c :: cs => perform (top.writeVia c.attempt c.path c.text).1 cs

/-- The places of the writes that succeed, each with its text. -/
def delivered : Node → List Call → List (List String × String)
  | _, [] => []
  | top, c :: cs =>
    let others := delivered (top.writeVia c.attempt c.path c.text).1 cs
    match (top.writeVia c.attempt c.path c.text).2, (top.prepare c.path).2 with
    | .ok (), .ok place => (place, c.text) :: others
    | _, _ => others

/-- After any writes a place holds the text of the last one that succeeded there, or what it
held. -/
theorem perform_cases (top : Node) (calls : List Call) (place : List String) :
    (∃ text, (top.delivered calls).reverse.lookup place = some text ∧
        (top.perform calls).at? place = some (file text.toUTF8)) ∨
      (top.delivered calls).reverse.lookup place = none ∧
        KeptAt top (top.perform calls) place := by
  induction calls generalizing top with
  | nil => exact .inr ⟨rfl, .inl rfl⟩
  | cons c cs ih =>
    rw [perform, delivered]
    rcases top.writeVia_cases c.attempt c.path c.text with
      ⟨fault, new, ran, kept⟩ | ⟨new, own, ran, written⟩
    · simp only [ran]
      rcases ih new with last | ⟨nothing, others⟩
      · exact .inl last
      · exact .inr ⟨nothing, (kept place).trans others⟩
    · simp only [ran, written.placed, List.reverse_cons, List.lookup_append]
      rcases ih new with ⟨text, last, here⟩ | ⟨nothing, others⟩
      · exact .inl ⟨text, by rw [last]; rfl, here⟩
      · rw [nothing, Option.none_or]
        by_cases same : place = own
        · subst same
          exact .inl ⟨c.text, List.lookup_cons_self, others.at?_eq rfl written.holds⟩
        · have absent : [(own, c.text)].lookup place = none := by
            simp [List.lookup_cons, beq_false_of_ne same]
          exact .inr ⟨absent, (written.kept place same).trans others⟩

/-- A write that succeeds has put its text at the place of its path, once the directories on the way
are there, and nothing else has changed: a link at that place is replaced and what it led to is as
it was, and the draft is gone. The text is read at the path unless the way there went through a link
that was replaced. A write that fails has changed no file and no link. After any writes each place
holds the text that was put there last. -/
theorem write_all_or_nothing :
    (∀ (a : Attempt) (top after : Node) (path text : String),
      top.writeVia a path text = (after, .ok ()) →
        ∃ made above name dir, top.prepare path = (made, .ok (dir ++ [name])) ∧ Kept top made ∧
          Fits made path above name dir ∧
          after.at? (dir ++ [name]) = some (file text.toUTF8) ∧
          (∀ other ≠ dir ++ [name], after.held? other = made.held? other) ∧
          (Leads after linkLimit (Start.of path) above dir → after.read path = .ok text.toUTF8) ∧
          ((∀ target, top.at? (dir ++ [name]) ≠ some (.link target)) →
            Leads after linkLimit (Start.of path) above dir)) ∧
    (∀ (a : Attempt) (top after : Node) (path text : String) (fault : Fault),
      top.writeVia a path text = (after, .error fault) → Kept top after) ∧
    ∀ (top : Node) (calls : List Call) (place : List String),
      (∃ text, (top.delivered calls).reverse.lookup place = some text ∧
          (top.perform calls).at? place = some (file text.toUTF8)) ∨
        (top.delivered calls).reverse.lookup place = none ∧
          KeptAt top (top.perform calls) place := by
  refine ⟨fun a top after path text ran => ?_, fun a top after path text fault ran => ?_,
    perform_cases⟩
  · rcases top.writeVia_cases a path text with ⟨fault, new, failed, -⟩ | ⟨new, place, done, written⟩
    · rw [ran] at failed
      cases failed
    · rw [ran] at done
      cases done
      exact written.effect
  · rcases top.writeVia_cases a path text with ⟨fault, new, failed, kept⟩ | ⟨new, place, done, -⟩
    · rw [ran] at failed
      cases failed
      exact kept
    · rw [ran] at done
      cases done

end Calls

section Home

/-- A program that runs in a directory of the tree. -/
abbrev home : Start := ⟨["home"]⟩

attribute [local instance] home

/-- A link is replaced and what it led to stays. Then a disk that is full when a draft is filled
leaves at most the directory of the draft. -/
theorem write_all_or_nothing_of_full_disk :
    let site := directory [("home", directory [("a", .file "1".toUTF8), ("l", .link "a")])]
    let first := site.writeVia .unhindered "l" "2"
    let full := Fault.other "No space left on device (os error 28)"
    let second := first.1.writeVia ⟨draftNames, none, none, some full, none⟩ "new/b" "3"
    first.2 = .ok () ∧ first.1.read "l" = .ok "2".toUTF8 ∧
      first.1.held? ["home", "a"] = some (.file "1".toUTF8) ∧
      second.2 = .error full ∧ Kept first.1 second.1 := by
  intro site first full second
  have done : site.writeVia .unhindered "l" "2" = (first.1, .ok ()) := Prod.ext rfl rfl
  have failed : first.1.writeVia ⟨draftNames, none, none, some full, none⟩ "new/b" "3" =
      (second.1, .error full) := Prod.ext rfl rfl
  obtain ⟨made, above, name, dir, prepared, kept, fits, here, others, reads, -⟩ :=
    write_all_or_nothing.1 _ _ _ _ _ done
  have parts : [] ++ ["l"] = above ++ [name] := fits.parts
  obtain ⟨rfl, last⟩ := List.append_inj' parts rfl
  obtain rfl : "l" = name := (List.cons_eq_cons.mp last).1
  cases fits.leads
  have target : site.held? ["home", "a"] = some (.file "1".toUTF8) := rfl
  refine ⟨rfl, reads (.done _ _), ?_, rfl, write_all_or_nothing.2.1 _ _ _ _ _ _ failed⟩
  rw [others ["home", "a"] (by decide)]
  exact kept.extends _ _ target

end Home

end TypedDecl.Files.Node
