import TypedDecl.Files.Write

namespace TypedDecl.Files.Node

theorem at?_append (a b : List String) (n : Node) :
    n.at? (a ++ b) = (n.at? a).bind (at? b) := by
  induction a generalizing n with
  | nil => rfl
  | cons m a ih =>
    rw [List.cons_append, at?, at?, Option.bind_assoc]
    exact Option.bind_congr fun c _ => ih c

/-- The way to a directory goes through directories. -/
theorem isDirectory_of_append {n : Node} {a b : List String}
    (h : (n.at? (a ++ b)).any isDirectory = true) : (n.at? a).any isDirectory = true := by
  rw [at?_append] at h
  cases reached : n.at? a with
  | none =>
    rw [reached] at h
    cases h
  | some c =>
    rw [reached, Option.bind_some] at h
    cases b with
    | nil => exact h
    | cons m b =>
      cases c with
      | directory es => rfl
      | file content => cases h
      | link target => cases h

/-- A node apart from what is below it. -/
def bare : Node → Node
  | directory _ => empty
  | n => n

/-- What a place holds, apart from what is below it. -/
def held? (top : Node) (place : List String) : Option Node := (top.at? place).map bare

theorem held?_eq_some_iff {top n : Node} {place : List String} (leaf : n.isDirectory = false) :
    top.held? place = some n ↔ top.at? place = some n := by
  rw [held?, Option.map_eq_some_iff]
  constructor
  · rintro ⟨m, here, equal⟩
    cases n <;> cases m <;> simp_all [bare, empty, isDirectory]
  · intro here
    exact ⟨n, here, by cases n <;> first | rfl | cases leaf⟩

/-- A place holds what it held before, or a directory where nothing was. -/
def KeptAt (before after : Node) (place : List String) : Prop :=
  after.held? place = before.held? place ∨
    before.held? place = none ∧ after.held? place = some empty

/-- At most there are new directories. -/
def Kept (before after : Node) : Prop := ∀ place, KeptAt before after place

theorem KeptAt.trans {a b c : Node} {place : List String} (h : KeptAt a b place)
    (next : KeptAt b c place) : KeptAt a c place := by
  rcases h with same | ⟨nothing, made⟩
  · rw [KeptAt, ← same]
    exact next
  · rcases next with same | ⟨gone, -⟩
    · exact .inr ⟨nothing, same.trans made⟩
    · rw [gone] at made
      cases made

theorem Kept.refl (top : Node) : Kept top top := fun _ => .inl rfl

theorem Kept.trans {a b c : Node} (h : Kept a b) (next : Kept b c) : Kept a c :=
  fun place => (h place).trans (next place)

/-- A place that holds a file or a link holds it still. -/
theorem KeptAt.at?_eq {before after : Node} {place : List String} (h : KeptAt before after place)
    {n : Node} (leaf : n.isDirectory = false) (here : before.at? place = some n) :
    after.at? place = some n := by
  rw [← held?_eq_some_iff leaf] at here ⊢
  rcases h with same | ⟨nothing, -⟩
  · rw [same, here]
  · rw [nothing] at here
    cases here

section Put

variable {top new : Node} {name : String} {dir : List String}

theorem lookup_cons_eq (m k : String) (n : Node) (es : List (String × Node)) :
    ((k, n) :: es).lookup m = if m = k then some n else es.lookup m := by
  by_cases same : m = k
  · simp [same]
  · simp [List.lookup_cons, same, beq_false_of_ne same]

theorem lookup_putEntry (name m : String) (new : Node) (es : List (String × Node)) :
    (putEntry name new es).lookup m = if m = name then some new else es.lookup m := by
  induction es with
  | nil => rw [putEntry, lookup_cons_eq]
  | cons e es ih =>
    obtain ⟨k, n⟩ := e
    rw [putEntry, lookup_cons_eq]
    by_cases first : k = name
    · subst first
      rw [if_pos rfl, lookup_cons_eq]
      split <;> rfl
    · rw [if_neg first, lookup_cons_eq, ih]
      by_cases same : m = k
      · subst same
        rw [if_pos rfl, if_neg first, if_pos rfl]
      · rw [if_neg same, if_neg same]

/-- Nothing is below it. -/
def Childless (n : Node) : Prop := ∀ name, n.child? name = none

theorem Childless.at?_cons (h : Childless new) (m : String) (names : List String) :
    new.at? (m :: names) = none := by
  rw [at?, h m]
  rfl

theorem childless_empty : Childless empty := fun _ => rfl

theorem childless_of_leaf {n : Node} (h : n.isDirectory = false) : Childless n := by
  cases n <;> first | exact fun _ => rfl | cases h

/-- In the entries of a directory, a new node changes its own place alone. -/
theorem held?_put {es : List (String × Node)} (h : Childless new)
    (free : ∀ n, es.lookup name = some n → Childless n) (place : List String) :
    (directory (putEntry name new es)).held? place =
      if place = [name] then some new.bare else (directory es).held? place := by
  cases place with
  | nil => rfl
  | cons m names =>
    simp only [held?, at?, child?, lookup_putEntry]
    by_cases own : m = name
    · subst own
      rw [if_pos rfl, Option.bind_some]
      cases names with
      | nil => simp [at?]
      | cons n names =>
        cases old : es.lookup m with
        | none => simp [h.at?_cons]
        | some o => simp [h.at?_cons, (free o old).at?_cons]
    · simp [own]

/-- A new node without anything below it, put into a directory where no directory is, changes its
own place alone. -/
theorem held?_putAt (h : Childless new) (inside : (top.at? dir).any isDirectory = true)
    (free : ∀ n, top.at? (dir ++ [name]) = some n → Childless n) (place : List String) :
    (putAt new (dir ++ [name]) top).held? place =
      if place = dir ++ [name] then some new.bare else top.held? place := by
  induction dir generalizing top place with
  | nil =>
    obtain ⟨es, rfl⟩ : ∃ es, top = directory es := by
      cases top <;> simp [at?, isDirectory] at inside ⊢
    refine held?_put h (fun n old => free n ?_) place
    simp [at?, child?, old]
  | cons d dir ih =>
    cases top with
    | file content => cases inside
    | link target => cases inside
    | directory es =>
      rw [at?, child?] at inside
      cases old : es.lookup d with
      | none =>
        rw [old] at inside
        cases inside
      | some n =>
        rw [old, Option.bind_some] at inside
        simp only [List.cons_append, at?, child?, old, Option.bind_some] at free
        simp only [List.cons_append, putAt, old, Option.getD_some]
        cases place with
        | nil => rfl
        | cons m names =>
          by_cases own : m = d
          · subst own
            have below := ih inside free names
            simp only [held?, at?, child?, lookup_putEntry, if_pos, Option.bind_some, old,
              List.cons.injEq, true_and] at below ⊢
            exact below
          · simp [held?, at?, child?, lookup_putEntry, own]

theorem putEntry_putEntry (name : String) (new old : Node) (es : List (String × Node)) :
    putEntry name new (putEntry name old es) = putEntry name new es := by
  induction es with
  | nil => simp [putEntry]
  | cons e es ih =>
    obtain ⟨m, n⟩ := e
    by_cases same : m = name
    · simp [putEntry, same]
    · simp [putEntry, same, ih]

theorem putEntry_self {n : Node} {es : List (String × Node)} (h : es.lookup name = some n) :
    putEntry name n es = es := by
  induction es with
  | nil => cases h
  | cons e es ih =>
    obtain ⟨m, k⟩ := e
    rw [lookup_cons_eq] at h
    by_cases same : m = name
    · subst same
      rw [if_pos rfl] at h
      cases h
      simp [putEntry]
    · rw [if_neg (Ne.symm same)] at h
      simp [putEntry, same, ih h]

/-- What was put there before does not show. -/
theorem putAt_putAt (new old : Node) (place : List String) (top : Node) :
    putAt new place (putAt old place top) = putAt new place top := by
  induction place generalizing top with
  | nil => rfl
  | cons name names ih => simp [putAt, lookup_putEntry, putEntry_putEntry, ih]

theorem filter_putEntry {es : List (String × Node)} (h : es.lookup name = none) :
    (putEntry name new es).filter (fun e => e.1 ≠ name) = es := by
  induction es with
  | nil => simp [putEntry]
  | cons e es ih =>
    obtain ⟨m, n⟩ := e
    rw [lookup_cons_eq] at h
    by_cases same : name = m
    · simp [same] at h
    · rw [if_neg same] at h
      have other := ih h
      simp [putEntry, Ne.symm same] at other ⊢
      exact other

/-- What was put where nothing was can be taken away again. -/
theorem eraseEntry_putAt (inside : (top.at? dir).any isDirectory = true)
    (free : top.at? (dir ++ [name]) = none) :
    (putAt new (dir ++ [name]) top).eraseEntry name dir = top := by
  induction dir generalizing top with
  | nil =>
    cases top with
    | file content => cases inside
    | link target => cases inside
    | directory es =>
      have nothing : es.lookup name = none := by simpa [at?, child?] using free
      rw [List.nil_append, putAt, putAt, eraseEntry, filter_putEntry nothing]
  | cons d dir ih =>
    cases top with
    | file content => cases inside
    | link target => cases inside
    | directory es =>
      rw [at?, child?] at inside
      cases old : es.lookup d with
      | none =>
        rw [old] at inside
        cases inside
      | some n =>
        rw [old, Option.bind_some] at inside
        simp only [List.cons_append, at?, child?, old, Option.bind_some] at free
        simp only [List.cons_append, putAt, old, Option.getD_some, eraseEntry, lookup_putEntry,
          if_pos, ih inside free, putEntry_putEntry, putEntry_self old]

end Put

section Directories

variable {top new : Node}

/-- What it takes to make a directory: its name is free in the directory that the other parts lead
to. -/
theorem makeDirectory_ok {base parts : List String}
    (h : top.makeDirectory base parts = .ok new) :
    ∃ above name dir, parts = above ++ [name] ∧ top.walk linkLimit base above = .ok dir ∧
      (top.at? dir).any isDirectory = true ∧ Path.isDots name = false ∧
      name.utf8ByteSize ≤ nameLimit ∧ top.at? (dir ++ [name]) = none ∧
      new = putAt empty (dir ++ [name]) top := by
  unfold makeDirectory at h
  split at h
  · cases h
  · next name last =>
    obtain ⟨above, rfl⟩ := List.getLast?_eq_some_iff.mp last
    rw [List.dropLast_concat] at h
    cases walked : top.walk linkLimit base above with
    | error fault =>
      rw [walked] at h
      cases h
    | ok dir =>
      simp only [walked, Except.bind] at h
      repeat' split at h
      all_goals cases h
      exact ⟨above, name, dir, rfl, walked, by simp_all, by simp_all, by simp_all, by simp_all, rfl⟩

theorem kept_of_makeDirectory {base parts : List String}
    (h : top.makeDirectory base parts = .ok new) : Kept top new := by
  obtain ⟨above, name, dir, rfl, -, inside, -, -, nothing, rfl⟩ := makeDirectory_ok h
  intro place
  have put := held?_putAt childless_empty inside
    (fun n old => by cases nothing.symm.trans old) place
  by_cases own : place = dir ++ [name]
  · subst own
    exact .inr ⟨by rw [held?, nothing]; rfl, by rw [put, if_pos rfl]; rfl⟩
  · exact .inl (by rw [put, if_neg own])

theorem kept_of_makeDirectories (base parts : List String) :
    Kept top (top.makeDirectories base parts).1 := by
  induction parts generalizing top with
  | nil => exact .refl top
  | cons name above ih =>
    rw [makeDirectories]
    split
    · next made => exact kept_of_makeDirectory made
    · have outer : Kept top (top.makeDirectories base above).1 := ih
      split
      · next ran =>
        rw [ran] at outer
        exact outer
      · next ran =>
        rw [ran] at outer
        split
        · next made => exact outer.trans (kept_of_makeDirectory made)
        · exact outer
    · exact .refl top

theorem kept_makeWay (top : Node) (base parts : List String) :
    top.Kept (top.makeWay base parts).1 := by
  rw [makeWay]
  split
  · exact .refl top
  · exact kept_of_makeDirectories _ _

theorem not_isDirectory_of_any {o : Option Node} (h : o.any isDirectory = false) {n : Node}
    (some : o = some n) : n.isDirectory = false := by
  rw [some] at h
  exact h

variable [Start]

/-- The place of a new file is in a directory, and no directory is there. -/
theorem placeFor_ok {path : String} {place : List String} (h : top.placeFor path = .ok place) :
    ∃ dir name, place = dir ++ [name] ∧ (top.at? dir).any isDirectory = true ∧
      (top.at? (dir ++ [name])).any isDirectory = false := by
  unfold placeFor at h
  split at h
  · cases h
  · dsimp only at h
    split at h
    · cases h
    · next name above _ =>
      cases walked : top.walk linkLimit (Start.of path) above.reverse with
      | error fault =>
        rw [walked] at h
        cases h
      | ok dir =>
        simp only [walked, Except.bind] at h
        repeat' split at h
        all_goals cases h
        exact ⟨dir, name, rfl, by simp_all, by simp_all⟩

/-- The files with the directories that a path is in, and the place for a file at that path. -/
def prepare (top : Node) (path : String) : Node × Except Fault (List String) :=
  match top.makeParents path with
  | (made, .error fault) => (made, .error fault)
  | (made, .ok ()) => (made, made.placeFor path)

theorem kept_prepare (top : Node) (path : String) : top.Kept (top.prepare path).1 := by
  have kept := kept_makeWay top (Start.of path) (parentParts path)
  rw [prepare, makeParents]
  cases ran : top.makeWay (Start.of path) (parentParts path) with
  | mk made result =>
    rw [ran] at kept
    cases result <;> exact kept

theorem prepare_ok {path : String} {place : List String} (h : (top.prepare path).2 = .ok place) :
    (top.prepare path).1.placeFor path = .ok place := by
  rw [prepare] at h ⊢
  cases ran : top.makeParents path with
  | mk made result =>
    rw [ran] at h
    cases result with
    | error fault => cases h
    | ok _ => exact h

/-- The files after a write: the place of the path holds the text, and every other one what it held
or a new directory. The place is that of the path once the directories it is in are there. -/
structure Written (before after : Node) (path text : String) (place : List String) : Prop where
  placed : (before.prepare path).2 = .ok place
  put : after = putAt (file text.toUTF8) place (before.prepare path).1
  holds : after.at? place = some (file text.toUTF8)
  kept : ∀ other ≠ place, KeptAt before after other

theorem written_putAt {path : String} {place : List String} (h : (top.prepare path).2 = .ok place)
    (text : String) :
    Written top (putAt (file text.toUTF8) place (top.prepare path).1) path text place := by
  obtain ⟨dir, name, rfl, inside, free⟩ := placeFor_ok (prepare_ok h)
  have leaf : Childless (file text.toUTF8) := childless_of_leaf rfl
  have put := held?_putAt leaf inside
    fun n old => childless_of_leaf (not_isDirectory_of_any free old)
  refine ⟨h, rfl, ?_, fun other apart => ?_⟩
  · have own := put (dir ++ [name])
    rw [if_pos rfl, held?, Option.map_eq_some_iff] at own
    obtain ⟨n, here, equal⟩ := own
    cases n <;> simp_all [bare, empty]
  · have same : KeptAt (top.prepare path).1
        (putAt (file text.toUTF8) (dir ++ [name]) (top.prepare path).1) other :=
      .inl (by rw [put, if_neg apart])
    exact (kept_prepare top path other).trans same

end Directories

end TypedDecl.Files.Node
