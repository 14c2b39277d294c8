import TypedDecl.Proofs.Naming
import TypedDecl.Proofs.ResourceConstants

namespace TypedDecl

open Code (Ident Item Token)
open Code.Lexer (neverRaw)
open Declaration (DecidedBy Emits emits_of_listTokens)

namespace Directory

variable {root : Directory} {ds : List Declaration} {ns : String} {options : RenderOptions}

/-- The names of the constants of a directory. -/
def Visit.constantNames (v : Visit) : List String :=
  (if v.exposed then v.files else []).map Name.sanitize

/-- The names of all constants, in the order of the walk. -/
def constantNames (root : Directory) : List String := root.visits.flatMap Visit.constantNames

theorem mem_constantNames {n : String} : n ∈ root.constantNames ↔
    ∃ v ∈ root.visits, v.exposed = true ∧ ∃ f ∈ v.files, Name.sanitize f = n := by
  simp only [constantNames, List.mem_flatMap, Visit.constantNames, List.mem_map]
  refine exists_congr fun v => and_congr_right fun _ => ?_
  cases v.exposed <;> simp

/-- The name of a structure begins with the letter of the root, and no keyword without a raw form
does. -/
theorem Visit.fit_declaredName (v : Visit) : neverRaw.contains v.declaredName = false := by
  have begins : v.declaredName.toList.head? = some 'R' := by
    rw [Visit.declaredName, String.toList_append]
    rfl
  have others : ∀ w ∈ neverRaw, w.toList.head? ≠ some 'R' := by decide
  rw [← Bool.not_eq_true, List.contains_iff_mem]
  exact fun mem => others _ mem begins

theorem Visit.decided_constants (v : Visit) :
    DecidedBy v.constantNames (v.declaration.members.mapM Declaration.spell) := by
  have each : DecidedBy (v.declaration.members.flatMap fun m => [m.name])
      (v.declaration.members.mapM Declaration.spell) := by
    refine .mapM fun m mem => ?_
    rw [v.members_declaration, List.mem_map] at mem
    obtain ⟨f, -, rfl⟩ := mem
    exact .spell (Name.word_sanitize f) fun _ _ =>
      ⟨⟨_, typeTokens_pathType⟩, _, Declaration.valueTokens_quote _⟩
  have names : (v.declaration.members.flatMap fun m => [m.name]) = v.constantNames := by
    rw [v.members_declaration, ← List.map_eq_flatMap, List.map_map]
    rfl
  rwa [names] at each

theorem Visit.decided_tokens (runtime : Code.Path) (v : Visit) :
    DecidedBy v.constantNames (Declaration.tokens runtime v.declaration) := by
  have struct : DecidedBy [v.declaration.name] (Declaration.ident v.declaration.name) :=
    .ident v.word_declaredName
  refine .of_cons v.fit_declaredName (struct.bind fun i _ => ?_)
  exact v.decided_constants.map _

theorem decided_render (hd : root.describe = .ok ds) {items nested : List Token}
    (hn : Namespace.tokens ns items = .ok nested) {runtime : Code.Path}
    (hr : Declaration.runtimePath options.runtime = .ok runtime) :
    DecidedBy root.constantNames (render ns ds options) := by
  obtain ⟨rfl, -⟩ := describe_ok hd
  obtain ⟨i, is, named, taken⟩ := Namespace.tokens_of_ok hn
  have rows : DecidedBy root.constantNames
      (Declaration.listTokens options.runtime (root.visits.map Visit.declaration)) := by
    rw [Declaration.listTokens, hr]
    have each := DecidedBy.mapM fun v (_ : v ∈ root.visits) => v.decided_tokens runtime
    have mapped : (root.visits.map Visit.declaration).mapM (Declaration.tokens runtime) =
        root.visits.mapM fun v => Declaration.tokens runtime v.declaration := List.mapM_map
    rw [← mapped] at each
    exact each.map List.flatten
  have code : DecidedBy (root.constantNames ++ [])
      (renderCode ns (root.visits.map Visit.declaration) options.runtime) := by
    refine rows.bind fun ts emitted => ?_
    obtain ⟨path, -, emits⟩ := emits_of_listTokens emitted
    obtain ⟨text, formatted⟩ := formatTokens_emits emits named
    refine ⟨text, ?_⟩
    rw [taken ts]
    exact formatted
  rw [List.append_nil] at code
  exact code.map _

/-- What is made of directories is rendered exactly if no file that becomes a constant is sanitized
to a keyword without a raw form, and otherwise the first such constant is the error. The code of the
declarations is always read back as items. -/
theorem render_iff_fit_constants (hd : root.describe = .ok ds) {items nested : List Token}
    (hn : Namespace.tokens ns items = .ok nested) {runtime : Code.Path}
    (hr : Declaration.runtimePath options.runtime = .ok runtime) :
    ((∃ text, render ns ds options = .ok text) ↔
        ∀ v ∈ root.visits, v.exposed = true → ∀ f ∈ v.files, Name.sanitize f ∉ neverRaw) ∧
      (∀ name, root.constantNames.find? neverRaw.contains = some name →
        render ns ds options = .error (.invalidName name)) ∧
      ∀ rows ts, Declaration.listTokens options.runtime ds = .ok rows →
        Namespace.tokens ns rows = .ok ts → (Item.listOfTokens? ts).isSome = true := by
  have decided := decided_render hd hn hr
  refine ⟨?_, fun name first => decided.eq_error first, fun rows ts emitted nested => ?_⟩
  · rw [decided.exists_ok_iff]
    simp only [mem_constantNames, ← Bool.not_eq_true, List.contains_iff_mem]
    exact ⟨fun fit v hv shown f hf => fit _ ⟨v, hv, shown, f, hf, rfl⟩,
      fun fit n ⟨v, hv, shown, f, hf, sanitized⟩ => sanitized ▸ fit v hv shown f hf⟩
  · obtain ⟨rfl, -⟩ := describe_ok hd
    obtain ⟨path, -, emits⟩ := emits_of_listTokens emitted
    obtain ⟨i, is, -, named, rfl⟩ := Namespace.tokens_ok nested
    obtain ⟨text, formatted⟩ := formatTokens_emits emits named
    exact Namespace.isSome_of_formatTokens formatted

/-- Concealed files may have any names; the first constant that cannot be named is the error. -/
theorem render_of_concealed_keyword : ∃ ds nested runtime,
    (mk "" ["a"] [mk "crate" ["self"] [] false, mk "b" ["<", "super"] [] true] true).describe =
      .ok ds ∧
    Namespace.tokens "site" [] = .ok nested ∧
    Declaration.runtimePath "runtime" = .ok runtime ∧
    ((∃ text, render "site" ds
        ⟨"runtime", none, Provenance.own ⟨2024, 1, 2, 3, 4, 5, 0⟩⟩ = .ok text) ↔
      ∀ v ∈ (mk "" ["a"] [mk "crate" ["self"] [] false, mk "b" ["<", "super"] [] true] true).visits,
        v.exposed = true → ∀ f ∈ v.files, Name.sanitize f ∉ neverRaw) ∧
    render "site" ds ⟨"runtime", none, Provenance.own ⟨2024, 1, 2, 3, 4, 5, 0⟩⟩ =
      .error (.invalidName "_") := by
  let root := mk "" ["a"] [mk "crate" ["self"] [] false, mk "b" ["<", "super"] [] true] true
  let options : RenderOptions := ⟨"runtime", none, Provenance.own ⟨2024, 1, 2, 3, 4, 5, 0⟩⟩
  have described : root.describe.toBool = true := by decide +kernel
  have nests : (Namespace.tokens "site" []).toBool = true := by decide +kernel
  have reads : (Declaration.runtimePath "runtime").toBool = true := by decide +kernel
  obtain ⟨ds, hd⟩ := Declaration.exists_ok described
  obtain ⟨nested, hn⟩ := Declaration.exists_ok nests
  obtain ⟨runtime, hr⟩ := Declaration.exists_ok reads
  obtain ⟨exactly, fails, -⟩ := @render_iff_fit_constants root ds "site" options hd _ _ hn _ hr
  exact ⟨ds, nested, runtime, hd, hn, hr, exactly, fails "_" (by decide +kernel)⟩

end Directory

end TypedDecl
