import TypedDecl.Proofs.CommandLine.Words

namespace TypedDecl.CommandLine

/-- The options that a word is, if it is not one that ends them. -/
def wordOptions (specs : List OptionSpec) (word : String) :
    Option (Given → List String → Progress) :=
  match word.toList with
  | ['-', '-'] => none
  | '-' :: '-' :: name => some (longOption specs name)
  | '-' :: c :: cs => some (shortOptions specs (c :: cs))
  | _ => none

theorem steps_wordOptions {specs : List OptionSpec} {word : String}
    {f : Given → List String → Progress} (hf : wordOptions specs word = some f) {given g : Given}
    {rest r : List String} (h : f given rest = .more g r) : Steps f given rest g r := by
  unfold wordOptions at hf
  split at hf
  · cases hf
  · cases hf
    exact steps_longOption h
  · cases hf
    exact steps_shortOptions h
  · cases hf

theorem readOptions_word {specs : List OptionSpec} {word : String}
    {f : Given → List String → Progress} (hf : wordOptions specs word = some f) (fuel : Nat)
    (given : Given) (rest : List String) :
    readOptions specs (fuel + 1) given (word :: rest) = andThen f (readOptions specs fuel) given rest := by
  unfold wordOptions at hf
  split at hf
  · cases hf
  · next name more chars =>
    cases hf
    cases name with
    | nil => exact absurd rfl more
    | cons c name =>
      cases read : longOption specs (c :: name) given rest <;>
        simp only [readOptions, andThen, chars, read]
  · next c cs _ _ chars =>
    cases hf
    cases read : shortOptions specs (c :: cs) given rest <;>
      simp only [readOptions, andThen, chars, read]
  · cases hf

theorem readOptions_nil (specs : List OptionSpec) (fuel : Nat) (given : Given) :
    readOptions specs fuel given [] = .more given [] := by
  cases fuel <;> rfl

/-- Where options end: the word is none, or it says so and is the last one. -/
theorem readOptions_end {specs : List OptionSpec} {word : String}
    (hf : wordOptions specs word = none) (fuel : Nat) (given : Given) (rest : List String) :
    readOptions specs (fuel + 1) given (word :: rest) =
      if word = "--" then if rest.isEmpty then .more given [] else .failed
      else .more given (word :: rest) := by
  have marks : word = "--" ↔ word.toList = ['-', '-'] := by
    rw [← String.toList_inj]
    rfl
  unfold wordOptions at hf
  split at hf
  · next chars =>
    rw [if_pos (marks.mpr chars)]
    cases rest with
    | nil => simp only [readOptions, chars, List.isEmpty_nil, if_true, readOptions_nil]
    | cons _ _ => simp only [readOptions, chars, List.isEmpty_cons, Bool.false_eq_true, if_false]
  · cases hf
  · cases hf
  · next plain long short =>
    rw [if_neg fun h => plain (marks.mp h), readOptions]
    split
    · next none => rfl
    · next step some =>
      split at some <;> simp_all
    · next step other some =>
      split at some <;> simp_all

/-- Words are read as options from some that are given on, up to a word that is none. -/
inductive Reads (specs : List OptionSpec) : Given → List String → Given → List String → Prop
  | done (given : Given) : Reads specs given [] given []
  | marked (given : Given) : Reads specs given ["--"] given []
  | stop (given : Given) {word : String} (rest : List String)
      (plain : wordOptions specs word = none) (other : word ≠ "--") :
      Reads specs given (word :: rest) given (word :: rest)
  | option {f : Given → List String → Progress} {word : String} {rest : List String}
      {given given' : Given} {g : Given} {r rest' : List String}
      (options : wordOptions specs word = some f) (first : f given rest = .more given' rest')
      (later : Reads specs given' rest' g r) : Reads specs given (word :: rest) g r

theorem reads_of_readOptions {specs : List OptionSpec} {fuel : Nat} {given g : Given}
    {words r : List String} (h : readOptions specs fuel given words = .more g r) :
    Reads specs given words g r := by
  induction fuel generalizing given words with
  | zero =>
    cases words with
    | nil =>
      cases h
      exact .done g
    | cons word rest => cases h
  | succ fuel ih =>
    cases words with
    | nil =>
      cases h
      exact .done g
    | cons word rest =>
      cases options : wordOptions specs word with
      | none =>
        rw [readOptions_end options] at h
        split at h
        · next mark =>
          split at h
          · next last =>
            cases h
            rw [List.isEmpty_iff.mp last, mark]
            exact .marked g
          · cases h
        · next other =>
          cases h
          exact .stop g rest options other
      | some f =>
        rw [readOptions_word options, andThen_eq_more] at h
        obtain ⟨given', rest', first, later⟩ := h
        exact .option options first (ih later)

namespace Reads

variable {specs : List OptionSpec} {given g : Given} {words r : List String}

theorem of_options {word : String} {rest : List String} {f : Given → List String → Progress}
    (h : Reads specs given (word :: rest) g r) (options : wordOptions specs word = some f) :
    ∃ given' rest', f given rest = .more given' rest' ∧ Reads specs given' rest' g r := by
  cases h with
  | marked => cases options
  | stop _ _ plain =>
    rw [plain] at options
    cases options
  | option options' first later =>
    rw [options] at options'
    cases options'
    exact ⟨_, _, first, later⟩

theorem of_plain {word : String} {rest : List String} (h : Reads specs given (word :: rest) g r)
    (plain : wordOptions specs word = none) :
    g = given ∧ (word = "--" ∧ rest = [] ∧ r = [] ∨ word ≠ "--" ∧ r = word :: rest) := by
  cases h with
  | marked => exact ⟨rfl, .inl ⟨rfl, rfl, rfl⟩⟩
  | stop _ _ _ different => exact ⟨rfl, .inr ⟨different, rfl⟩⟩
  | option options =>
    rw [plain] at options
    cases options

/-- What is given before does not change what is added. -/
theorem same (h : Reads specs given words g r) {other g' : Given} {r' : List String}
    (h' : Reads specs other words g' r') :
    ∃ added, g = given ++ added ∧ g' = other ++ added ∧ r' = r := by
  induction h generalizing other with
  | done given =>
    cases h'
    exact ⟨[], by simp, by simp, rfl⟩
  | marked given =>
    obtain ⟨rfl, ⟨-, -, rfl⟩ | ⟨different, -⟩⟩ := h'.of_plain rfl
    · exact ⟨[], by simp, by simp, rfl⟩
    · exact absurd rfl different
  | stop given rest plain different =>
    obtain ⟨rfl, ⟨mark, -⟩ | ⟨-, rfl⟩⟩ := h'.of_plain plain
    · exact absurd mark different
    · exact ⟨[], by simp, by simp, rfl⟩
  | option options first later ih =>
    obtain ⟨_, _, first', later'⟩ := h'.of_options options
    obtain ⟨added, used, rfl, rfl, taken⟩ := steps_wordOptions options first
    obtain ⟨rfl, rfl⟩ := taken.same first'
    obtain ⟨more, rfl, rfl, rfl⟩ := ih later'
    exact ⟨added ++ more, by simp, by simp, rfl⟩

/-- What is given before makes reading fail only if it holds what is added. -/
theorem fits {added : Given} (h : Reads specs given words (given ++ added) r) {other : Given}
    (fresh : ∀ k ∈ added.keys, k ∈ other.keys → k ∈ given.keys) :
    Reads specs other words (other ++ added) r := by
  generalize whole : given ++ added = g at h
  induction h generalizing added other with
  | done given =>
    obtain rfl : added = [] := by simpa using whole
    rw [List.append_nil]
    exact .done other
  | marked given =>
    obtain rfl : added = [] := by simpa using whole
    rw [List.append_nil]
    exact .marked other
  | stop given rest plain different =>
    obtain rfl : added = [] := by simpa using whole
    rw [List.append_nil]
    exact .stop other rest plain different
  | option options first later ih =>
    obtain ⟨front, used, rfl, rfl, taken⟩ := steps_wordOptions options first
    obtain ⟨more, rfl, -, -⟩ := later.same later
    rw [List.append_assoc, List.append_cancel_left_eq] at whole
    subst whole
    simp only [Given.keys_append, List.mem_append] at fresh
    rw [← List.append_assoc]
    refine .option options (taken.fits fun k mem held => fresh k (.inl mem) held) (ih ?_ rfl)
    intro k mem held
    rw [Given.keys_append, List.mem_append] at held ⊢
    exact held.imp_left (fresh k (.inr mem))

/-- Up to a word that is no option, what follows that word does not matter. -/
theorem front {word : String} {rest : List String} (h : Reads specs given words g (word :: rest)) :
    ∃ used, words = used ++ word :: rest ∧
      ∀ others, Reads specs given (used ++ word :: others) g (word :: others) := by
  generalize left : word :: rest = r at h
  induction h with
  | done given => cases left
  | marked given => cases left
  | stop given rest plain different =>
    cases left
    exact ⟨[], rfl, fun others => .stop given others plain different⟩
  | @option f first_word rest given given' g r rest' options first later ih =>
    obtain ⟨used, rfl, reads⟩ := ih left
    obtain ⟨added, taken_words, rfl, rfl, taken⟩ := steps_wordOptions options first
    refine ⟨first_word :: (taken_words ++ used), by simp, fun others => ?_⟩
    have step := taken.fits (r := used ++ word :: others) fun k _ held => held
    rw [List.cons_append, List.append_assoc]
    exact .option options step (reads others)

end Reads

section Flag

def dryRunKey : String := "dry-run"

def dryRunWord : String := "--dry-run"

/-- If options have a dry run, it is a flag without a short form. -/
def DryRunFlag (specs : List OptionSpec) : Prop :=
  ∀ s ∈ specs, s.key = dryRunKey → s.accepts = none ∧ s.short = none

variable {specs : List OptionSpec} {given g : Given} {words r : List String}

theorem wordOptions_dryRun (specs : List OptionSpec) :
    wordOptions specs dryRunWord = some (longOption specs dryRunKey.toList) := rfl

theorem longOption_dryRun (flag : DryRunFlag specs) :
    (longOption specs dryRunKey.toList = fun _ _ => .failed) ∨
      ∃ s ∈ specs, s.key = dryRunKey ∧ longOption specs dryRunKey.toList = note s "" := by
  have whole : String.ofList (dryRunKey.toList.takeWhile (· ≠ '=')) = dryRunKey := by decide
  have nothing : dryRunKey.toList.dropWhile (· ≠ '=') = [] := by decide
  cases found : specs.find? fun s => s.hasLong && s.key = dryRunKey with
  | none =>
    refine .inl ?_
    funext given rest
    simp only [longOption, whole, found]
  | some spec =>
    have mem := List.mem_of_find?_eq_some found
    have named := List.find?_some found
    simp only [Bool.and_eq_true, decide_eq_true_eq] at named
    refine .inr ⟨spec, mem, named.2, ?_⟩
    funext given rest
    simp only [longOption, whole, found, nothing, (flag spec mem named.2).1]

theorem keys_note {spec : OptionSpec} {value : String} (h : note spec value given words = .more g r) :
    g.keys = given.keys ++ [spec.key] := by
  obtain ⟨-, rfl, -⟩ := note_eq_more.mp h
  exact Given.keys_append given [(spec.key, value)]

theorem keys_noteNext {spec : OptionSpec} (h : noteNext spec given words = .more g r) :
    g.keys = given.keys ++ [spec.key] := by
  cases words with
  | nil => cases h
  | cons word words =>
    rw [noteNext] at h
    split at h
    · exact keys_note h
    · cases h

/-- A long option is known by its name, and one without a value is all of the word. -/
theorem keys_longOption {word : List Char} (h : longOption specs word given words = .more g r) :
    ∃ s ∈ specs, g.keys = given.keys ++ [s.key] ∧ (s.accepts = none → String.ofList word = s.key) := by
  cases found : specs.find? fun s => s.hasLong && s.key = String.ofList (word.takeWhile (· ≠ '='))
    with
  | none =>
    simp only [longOption, found] at h
    cases h
  | some spec =>
    have mem := List.mem_of_find?_eq_some found
    have named := List.find?_some found
    simp only [Bool.and_eq_true, decide_eq_true_eq] at named
    simp only [longOption, found] at h
    split at h
    · next value accepts =>
      refine ⟨spec, mem, keys_note h, fun _ => ?_⟩
      have whole := List.takeWhile_append_dropWhile (p := (· ≠ '=')) (l := word)
      rw [value, List.append_nil] at whole
      rw [named.2, whole]
    · next accepts => exact ⟨spec, mem, keys_noteNext h, by simp [accepts]⟩
    · cases h
    · next accepts => exact ⟨spec, mem, keys_note h, by simp [accepts]⟩

/-- A short option has a short form. -/
theorem keys_shortOptions {cs : List Char} (h : shortOptions specs cs given words = .more g r) {k : String}
    (hk : k ∈ g.keys) : k ∈ given.keys ∨ ∃ s ∈ specs, s.key = k ∧ s.short.isSome = true := by
  induction cs generalizing given words with
  | nil =>
    cases h
    exact .inl hk
  | cons c cs ih =>
    cases found : specs.find? fun s => s.short = some c with
    | none =>
      simp only [shortOptions, found] at h
      cases h
    | some spec =>
      have mem := List.mem_of_find?_eq_some found
      have short := List.find?_some found
      simp only [decide_eq_true_eq] at short
      have own {g : Given} (keys : g.keys = given.keys ++ [spec.key]) (hk : k ∈ g.keys) :
          k ∈ given.keys ∨ ∃ s ∈ specs, s.key = k ∧ s.short.isSome = true := by
        rw [keys, List.mem_append, List.mem_singleton] at hk
        exact hk.imp_right fun here => ⟨spec, mem, here.symm, by rw [short]; rfl⟩
      simp only [shortOptions, found] at h
      split at h
      · split at h
        · next first =>
          rcases ih h with before | later
          · exact own (keys_note first) before
          · exact .inr later
        · simp_all
      · split at h
        · exact own (keys_noteNext h) hk
        · exact own (keys_note h) hk
        · exact own (keys_note h) hk

/-- Only the word for it asks for a dry run. -/
theorem keys_wordOptions (flag : DryRunFlag specs) {word : String}
    {f : Given → List String → Progress} (hf : wordOptions specs word = some f)
    (h : f given words = .more g r) (hk : dryRunKey ∈ g.keys) :
    dryRunKey ∈ given.keys ∨ word = dryRunWord := by
  unfold wordOptions at hf
  split at hf
  · cases hf
  · next name _ chars =>
    cases hf
    obtain ⟨s, mem, keys, whole⟩ := keys_longOption h
    rw [keys, List.mem_append, List.mem_singleton] at hk
    refine hk.imp_right fun here => ?_
    have name_eq := whole (flag s mem here.symm).1
    rw [← here] at name_eq
    rw [← String.toList_inj, chars]
    have chars := congrArg String.toList name_eq
    rw [String.toList_ofList] at chars
    rw [chars]
    rfl
  · cases hf
    rcases keys_shortOptions h hk with before | ⟨s, mem, here, short⟩
    · exact .inl before
    · rw [(flag s mem here).2] at short
      cases short
  · cases hf

/-- The word for a dry run is no value, so where it is put in and options are read, it stands behind
what they take. -/
theorem Takes.apart {f : Given → List String → Progress} {added : Given} {used a b : List String}
    (h : Takes f given added used) {g' : Given} {r' : List String}
    (first : f given (a ++ dryRunWord :: b) = .more g' r') (rest : a ++ b = used ++ r) :
    ∃ behind, a = used ++ behind ∧ r = behind ++ b := by
  rcases List.append_eq_append_iff.mp rest with ⟨value, whole, rfl⟩ | ⟨behind, rfl, rfl⟩
  · cases value with
    | nil => exact ⟨[], by simpa using whole.symm, rfl⟩
    | cons v value =>
      have short := h.single
      rw [whole, List.length_append, List.length_cons] at short
      obtain rfl : a = [] := List.length_eq_zero_iff.mp (by omega)
      exact absurd first (h.needs (by simp [whole]) rfl)
  · exact ⟨behind, rfl, rfl⟩

theorem Given.isSome_value? {given : Given} {k : String} :
    (given.value? k).isSome = true ↔ k ∈ given.keys := by
  simp only [Given.value?]
  induction given with
  | nil => simp [Given.keys]
  | cons x given ih =>
    obtain ⟨key, value⟩ := x
    by_cases same : k = key
    · simp [same, Given.keys]
    · have others : k ∈ Given.keys ((key, value) :: given) ↔ k ∈ Given.keys given := by
        simp [Given.keys, same]
      rw [List.lookup_cons, beq_false_of_ne same, others]
      exact ih

namespace Reads

/-- Without the word for it, no dry run is asked for. -/
theorem not_mem_keys (flag : DryRunFlag specs) (h : Reads specs given words g r)
    (absent : dryRunWord ∉ words) (before : dryRunKey ∉ given.keys) : dryRunKey ∉ g.keys := by
  induction h with
  | done given => exact before
  | marked given => exact before
  | stop given rest plain different => exact before
  | option options first later ih =>
    obtain ⟨added, used, rfl, rfl, -⟩ := steps_wordOptions options first
    simp only [List.mem_cons, List.mem_append, not_or] at absent
    refine ih absent.2.2 fun mem => ?_
    rcases keys_wordOptions flag options first mem with early | here
    · exact before early
    · exact absent.1 here.symm

/-- With the word for it, a dry run is asked for, unless the word comes after the options. -/
theorem mem_keys (flag : DryRunFlag specs) (h : Reads specs given words g r)
    (present : dryRunWord ∈ words ∨ dryRunKey ∈ given.keys ∧ ∃ s ∈ specs, s.key = dryRunKey) :
    dryRunKey ∈ g.keys ∧ (∃ s ∈ specs, s.key = dryRunKey) ∨ dryRunWord ∈ r := by
  induction h with
  | done given => exact .inl (by simpa using present)
  | marked given =>
    have apart : dryRunWord ∉ ["--"] := by decide
    exact .inl (present.resolve_left apart)
  | stop given rest plain different => exact present.symm
  | option options first later ih =>
    refine ih ?_
    obtain ⟨added, used, rfl, rfl, taken⟩ := steps_wordOptions options first
    rw [Given.keys_append, List.mem_append]
    rcases present with here | ⟨before, known⟩
    · rw [List.mem_cons, List.mem_append] at here
      rcases here with rfl | value | later
      · rw [wordOptions_dryRun, Option.some.injEq] at options
        subst options
        rcases longOption_dryRun flag with none | ⟨s, mem, named, same⟩
        · rw [none] at first
          cases first
        · rw [same] at first
          have keys := keys_note first
          rw [Given.keys_append, named, List.append_cancel_left_eq] at keys
          exact .inr ⟨.inr (by simp [keys]), s, mem, named⟩
      · have no := taken.values _ value
        cases no
      · exact .inl later
    · exact .inr ⟨.inl before, known⟩

theorem insert_here (flag : DryRunFlag specs) (h : Reads specs given words g r) {g' : Given}
    {r' : List String} (h' : Reads specs given (dryRunWord :: words) g' r') :
    ∃ x y, g = x ++ y ∧ g' = x ++ (dryRunKey, "") :: y ∧ r' = r ∧ ∃ s ∈ specs, s.key = dryRunKey := by
  obtain ⟨_, _, first, later⟩ := h'.of_options (wordOptions_dryRun specs)
  rcases longOption_dryRun flag with none | ⟨s, mem, named, same⟩
  · rw [none] at first
    cases first
  · rw [same] at first
    obtain ⟨-, rfl, rfl⟩ := note_eq_more.mp first
    obtain ⟨added, rfl, rfl, rfl⟩ := h.same later
    exact ⟨given, added, rfl, by simp [named], rfl, s, mem, named⟩

/-- The word for a dry run, put in between others, adds that option where options are read, and
comes after them otherwise. -/
theorem insert (flag : DryRunFlag specs) {a b : List String} (h : Reads specs given (a ++ b) g r)
    {g' : Given} {r' : List String} (h' : Reads specs given (a ++ dryRunWord :: b) g' r') :
    (∃ x y, g = x ++ y ∧ g' = x ++ (dryRunKey, "") :: y ∧ r' = r ∧ ∃ s ∈ specs, s.key = dryRunKey) ∨
      ∃ c ≠ [], g' = g ∧ r = c ++ b ∧ r' = c ++ dryRunWord :: b := by
  generalize whole : a ++ b = words at h
  induction h generalizing a with
  | done given =>
    obtain ⟨rfl, rfl⟩ := List.append_eq_nil_iff.mp whole
    exact .inl (insert_here flag (.done given) h')
  | marked given =>
    cases a with
    | nil =>
      subst whole
      exact .inl (insert_here flag (.marked given) h')
    | cons w a =>
      obtain ⟨rfl, rest⟩ := List.cons.inj whole
      obtain ⟨rfl, rfl⟩ := List.append_eq_nil_iff.mp rest
      obtain ⟨-, ⟨-, more, -⟩ | ⟨different, -⟩⟩ := h'.of_plain rfl
      · cases more
      · exact absurd rfl different
  | stop given rest plain different =>
    cases a with
    | nil =>
      subst whole
      exact .inl (insert_here flag (.stop given rest plain different) h')
    | cons w a =>
      obtain ⟨rfl, rfl⟩ := List.cons.inj whole
      obtain ⟨rfl, ⟨mark, -⟩ | ⟨-, rfl⟩⟩ := h'.of_plain plain
      · exact absurd mark different
      · exact .inr ⟨w :: a, List.cons_ne_nil w a, rfl, rfl, rfl⟩
  | option options first later ih =>
    cases a with
    | nil =>
      subst whole
      exact .inl (insert_here flag (.option options first later) h')
    | cons w a =>
      obtain ⟨rfl, rest⟩ := List.cons.inj whole
      obtain ⟨added, used, rfl, rfl, taken⟩ := steps_wordOptions options first
      rw [List.cons_append] at h'
      obtain ⟨_, _, first', later'⟩ := h'.of_options options
      obtain ⟨behind, rfl, rfl⟩ := taken.apart first' rest
      rw [List.append_assoc, taken.fits fun _ _ held => held, Progress.more.injEq] at first'
      obtain ⟨rfl, rfl⟩ := first'
      exact ih later' rfl

end Reads

end Flag

section Requests

/-- A command by its name, with its options and what is made of them. -/
inductive CommandNamed : String → List OptionSpec → (Given → Option Command) → Prop
  | sql : CommandNamed "sql" sqlOptions
      fun given => some (.sql ((given.value? "catalog-dir").getD "."))
  | staticMap : CommandNamed "static-map" staticMapOptions
      fun given => (given.value? "root").map .staticMap

theorem dryRunFlag_program : DryRunFlag programOptions := by
  simp [DryRunFlag, programOptions, sharedOptions, OptionSpec.path, OptionSpec.flag, dryRunKey,
    versionKey, helpKey]

/-- The words ask for a command with these options. -/
structure Asks (words : List String) (i : Invocation) (name : String) (rest : List String)
    (specs : List OptionSpec) (command : Given → Option Command) (program : Given) : Prop where
  read : Reads programOptions [] words program (name :: rest)
  named : CommandNamed name specs command
  options : Reads specs [] rest i.given []
  command : command i.given = some i.command
  config : i.config = (i.given.value? "config" <|> program.value? "config")
  dryRun : i.dryRun = (i.given.value? dryRunKey).isSome

theorem asks_of_readCommand {specs : List OptionSpec} {topic : Topic}
    {command : Given → Option Command} {program : Given} {words : List String} {i : Invocation}
    (h : readCommand specs topic command program words = .run i) :
    Reads specs [] words i.given [] ∧ command i.given = some i.command ∧
      i.config = (i.given.value? "config" <|> program.value? "config") ∧
      i.dryRun = (i.given.value? dryRunKey).isSome := by
  unfold readCommand at h
  split at h
  · cases h
  · next given read =>
    split at h
    · next c told =>
      cases h
      exact ⟨reads_of_readOptions read, told, rfl, rfl⟩
    · cases h
  · cases h

theorem asks_of_ofWords {words : List String} {i : Invocation}
    (h : Request.ofWords words = .run i) :
    ∃ name rest specs command program, Asks words i name rest specs command program := by
  unfold Request.ofWords at h
  split at h
  · split at h <;> cases h
  · next program rest read =>
    obtain ⟨options, told, config, dry⟩ := asks_of_readCommand h
    exact ⟨_, rest, _, _, program, reads_of_readOptions read, .sql, options, told, config, dry⟩
  · next program rest read =>
    obtain ⟨options, told, config, dry⟩ := asks_of_readCommand h
    exact ⟨_, rest, _, _, program, reads_of_readOptions read, .staticMap, options, told, config,
      dry⟩
  · split at h <;> cases h
  · cases h

namespace CommandNamed

variable {name : String} {specs : List OptionSpec} {command : Given → Option Command}

theorem unique (h : CommandNamed name specs command) {name' : String} {specs' : List OptionSpec}
    {command' : Given → Option Command} (h' : CommandNamed name' specs' command')
    (same : name = name') : specs = specs' ∧ command = command' := by
  cases h <;> cases h' <;> first | exact ⟨rfl, rfl⟩ | exact absurd same (by decide)

theorem flag (h : CommandNamed name specs command) : DryRunFlag specs := by
  cases h <;> simp [DryRunFlag, sqlOptions, staticMapOptions, sharedOptions, OptionSpec.path,
    OptionSpec.flag, OptionSpec.text, OptionSpec.bool, dryRunKey, helpKey]

/-- The dry run plays no part in what the command is. -/
theorem congr (h : CommandNamed name specs command) {given given' : Given}
    (same : ∀ k ≠ dryRunKey, given'.value? k = given.value? k) : command given' = command given := by
  cases h with
  | sql => simp only [same "catalog-dir" (by decide)]
  | staticMap => simp only [same "root" (by decide)]

end CommandNamed

/-- A dry run is known by its word. -/
theorem Asks.dryRun_iff {words : List String} {i : Invocation} {name : String}
    {rest : List String} {specs : List OptionSpec} {command : Given → Option Command}
    {program : Given} (h : Asks words i name rest specs command program) :
    i.dryRun = true ↔ dryRunWord ∈ words := by
  rw [h.dryRun, Given.isSome_value?]
  constructor
  · intro mem
    by_cases present : dryRunWord ∈ rest
    · obtain ⟨used, rfl, -⟩ := h.read.front
      simp [present]
    · exact absurd mem (h.options.not_mem_keys h.named.flag present (by simp [Given.keys]))
  · intro present
    have unknown : ¬∃ s ∈ programOptions, s.key = dryRunKey := by decide
    have other : name ≠ dryRunWord := by cases h.named <;> decide
    have later := (h.read.mem_keys dryRunFlag_program (.inl present)).resolve_left
      fun known => unknown known.2
    rw [List.mem_cons] at later
    have here := h.options.mem_keys h.named.flag (.inl (later.resolve_left other.symm))
    exact (here.resolve_right (by simp)).1

end Requests

end TypedDecl.CommandLine
