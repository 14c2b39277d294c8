import TypedDecl.CommandLine.Command

namespace TypedDecl.CommandLine

def Given.keys (given : Given) : List String := given.map Prod.fst

theorem Given.keys_append (a b : Given) : Given.keys (a ++ b) = a.keys ++ b.keys := List.map_append

/-- What options add and the words that they take for values, when such options are given already.
Other ones can make it fail only if they hold what is added. -/
structure Takes (f : Given → List String → Progress) (given added : Given) (used : List String) :
    Prop where
  values : ∀ w ∈ used, isValue w = true
  single : used.length ≤ 1
  needs : used ≠ [] → ∀ {g w r g' r'}, isValue w = false → f g (w :: r) ≠ .more g' r'
  same : ∀ {g r g' r'}, f g (used ++ r) = .more g' r' → g' = g ++ added ∧ r' = r
  fits : ∀ {g r}, (∀ k ∈ added.keys, k ∈ g.keys → k ∈ given.keys) →
    f g (used ++ r) = .more (g ++ added) r

/-- The words in front of `r` are taken by the options, which add what is in `g`. -/
def Steps (f : Given → List String → Progress) (given : Given) (rest : List String) (g : Given)
    (r : List String) : Prop :=
  ∃ added used, rest = used ++ r ∧ g = given ++ added ∧ Takes f given added used

theorem note_eq_more {spec : OptionSpec} {value : String} {given g : Given}
    {rest r : List String} :
    note spec value given rest = .more g r ↔
      ((spec.repeats = true ∨ spec.key ∉ given.keys) ∧
        (spec.accepts.all fun ok => ok value) = true ∧
          spec.key ≠ versionKey ∧ spec.key ≠ helpKey) ∧
        g = given ++ [(spec.key, value)] ∧ r = rest := by
  have keys : given.any (·.1 = spec.key) = true ↔ spec.key ∈ given.keys := by
    simp [Given.keys]
  rw [← keys]
  unfold note
  cases spec.repeats <;> cases given.any (·.1 = spec.key) <;>
    cases (spec.accepts.all fun ok => ok value) <;> by_cases version : spec.key = versionKey <;>
    by_cases help : spec.key = helpKey <;> simp [version, help, eq_comm]

theorem takes_note {spec : OptionSpec} {value : String} {given g : Given} {rest r : List String}
    (h : note spec value given rest = .more g r) :
    Takes (note spec value) given [(spec.key, value)] [] := by
  obtain ⟨⟨once, accepted, other⟩, -⟩ := note_eq_more.mp h
  refine ⟨by simp, by simp, by simp, fun h => (note_eq_more.mp h).2, fun {g r} fits => ?_⟩
  refine note_eq_more.mpr ⟨⟨once.imp_right fun fresh mem => fresh ?_, accepted, other⟩, rfl, rfl⟩
  exact fits _ (by simp [Given.keys]) mem

theorem steps_note {spec : OptionSpec} {value : String} {given g : Given} {rest r : List String}
    (h : note spec value given rest = .more g r) : Steps (note spec value) given rest g r := by
  obtain ⟨-, rfl, rfl⟩ := note_eq_more.mp h
  exact ⟨_, [], rfl, rfl, takes_note h⟩

theorem steps_noteNext {spec : OptionSpec} {given g : Given} {rest r : List String}
    (h : noteNext spec given rest = .more g r) : Steps (noteNext spec) given rest g r := by
  cases rest with
  | nil => cases h
  | cons v rest =>
    rw [noteNext] at h
    split at h
    · next value =>
      obtain ⟨-, rfl, rfl⟩ := note_eq_more.mp h
      have taken := takes_note h
      have next (g : Given) (r : List String) : noteNext spec g ([v] ++ r) = note spec v g r :=
        if_pos value
      refine ⟨_, [v], rfl, rfl, by simpa using value, by simp, fun _ g w r g' r' no done => ?_, ?_, ?_⟩
      · rw [noteNext, no] at done
        cases done
      · intro g r g' r' done
        rw [next] at done
        exact taken.same done
      · intro g r fits
        rw [next]
        exact taken.fits fits
    · cases h

theorem steps_longOption {specs : List OptionSpec} {word : List Char} {given g : Given}
    {rest r : List String} (h : longOption specs word given rest = .more g r) :
    Steps (longOption specs word) given rest g r := by
  cases found : specs.find? fun s => s.hasLong && s.key = String.ofList (word.takeWhile (· ≠ '='))
    with
  | none =>
    simp only [longOption, found] at h
    cases h
  | some spec =>
    cases value : word.dropWhile (· ≠ '=') <;> cases accepts : spec.accepts
    · have same : longOption specs word = note spec "" := by
        funext g r
        simp only [longOption, found, value, accepts]
      rw [same] at h ⊢
      exact steps_note h
    · have same : longOption specs word = noteNext spec := by
        funext g r
        simp only [longOption, found, value, accepts]
      rw [same] at h ⊢
      exact steps_noteNext h
    · simp only [longOption, found, value, accepts] at h
      cases h
    · next sign text _ =>
      have same : longOption specs word = note spec (String.ofList text) := by
        funext g r
        simp only [longOption, found, value, accepts]
      rw [same] at h ⊢
      exact steps_note h

/-- Options after a flag that shares their hyphen. -/
def andThen (f next : Given → List String → Progress) (given : Given) (rest : List String) :
    Progress :=
  match f given rest with
  | .more given rest => next given rest
  | p => p

theorem andThen_eq_more {f next : Given → List String → Progress} {given g : Given}
    {rest r : List String} :
    andThen f next given rest = .more g r ↔
      ∃ g₁ r₁, f given rest = .more g₁ r₁ ∧ next g₁ r₁ = .more g r := by
  unfold andThen
  cases f given rest with
  | more g₁ r₁ =>
    exact ⟨fun h => ⟨g₁, r₁, rfl, h⟩, by rintro ⟨_, _, ⟨⟩, h⟩; exact h⟩
  | _ => simp

theorem steps_andThen {spec : OptionSpec} {value : String}
    {next : Given → List String → Progress} {given g : Given} {rest r : List String}
    (later : ∀ {given}, next given rest = .more g r → Steps next given rest g r)
    (h : andThen (note spec value) next given rest = .more g r) :
    Steps (andThen (note spec value) next) given rest g r := by
  obtain ⟨g₁, r₁, first, last⟩ := andThen_eq_more.mp h
  have flag := takes_note first
  obtain ⟨-, rfl, rfl⟩ := note_eq_more.mp first
  obtain ⟨added, used, rfl, rfl, taken⟩ := later last
  refine ⟨(spec.key, value) :: added, used, rfl, by simp, taken.values, taken.single, ?_, ?_, ?_⟩
  · intro wants g w r g' r' no done
    obtain ⟨g₁, r₁, first, last⟩ := andThen_eq_more.mp done
    obtain ⟨-, rfl, rfl⟩ := note_eq_more.mp first
    exact taken.needs wants no last
  · intro g r g' r' done
    obtain ⟨g₁, r₁, first, last⟩ := andThen_eq_more.mp done
    obtain ⟨-, rfl, rfl⟩ := note_eq_more.mp first
    obtain ⟨rfl, rfl⟩ := taken.same last
    simp
  · intro g r fits
    have noted := flag.fits (r := used ++ r) fun k hk mem =>
      fits k (List.mem_singleton.mp hk ▸ List.mem_cons_self) mem
    refine andThen_eq_more.mpr ⟨_, _, noted, ?_⟩
    have more := taken.fits (g := g ++ [(spec.key, value)]) (r := r) fun k hk mem => by
      rw [Given.keys_append, List.mem_append] at mem ⊢
      exact mem.imp_left (fits k (List.mem_cons_of_mem _ hk))
    simpa using more

theorem steps_shortOptions {specs : List OptionSpec} {cs : List Char} {given g : Given}
    {rest r : List String} (h : shortOptions specs cs given rest = .more g r) :
    Steps (shortOptions specs cs) given rest g r := by
  induction cs generalizing given with
  | nil =>
    cases h
    refine ⟨[], [], rfl, by simp, by simp, by simp, by simp, ?_, ?_⟩
    · intro g r g' r' done
      cases done
      simp
    · intro g r _
      simp [shortOptions]
  | cons c cs ih =>
    cases found : specs.find? fun s => s.short = some c with
    | none =>
      simp only [shortOptions, found] at h
      cases h
    | some spec =>
      cases accepts : spec.accepts with
      | none =>
        have same : shortOptions specs (c :: cs) = andThen (note spec "") (shortOptions specs cs) := by
          funext g r
          cases flag : note spec "" g r <;> simp only [shortOptions, found, accepts, andThen, flag]
        rw [same] at h ⊢
        exact steps_andThen ih h
      | some ok =>
        have value : shortOptions specs (c :: cs) = noteNext spec ∨
            ∃ text, shortOptions specs (c :: cs) = note spec text := by
          rcases cs with _ | ⟨d, cs⟩
          · exact .inl (by funext g r; simp only [shortOptions, found, accepts])
          · by_cases sign : d = '='
            · subst sign
              exact .inr ⟨String.ofList cs, by funext g r; simp only [shortOptions, found, accepts]⟩
            · refine .inr ⟨String.ofList (d :: cs), ?_⟩
              funext g r
              simp only [shortOptions, found, accepts]
              split <;> simp_all
        rcases value with same | ⟨text, same⟩
        · rw [same] at h ⊢
          exact steps_noteNext h
        · rw [same] at h ⊢
          exact steps_note h

end TypedDecl.CommandLine
