import TypedDecl.Descriptions
import TypedDecl.Proofs.Dictionaries

namespace TypedDecl.Descriptions

variable {α : Type} {name : α → String} {entries : List (α × Option String)}
  {e : α × Option String} {value : α} {said : String}

/-- What an entry tells of its value: a description, or else the name. -/
def sayingOf (name : α → String) (e : α × Option String) : String := e.2.getD (name e.1)

/-- An entry tells this of another value, and none behind it tells it of this one. -/
def Overtaken (name : α → String) (entries : List (α × Option String)) (value : α)
    (said : String) : Prop :=
  ∃ before e after, entries = before ++ e :: after ∧ e.1 ≠ value ∧ sayingOf name e = said ∧
    ∀ x ∈ after, x.1 = value → sayingOf name x ≠ said

/-- An entry tells this of the value and none behind it tells it again, but one behind it is for the
value. -/
def Stale (name : α → String) (entries : List (α × Option String)) (value : α)
    (said : String) : Prop :=
  ∃ before e after, entries = before ++ e :: after ∧ e.1 = value ∧ sayingOf name e = said ∧
    (∃ x ∈ after, x.1 = value) ∧ ∀ x ∈ after, sayingOf name x ≠ said

variable [DecidableEq α]

theorem texts_ofEntries :
    (ofEntries name entries).texts = Dictionary.empty.fill Prod.fst (sayingOf name) entries :=
  (List.foldl_hom Descriptions.texts fun _ _ => rfl).symm

theorem values_ofEntries :
    (ofEntries name entries).values = Dictionary.empty.fill (sayingOf name) Prod.fst entries :=
  (List.foldl_hom Descriptions.values fun _ _ => rfl).symm

theorem describe_of_last (h : IsLast (·.1 = value) entries e) :
    (ofEntries name entries).describe name value = sayingOf name e := by
  have found : (ofEntries name entries).texts.get? value = some (sayingOf name e) := by
    rw [texts_ofEntries, Dictionary.get?_fill]
    exact .inl ⟨e, h, rfl⟩
  rw [describe, found, Option.getD_some]

theorem describe_of_none (h : ∀ e ∈ entries, e.1 ≠ value) :
    (ofEntries name entries).describe name value = name value := by
  have missing : (ofEntries name entries).texts.get? value = none := by
    rw [Option.eq_none_iff_forall_not_mem]
    intro t found
    rw [texts_ofEntries, Option.mem_def, Dictionary.get?_fill] at found
    rcases found with ⟨e, last, -⟩ | ⟨-, found⟩
    · exact h e last.mem last.has
    · cases found
  rw [describe, missing, Option.getD_none]

theorem parse_eq_ok : (ofEntries name entries).parse said = .ok value ↔
    ∃ e, IsLast (sayingOf name · = said) entries e ∧ e.1 = value := by
  have none_before : (Dictionary.empty : Dictionary String α).get? said = none := rfl
  have found : (ofEntries name entries).find? said = some value ↔
      ∃ e, IsLast (sayingOf name · = said) entries e ∧ e.1 = value := by
    rw [find?, values_ofEntries, Dictionary.get?_fill, none_before]
    simp
  rw [← found, parse]
  cases (ofEntries name entries).find? said <;> simp

theorem parse_eq_error : (ofEntries name entries).parse said = .error (.notFound said) ↔
    ∀ e ∈ entries, sayingOf name e ≠ said := by
  have failed : (ofEntries name entries).parse said = .error (.notFound said) ↔
      ∀ value, (ofEntries name entries).parse said ≠ .ok value := by
    rw [parse]
    cases (ofEntries name entries).find? said <;> simp
  rw [failed]
  constructor
  · intro h e mem own
    obtain ⟨x, last⟩ := exists_isLast (p := (sayingOf name · = said)) ⟨e, mem, own⟩
    exact h x.1 (parse_eq_ok.mpr ⟨x, last, rfl⟩)
  · intro h value found
    obtain ⟨e, last, -⟩ := parse_eq_ok.mp found
    exact h e last.mem last.has

theorem size_ofEntries :
    (ofEntries name entries).size = (entries.map Prod.fst).toFinset.card := by
  rw [size, texts_ofEntries, Dictionary.size_fill_empty]

/-- A value is found by what an entry tells of it, unless it was overtaken. -/
theorem parse_eq_ok_iff_not_overtaken (mem : e ∈ entries) (own : e.1 = value)
    (told : sayingOf name e = said) :
    (ofEntries name entries).parse said = .ok value ↔ ¬ Overtaken name entries value said := by
  rw [parse_eq_ok]
  constructor
  · rintro ⟨x, last, rfl⟩ ⟨before, y, after, rfl, other, told', behind⟩
    obtain ⟨z, last'⟩ :=
      exists_isLast (p := (sayingOf name · = said)) ⟨y, List.mem_cons_self (l := after), told'⟩
    cases last.unique last'.append
    rcases List.mem_cons.mp last'.mem with rfl | later
    · exact other rfl
    · exact behind x later rfl last'.has
  · intro kept
    obtain ⟨x, last⟩ := exists_isLast (p := (sayingOf name · = said)) ⟨e, mem, told⟩
    refine ⟨x, last, ?_⟩
    by_contra other
    obtain ⟨before, after, split, told', none⟩ := last
    exact kept ⟨before, x, after, split, other, told', fun z behind _ => none z behind⟩

/-- A value is described as the last entry for it tells, and one that no entry is for by its name. A
text finds the value of the last entry that tells it, and one that no entry tells finds nothing.
There are as many values as the entries have different ones; and each of them is found by its
description, unless an entry for another value tells the same behind all its own that tell it. -/
theorem ofEntries_both_ways (name : α → String) (entries : List (α × Option String)) :
    (∀ value e, IsLast (·.1 = value) entries e →
      (ofEntries name entries).describe name value = sayingOf name e) ∧
    (∀ value, value ∉ entries.map Prod.fst →
      (ofEntries name entries).describe name value = name value) ∧
    (∀ said value, (ofEntries name entries).parse said = .ok value ↔
      ∃ e, IsLast (sayingOf name · = said) entries e ∧ e.1 = value) ∧
    (∀ said, (ofEntries name entries).parse said = .error (.notFound said) ↔
      said ∉ entries.map (sayingOf name)) ∧
    (ofEntries name entries).size = (entries.map Prod.fst).toFinset.card ∧
    ∀ value ∈ entries.map Prod.fst,
      (ofEntries name entries).parse ((ofEntries name entries).describe name value) = .ok value ↔
        ¬ Overtaken name entries value ((ofEntries name entries).describe name value) := by
  refine ⟨fun _ _ => describe_of_last, ?_, fun _ _ => parse_eq_ok, ?_, size_ofEntries, ?_⟩
  · intro value missing
    exact describe_of_none fun e mem own => missing (List.mem_map.mpr ⟨e, mem, own⟩)
  · intro said
    rw [parse_eq_error, List.mem_map, not_exists]
    simp only [not_and]
  · intro value mem
    obtain ⟨e, mem, own⟩ := List.mem_map.mp mem
    obtain ⟨x, last⟩ := exists_isLast (p := (·.1 = value)) ⟨e, mem, own⟩
    exact parse_eq_ok_iff_not_overtaken last.mem last.has (describe_of_last last).symm

/-- Red is described anew and found by both descriptions; green's name was given to blue. -/
theorem both_ways_of_repeated_entries :
    let entries : List (String × Option String) :=
      [("red", some "warm"), ("green", none), ("red", some "signal"), ("blue", some "green")]
    let d := ofEntries id entries
    d.describe id "red" = "signal" ∧ d.describe id "white" = "white" ∧
      d.parse "warm" = .ok "red" ∧ d.parse "white" = .error (.notFound "white") ∧ d.size = 3 ∧
      d.parse (d.describe id "red") = .ok "red" ∧
      d.parse (d.describe id "green") ≠ .ok "green" := by
  intro entries d
  obtain ⟨described, names, found, missing, size, back⟩ := ofEntries_both_ways id entries
  have red : d.describe id "red" = "signal" :=
    described "red" ("red", some "signal")
      ⟨[("red", some "warm"), ("green", none)], [("blue", some "green")], rfl, rfl, by decide⟩
  have green : d.describe id "green" = "green" :=
    described "green" ("green", none)
      ⟨[("red", some "warm")], [("red", some "signal"), ("blue", some "green")], rfl, rfl,
        by decide⟩
  have kept : ¬ Overtaken id entries "red" "signal" := by
    rintro ⟨before, e, after, split, other, told, -⟩
    have signals : ∀ e ∈ entries, sayingOf id e = "signal" → e.1 = "red" := by decide
    exact other (signals e (split ▸ List.mem_append_right before List.mem_cons_self) told)
  have overtaken : Overtaken id entries "green" "green" :=
    ⟨[("red", some "warm"), ("green", none), ("red", some "signal")], ("blue", some "green"), [],
      rfl, by decide, rfl, nofun⟩
  refine ⟨red, names "white" (by decide), ?_, (missing "white").mpr (by decide), ?_, ?_, ?_⟩
  · exact (found "warm" "red").mpr ⟨("red", some "warm"),
      ⟨[], [("green", none), ("red", some "signal"), ("blue", some "green")], rfl, rfl, by decide⟩,
      rfl⟩
  · rw [size]
    decide
  · exact (back "red" (by decide)).mpr (red ▸ kept)
  · exact fun same => (back "green" (by decide)).mp same (green ▸ overtaken)

/-- A text finds a value that is described in another way exactly if the text is stale. -/
theorem describe_of_parse_iff (name : α → String) (entries : List (α × Option String))
    (said : String) (value : α) :
    ((ofEntries name entries).parse said = .ok value →
        (ofEntries name entries).describe name value = said) ↔
      ¬ Stale name entries value said := by
  rw [parse_eq_ok]
  constructor
  · rintro agree ⟨before, e, after, rfl, rfl, told, later, none⟩
    have described := agree ⟨e, ⟨before, after, rfl, told, none⟩, rfl⟩
    obtain ⟨x, last⟩ := exists_isLast later
    have anew : IsLast (·.1 = e.1) (before ++ e :: after) x :=
      .append (isLast_cons.mpr (.inl last))
    rw [describe_of_last anew] at described
    exact none x last.mem described
  · rintro fresh ⟨e, ⟨before, after, split, told, none⟩, rfl⟩
    have last : IsLast (·.1 = e.1) entries e := by
      refine ⟨before, after, split, rfl, fun x mem own => ?_⟩
      exact fresh ⟨before, e, after, split, rfl, told, ⟨x, mem, own⟩, none⟩
    rw [describe_of_last last, told]

/-- What a value was described as before still finds it. -/
theorem parse_of_replaced_description :
    let d := ofEntries id [("red", some "warm"), ("red", some "signal")]
    ¬ (d.parse "warm" = .ok "red" → d.describe id "red" = "warm") := by
  decide

end TypedDecl.Descriptions
