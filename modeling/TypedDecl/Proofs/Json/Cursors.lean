import TypedDecl.Proofs.Json.Texts

namespace TypedDecl.Json.Cursor

variable {c c' c'' : Cursor} {ch : Char} {t u : List Char}

@[simp] theorem rest_next (c : Cursor) : c.next.rest = c.rest.drop 1 := by
  unfold next
  split <;> simp [*]

@[simp] theorem rest_skip (n : Nat) (c : Cursor) : (c.skip n).rest = c.rest.drop n := by
  induction n generalizing c with
  | zero => rfl
  | succ n ih => rw [skip, ih, rest_next, List.drop_drop, Nat.add_comm]

theorem skip_add (m n : Nat) (c : Cursor) : c.skip (m + n) = (c.skip m).skip n := by
  induction m generalizing c with
  | zero => rw [Nat.zero_add, skip]
  | succ m ih => rw [Nat.succ_add, skip, ih, skip]

/-- From one place to the other is this text. -/
structure Passes (c : Cursor) (t : List Char) (c' : Cursor) : Prop where
  rest : c.rest = t ++ c'.rest
  place : c.skip t.length = c'

theorem passes_of_rest {r : List Char} (h : c.rest = t ++ r) : Passes c t (c.skip t.length) :=
  ⟨by rw [rest_skip, h, List.drop_left], rfl⟩

theorem passes_nil : Passes c [] c' ↔ c = c' := by
  constructor
  · rintro ⟨-, rfl⟩
    rfl
  · rintro rfl
    exact ⟨rfl, rfl⟩

theorem passes_append : Passes c (t ++ u) c'' ↔ ∃ c', Passes c t c' ∧ Passes c' u c'' := by
  constructor
  · rintro ⟨rest, rfl⟩
    rw [List.append_assoc] at rest
    have first := passes_of_rest rest
    refine ⟨c.skip t.length, first, ?_, ?_⟩
    · exact List.append_cancel_left (first.rest.symm.trans rest)
    · rw [List.length_append, skip_add]
  · rintro ⟨c', ⟨rest, rfl⟩, ⟨rest', rfl⟩⟩
    refine ⟨by rw [rest, rest', List.append_assoc], ?_⟩
    rw [List.length_append, skip_add]

theorem passes_cons : Passes c (ch :: t) c' ↔ c.peek? = some ch ∧ Passes c.next t c' := by
  constructor
  · rintro ⟨rest, rfl⟩
    exact ⟨by rw [peek?, rest]; rfl, ⟨by rw [rest_next, rest]; rfl, rfl⟩⟩
  · rintro ⟨first, rest, rfl⟩
    obtain ⟨r, own⟩ := List.head?_eq_some_iff.mp first
    rw [rest_next, own] at rest
    exact ⟨by rw [own]; exact congrArg (ch :: ·) rest, rfl⟩

theorem Passes.length (h : Passes c t c') : c.rest.length = t.length + c'.rest.length := by
  rw [h.rest, List.length_append]

section Blanks

theorem isBlank_iff : isBlank ch = true ↔ ch = ' ' ∨ ch = '\n' ∨ ch = '\t' ∨ ch = '\r' := by
  simp [isBlank, or_assoc]

/-- No blank is next. -/
def Solid (c : Cursor) : Prop := ∀ ch, c.peek? = some ch → isBlank ch = false

theorem skipBlanks_of_solid (solid : c.Solid) : c.skipBlanks = c := by
  have none : c.rest.takeWhile isBlank = [] := by
    cases h : c.rest with
    | nil => rfl
    | cons ch r =>
      have last := solid ch (by rw [peek?, h]; rfl)
      rw [List.takeWhile_cons, if_neg (by simp [last])]
  rw [skipBlanks, none, List.length_nil, skip]

theorem skipBlanks_next (blank : c.peek? = some ch) (own : isBlank ch = true) :
    c.skipBlanks = c.next.skipBlanks := by
  obtain ⟨r, rest⟩ := List.head?_eq_some_iff.mp blank
  rw [skipBlanks, skipBlanks, rest_next, rest, List.takeWhile_cons, if_pos own, List.length_cons,
    skip]
  rfl

theorem skipBlanks_passes (blank : Blank t) (h : Passes c t c') : c.skipBlanks = c'.skipBlanks := by
  induction t generalizing c with
  | nil => rw [passes_nil.mp h]
  | cons ch t ih =>
    obtain ⟨first, h⟩ := passes_cons.mp h
    have own := isBlank_iff.mpr (blank ch List.mem_cons_self)
    rw [skipBlanks_next first own]
    exact ih (fun ch mem => blank ch (List.mem_cons_of_mem _ mem)) h

/-- Past the blanks, to what stands behind them. -/
theorem skipBlanks_eq (blank : Blank t) (h : Passes c t c') (solid : c'.Solid) :
    c.skipBlanks = c' := by
  rw [skipBlanks_passes blank h, skipBlanks_of_solid solid]

theorem length_skipBlanks_le (c : Cursor) : c.skipBlanks.rest.length ≤ c.rest.length := by
  rw [skipBlanks, rest_skip, List.length_drop]
  exact Nat.sub_le _ _

theorem length_next_skipBlanks (first : c.skipBlanks.peek? = some ch) :
    c.skipBlanks.next.rest.length < c.rest.length := by
  obtain ⟨r, own⟩ := List.head?_eq_some_iff.mp first
  have shorter := c.length_skipBlanks_le
  rw [own, List.length_cons] at shorter
  rw [rest_next, own]
  exact shorter

/-- Behind the blanks is what is none. -/
theorem skipBlanks_cons (blank : Blank u) (p : Passes c (u ++ ch :: t) c')
    (own : isBlank ch = false) : c.skipBlanks.peek? = some ch ∧ Passes c.skipBlanks.next t c' := by
  obtain ⟨mid, before, behind⟩ := passes_append.mp p
  have solid : mid.Solid := by
    intro l first
    rw [(passes_cons.mp behind).1] at first
    exact Option.some.inj first ▸ own
  rw [skipBlanks_eq blank before solid]
  exact passes_cons.mp behind

theorem solid_skipBlanks (c : Cursor) : c.skipBlanks.Solid := by
  intro ch first
  have split := (List.takeWhile_append_dropWhile (p := isBlank) (l := c.rest)).symm
  have rest : c.skipBlanks.rest = c.rest.dropWhile isBlank :=
    List.append_cancel_left ((passes_of_rest split).rest.symm.trans split)
  have stop := List.head?_dropWhile_not isBlank c.rest
  rw [← rest, ← peek?, first] at stop
  exact stop

theorem skipBlanks_skipBlanks (c : Cursor) : c.skipBlanks.skipBlanks = c.skipBlanks :=
  skipBlanks_of_solid (solid_skipBlanks c)

end Blanks

end TypedDecl.Json.Cursor

namespace TypedDecl.Json

variable {α β : Type} {c c' : Cursor} {o : Option α} {r : Except Failure (α × Cursor)}

/-- What is there is read, up to this place; if there is nothing, the reader fails. -/
def Gives (r : Except Failure (α × Cursor)) (o : Option α) (c : Cursor) : Prop :=
  match o with
  | some a => r = .ok (a, c)
  | none => ∃ e, r = .error e

theorem Gives.bind {f : α × Cursor → Except Failure (β × Cursor)} {g : α → Option β}
    (h : Gives r o c) (next : ∀ a, o = some a → Gives (f (a, c)) (g a) c') :
    Gives (r >>= f) (o.bind g) c' := by
  cases o with
  | none =>
    obtain ⟨e, rfl⟩ := h
    exact ⟨e, rfl⟩
  | some a =>
    cases (show r = .ok (a, c) from h)
    exact next a rfl

theorem Gives.map (f : α → β) (h : Gives r o c) :
    Gives (r >>= fun (a, c) => pure (f a, c)) (o.map f) c := by
  cases o with
  | none =>
    obtain ⟨e, rfl⟩ := h
    exact ⟨e, rfl⟩
  | some a =>
    cases (show r = .ok (a, c) from h)
    rfl

end TypedDecl.Json
