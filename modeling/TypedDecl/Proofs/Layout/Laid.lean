import TypedDecl.Code.Item.Layout

namespace TypedDecl.Layout

/-- All that the pieces stand for has a layout. -/
def Laid (ps : List Piece) : Prop := .unknown ∉ ps

variable {p : Piece} {ps qs sep lead : List Piece} {rows : List (List Piece)}

@[simp] theorem laid_nil : Laid [] := List.not_mem_nil

@[simp] theorem laid_cons : Laid (p :: ps) ↔ p ≠ .unknown ∧ Laid ps := by
  simp [Laid, eq_comm]

@[simp] theorem laid_append : Laid (ps ++ qs) ↔ Laid ps ∧ Laid qs := by
  simp [Laid]

@[simp] theorem laid_words (s : String) : Laid (words s) := by simp [words]

@[simp] theorem laid_group (shift : Int) (all : Bool) : Laid (group shift all ps) ↔ Laid ps := by
  simp [group]

@[simp] theorem spaces_ne (n : Nat) : Piece.spaces n ≠ .unknown := nofun

@[simp] theorem zero_ne : Piece.zero ≠ .unknown := nofun

@[simp] theorem space_ne : Piece.space ≠ .unknown := nofun

@[simp] theorem line_ne : Piece.line ≠ .unknown := nofun

@[simp] theorem stay_ne : Piece.stay ≠ .unknown := nofun

@[simp] theorem lastComma_ne (n : Nat) : Piece.lastComma n ≠ .unknown := nofun

@[simp] theorem outdented_ne : p.outdented ≠ .unknown ↔ p ≠ .unknown := by
  cases p <;> simp [Piece.outdented]

theorem laid_comma : Laid [.text ",", .space] := by simp

theorem laid_flatten (h : ∀ row ∈ rows, Laid row) : Laid rows.flatten := by
  intro held
  obtain ⟨row, mem, unknown⟩ := List.mem_flatten.mp held
  exact h row mem unknown

theorem laid_between (inside : Laid sep) (h : ∀ row ∈ rows, Laid row) : Laid (between sep rows) := by
  induction rows with
  | nil => exact laid_nil
  | cons row rows ih =>
    obtain ⟨first, others⟩ := List.forall_mem_cons.mp h
    have after := ih others
    cases rows with
    | nil => simpa [between] using first
    | cons next rows =>
      have step : between sep (row :: next :: rows) = row ++ (sep ++ between sep (next :: rows)) := by
        simp [between]
      rw [step, laid_append, laid_append]
      exact ⟨first, inside, after⟩

theorem laid_outdentLast (h : Laid ps) : Laid (outdentLast ps) := by
  fun_induction outdentLast ps with
  | case1 => exact h
  | case2 p =>
    rw [laid_cons] at h
    exact laid_cons.mpr ⟨outdented_ne.mpr h.1, laid_nil⟩
  | case3 p ps some_piece ih =>
    rw [laid_cons] at h
    exact laid_cons.mpr ⟨h.1, ih h.2⟩

theorem laid_lines (begun : Laid lead) (h : ∀ row ∈ rows, Laid row) : Laid (lines lead rows) := by
  have ended : Laid (rows.flatMap (· ++ [.line])) := by
    refine laid_flatten fun row mem => ?_
    obtain ⟨item, here, rfl⟩ := List.mem_map.mp mem
    simpa using h item here
  exact laid_outdentLast (by simp [begun, ended])

theorem laid_braced (begun : Laid lead) (h : ∀ row ∈ rows, Laid row) : Laid (braced lead rows) := by
  rw [braced, laid_cons]
  refine ⟨by simp, ?_⟩
  split
  · simp
  · exact laid_lines begun h

theorem laid_commaList (h : ∀ row ∈ rows, Laid row) : Laid (commaList rows) := by
  unfold commaList
  split
  · exact laid_nil
  · simp [laid_between laid_comma h]

end TypedDecl.Layout
