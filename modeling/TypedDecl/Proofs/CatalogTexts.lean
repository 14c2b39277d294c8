import TypedDecl.Catalog.Export
import TypedDecl.Proofs.Json.Skipping

namespace TypedDecl

namespace Json.Value

def text? : Value → Option String
  | text s => s
  | _ => none

end Json.Value

namespace Catalog

open Json (Value Items Others Begins Blank Gives Failure Cursor Bracket skipColon
  skipColon_passes skipValue_written string_means)
open Json.Cursor (Passes passes_cons passes_append passes_nil skipBlanks_cons)

section Values

/-- The fields after another one: it must be a text and new, unless it is no field of a column. -/
def take? (p : PartialColumn) (key : String) (v : Value) : Option PartialColumn :=
  match p.get? key with
  | some (some _) => none
  | some none => v.text?.map (p.set key)
  | none => some p

def gather? : PartialColumn → List (Option String × Value) → Option Column
  | p, [] => p.complete.toOption
  | p, (name, v) :: members =>
    name.bind fun key => (take? p key v).bind fun p => gather? p members

/-- So many texts and no more. -/
def texts? : Nat → List Value → Option (List String)
  | 0, [] => some []
  | n + 1, v :: vs => v.text?.bind fun s => (texts? n vs).map (s :: ·)
  | _, _ => none

def column? : Value → Option Column
  | .list elements =>
    (texts? 4 elements).bind fun
      | [schema, table, column, native] => some ⟨schema, table, column, native⟩
      | _ => none
  | .object members => gather? .empty members
  | _ => none

def columns? : Value → Option (List Column)
  | .list elements => elements.mapM column?
  | _ => none

end Values

variable {c c' : Cursor} {t b : List Char} {more : Nat} {v : Value}

section Texts

theorem wrongType_fails {α : Type} (more : Nat) (expected : String) (c : Cursor) :
    ∃ e, wrongType (α := α) more expected c = .error e := by
  have after {β : Type} (r : Except Failure β) (f : β → Except Failure α)
      (fails : ∀ a, ∃ e, f a = .error e) : ∃ e, (r >>= f) = .error e := by
    cases r with
    | error e => exact ⟨e, rfl⟩
    | ok a => exact fails a
  unfold wrongType
  split
  case h_8 =>
    split
    · exact after _ _ fun a => ⟨_, rfl⟩
    · exact ⟨_, rfl⟩
  all_goals first
    | exact ⟨_, rfl⟩
    | exact after _ _ fun a => ⟨_, rfl⟩

/-- A value that is no text is refused. -/
theorem textValue_written (w : v.Written t) (p : Passes c.skipBlanks t c')
    (steps : c.rest.length < more) : Gives (textValue more c) v.text? c' := by
  have other (first : c.skipBlanks.peek? ≠ some '"') : Gives (textValue more c) none c' := by
    rw [textValue, if_neg first]
    exact wrongType_fails more _ _
  cases w with
  | @text s t means =>
    have le := c.length_skipBlanks_le
    have length := p.length
    simp only [List.length_cons, List.length_append] at length
    obtain ⟨quote, p⟩ := passes_cons.mp p
    rw [textValue, if_pos quote]
    exact string_means means (by omega) p
  | unsigned digits => exact other (digits.peek_ne p rfl)
  | _ =>
    refine other ?_
    rw [(passes_cons.mp p).1]
    decide

end Texts

section Items

/-- What is still to come inside a bracket: items, each but the first one behind a comma. -/
def Pending (first : Bool) (xs : List (List Char)) (t : List Char) : Prop :=
  match first with
  | true => Items xs t
  | false => Others xs t

variable {first : Bool} {x u : List Char} {xs : List (List Char)} {k : Bracket}

theorem Pending.nil (h : Pending first [] t) : Blank t := by
  cases first with
  | true => cases h; assumption
  | false => cases h; assumption

theorem nextItem_nil (h : Pending first [] t) (p : Passes c (t ++ [']']) c') :
    ∃ last, nextItem first c = .ok (false, last) ∧ last.next = c' := by
  obtain ⟨bracket, place⟩ := skipBlanks_cons h.nil p rfl
  exact ⟨c.skipBlanks, by simp only [nextItem, bracket], passes_nil.mp place⟩

theorem nextItem_cons (h : Pending first (x :: xs) t) (begins : Begins x)
    (p : Passes c (t ++ [']']) c') :
    ∃ start mid r, nextItem first c = .ok (true, start) ∧ start.rest.length ≤ c.rest.length ∧
      Passes start.skipBlanks x mid ∧ Others xs r ∧ Passes mid (r ++ [']']) c' := by
  have le := c.length_skipBlanks_le
  cases first with
  | true =>
    obtain ⟨ch, mid, r, first, other, front, rest, back⟩ := h.passes begins p
    refine ⟨c.skipBlanks, mid, r, ?_, le, ?_, rest, back⟩
    · rw [nextItem, first]
      split
      · simp_all
      · simp_all
      · rfl
    · rwa [Cursor.skipBlanks_skipBlanks]
  | false =>
    obtain ⟨comma, ch, mid, r, first, other, front, rest, back⟩ := h.passes begins p
    have shorter := c.length_next_skipBlanks comma
    have le' := c.skipBlanks.next.length_skipBlanks_le
    refine ⟨c.skipBlanks.next.skipBlanks, mid, r, ?_, by omega, ?_, rest, back⟩
    · simp only [nextItem, comma, Bool.false_eq_true, if_false, first]
      split
      · simp_all
      · simp_all
      · rename_i same
        cases same
        rw [if_pos rfl]
        split
        · simp_all
        · simp_all
        · rfl
    · rwa [Cursor.skipBlanks_skipBlanks]

theorem nextKey_nil (h : Pending first [] t) (p : Passes c (t ++ ['\x7d']) c') :
    ∃ last, nextKey first c = .ok (false, last) ∧ last.next = c' := by
  obtain ⟨brace, place⟩ := skipBlanks_cons h.nil p rfl
  exact ⟨c.skipBlanks, by simp only [nextKey, brace], passes_nil.mp place⟩

theorem nextKey_cons {m : Json.Member} (h : Pending first (m.written :: xs) t)
    (p : Passes c (t ++ ['\x7d']) c') :
    ∃ start mid r, nextKey first c = .ok (true, start) ∧ start.rest.length < c.rest.length ∧
      Passes start (m.key ++ '"' :: (m.before ++ ':' :: (m.behind ++ m.text))) mid ∧
      Others xs r ∧ Passes mid (r ++ ['\x7d']) c' := by
  cases first with
  | true =>
    obtain ⟨-, mid, r, -, -, front, rest, back⟩ := h.passes m.begins p
    obtain ⟨quote, front⟩ := passes_cons.mp front
    have shorter := c.length_next_skipBlanks quote
    refine ⟨c.skipBlanks.next, mid, r, ?_, shorter, front, rest, back⟩
    rw [nextKey, quote]
    rfl
  | false =>
    obtain ⟨comma, -, mid, r, -, -, front, rest, back⟩ := h.passes m.begins p
    obtain ⟨quote, front⟩ := passes_cons.mp front
    have shorter := c.length_next_skipBlanks comma
    have shorter' := c.skipBlanks.next.length_next_skipBlanks quote
    refine ⟨c.skipBlanks.next.skipBlanks.next, mid, r, ?_, by omega, front, rest, back⟩
    simp only [nextKey, comma, quote]
    rfl

end Items

section Lists

variable {rows : List (Value × List Char)} {x : List Char} {xs : List (List Char)} {first : Bool}

theorem endList_nil (h : Pending first [] t) (p : Passes c (t ++ [']']) c') :
    endList c = .ok c' := by
  obtain ⟨bracket, place⟩ := skipBlanks_cons h.nil p rfl
  simp only [endList, bracket, passes_nil.mp place]

/-- With an item to come the list does not end. -/
theorem endList_cons (h : Pending first (x :: xs) t) (begins : Begins x)
    (p : Passes c (t ++ [']']) c') : ∃ e, endList c = .error e := by
  cases first with
  | true =>
    obtain ⟨ch, -, -, first, other, -⟩ := h.passes begins p
    rw [endList, first]
    split
    · simp_all
    · simp_all
    · exact ⟨_, rfl⟩
    · exact ⟨_, rfl⟩
  | false =>
    obtain ⟨comma, -⟩ := h.passes begins p
    simp only [endList, comma]
    split <;> exact ⟨_, rfl⟩

/-- The texts of a list up to its end. A list that is too long shows only there, so that the texts
alone are not what its elements say. -/
def listed (more count left : Nat) : Json.Reader (List String) := fun c => do
  let (texts, c) ← listedTexts more count left c
  let c ← endList c
  pure (texts, c)

theorem listed_zero (more count : Nat) (c : Cursor) :
    listed more count 0 c = (endList c).map fun c => ([], c) := by
  cases h : endList c <;> simp [listed, listedTexts, h, bind, Except.bind, pure, Except.pure,
    Except.map]

theorem listed_succ {count left : Nat} {start : Cursor}
    (found : nextItem (count = 0) c = .ok (true, start)) :
    listed more count (left + 1) c = (textValue more start >>= fun (s, c) =>
      listed more (count + 1) left c >>= fun (rest, c) => pure (s :: rest, c)) := by
  simp only [listed, listedTexts, found, bind, Except.bind, pure, Except.pure, if_true]
  rcases textValue more start with e | ⟨s, c⟩
  · rfl
  · dsimp only
    rcases listedTexts more (count + 1) left c with e | ⟨rest, c⟩
    · rfl
    · dsimp only
      cases endList c <;> rfl

theorem listed_written (written : ∀ e ∈ rows, e.1.Written e.2) {count : Nat} (left : Nat)
    (h : Pending (count = 0) (rows.map Prod.snd) t) (p : Passes c (t ++ [']']) c')
    (steps : c.rest.length < more) :
    Gives (listed more count left c) (texts? left (rows.map Prod.fst)) c' := by
  induction left generalizing rows count c t with
  | zero =>
    rw [listed_zero]
    cases rows with
    | nil =>
      rw [endList_nil h p]
      rfl
    | cons e rows =>
      obtain ⟨failure, fails⟩ := endList_cons h (written e List.mem_cons_self).begins p
      rw [fails]
      exact ⟨failure, rfl⟩
  | succ left ih =>
    cases rows with
    | nil =>
      obtain ⟨last, found, -⟩ := nextItem_nil h p
      simp only [listed, listedTexts, found, bind, Except.bind, Bool.false_eq_true, if_false]
      exact ⟨_, rfl⟩
    | cons e rows =>
      have own := written e List.mem_cons_self
      obtain ⟨start, mid, r, found, le, front, rest, back⟩ := nextItem_cons h own.begins p
      have le' := start.length_skipBlanks_le
      have length := front.length
      rw [listed_succ found]
      refine (textValue_written own front (by omega)).bind fun s _ => ?_
      have others : Pending (count + 1 = 0) (rows.map Prod.snd) r := rest
      exact (ih (fun e mem => written e (List.mem_cons_of_mem _ mem)) others back (by omega)).map _

theorem listedColumn_written (written : ∀ e ∈ rows, e.1.Written e.2)
    (h : Items (rows.map Prod.snd) t) (p : Passes c (t ++ [']']) c')
    (steps : c.rest.length < more) :
    Gives (listedColumn more c) (column? (.list (rows.map Prod.fst))) c' := by
  have pending : Pending (0 = 0) (rows.map Prod.snd) t := h
  have read := listed_written written 4 pending p steps
  have parts : listedColumn more c = (listed more 0 4 c >>= fun (texts, c) =>
      match texts with
      | [schema, table, column, native] => pure (⟨schema, table, column, native⟩, c)
      | _ => c.failHere .trailingCharacters) := by
    simp only [listedColumn, listed, bind, Except.bind, pure, Except.pure]
    cases listedTexts more 0 4 c with
    | error e => rfl
    | ok r =>
      dsimp only
      cases endList r.2 <;> rfl
  rw [parts]
  refine read.bind fun texts _ => ?_
  dsimp only
  split
  · rfl
  · exact ⟨_, rfl⟩

end Lists

section Objects

variable {members : List Json.Member} {m : Json.Member} {first : Bool}

theorem fieldOf_named (named : m.Named) (w : m.value.Written m.text) (p : PartialColumn)
    (key : String) (passes : Passes c (m.before ++ ':' :: (m.behind ++ m.text)) c')
    (bounded : c'.Bounded) (steps : c.rest.length < more) :
    Gives (fieldOf more p key c) (take? p key m.value) c' := by
  -- The colon belongs to what is in front of the value, which has blanks before it.
  rw [List.append_cons] at passes
  obtain ⟨mid, colon, value⟩ := passes_append.mp passes
  have length := colon.length
  have past := skipColon_passes named.before colon
  rw [fieldOf, take?]
  cases p.get? key with
  | none =>
    rw [past]
    change Gives (Json.skipValue more mid >>= fun c => pure (p, c)) (some p) c'
    rw [skipValue_written w named.behind value bounded (by omega)]
    rfl
  | some known =>
    cases known with
    | some _ => exact ⟨_, rfl⟩
    | none =>
      rw [past]
      change Gives (textValue more mid >>= fun (value, c) => pure (p.set key value, c))
        (m.value.text?.map (p.set key)) c'
      have own := w.begins.passes_alone named.behind value
      exact (textValue_written w own (by omega)).map (p.set key)

/-- From behind a name on, members are taken one after the other. -/
theorem fields_written (named : ∀ m ∈ members, m.Named)
    (written : ∀ m ∈ members, m.value.Written m.text) {fuel : Nat} (p : PartialColumn)
    (h : Pending first (members.map Json.Member.written) t) (passes : Passes c (t ++ ['\x7d']) c')
    (steps : c.rest.length < more) (enough : c.rest.length < fuel) :
    Gives (fields more fuel first p c) (gather? p (members.map fun m => (m.name, m.value))) c' := by
  induction members generalizing fuel first p c t with
  | nil =>
    obtain ⟨fuel, rfl⟩ := Nat.exists_eq_succ_of_ne_zero (Nat.ne_zero_of_lt enough)
    obtain ⟨last, found, rfl⟩ := nextKey_nil h passes
    rw [fields, found, List.map_nil, gather?]
    cases p.complete with
    | ok col => rfl
    | error name => exact ⟨_, rfl⟩
  | cons m members ih =>
    obtain ⟨fuel, rfl⟩ := Nat.exists_eq_succ_of_ne_zero (Nat.ne_zero_of_lt enough)
    obtain ⟨start, mid, r, found, shorter, front, rest, back⟩ := nextKey_cons h passes
    rw [List.append_cons] at front
    obtain ⟨behind, key, value⟩ := passes_append.mp front
    have length := key.length
    have length' := value.length
    simp only [List.length_append] at length
    have own := named m List.mem_cons_self
    have w := written m List.mem_cons_self
    rw [fields, found]
    change Gives (Json.string more start >>= fun r => fieldOf more p r.1 r.2 >>= fun r =>
      fields more fuel false r.1 r.2) _ c'
    refine (string_means own.key (by omega) key).bind fun name _ => ?_
    -- What stands behind the value cannot go on with a number in it.
    have bounded := rest.bounded (k := .object) back
    refine (fieldOf_named own w p name value bounded (by omega)).bind fun p _ => ?_
    change Gives (fields more fuel false p mid) _ c'
    exact ih (fun m mem => named m (List.mem_cons_of_mem _ mem))
      (fun m mem => written m (List.mem_cons_of_mem _ mem)) p rest back (by omega) (by omega)

end Objects

section Columns

variable {rows : List (Value × List Char)} {first : Bool}

theorem column_written (w : v.Written t) (p : Passes c.skipBlanks t c')
    (steps : c.rest.length < more) : Gives (column more c) (column? v) c' := by
  have other (list : c.skipBlanks.peek? ≠ some '[') (object : c.skipBlanks.peek? ≠ some '\x7b') :
      Gives (column more c) none c' := by
    obtain ⟨e, fails⟩ := wrongType_fails (α := Column × Cursor) more columnShape c.skipBlanks
    refine ⟨e, ?_⟩
    rw [column]
    split
    · exact absurd ‹_› list
    · exact absurd ‹_› object
    · exact fails
  cases w with
  | list each items =>
    obtain ⟨bracket, p⟩ := passes_cons.mp p
    have shorter := c.length_next_skipBlanks bracket
    simp only [column, bracket]
    exact listedColumn_written each items p (by omega)
  | @object members _ named each items =>
    obtain ⟨brace, p⟩ := passes_cons.mp p
    have shorter := c.length_next_skipBlanks brace
    simp only [column, brace]
    have pending : Pending true (members.map Json.Member.written) _ := items
    exact fields_written named each .empty pending p (by omega) (by omega)
  | unsigned digits => exact other (digits.peek_ne p rfl) (digits.peek_ne p rfl)
  | _ =>
    have first := (passes_cons.mp p).1
    refine other ?_ ?_ <;> rw [first] <;> decide

/-- Columns are read one after the other, up to the end of the list. -/
theorem columns_written (written : ∀ e ∈ rows, e.1.Written e.2) {fuel : Nat}
    (h : Pending first (rows.map Prod.snd) t) (p : Passes c (t ++ [']']) c')
    (steps : c.rest.length < more) (enough : c.rest.length < fuel) :
    Gives (columns more fuel first c) ((rows.map Prod.fst).mapM column?) c' := by
  induction rows generalizing fuel first c t with
  | nil =>
    obtain ⟨fuel, rfl⟩ := Nat.exists_eq_succ_of_ne_zero (Nat.ne_zero_of_lt enough)
    obtain ⟨last, found, rfl⟩ := nextItem_nil h p
    rw [columns, found]
    rfl
  | cons e rows ih =>
    obtain ⟨fuel, rfl⟩ := Nat.exists_eq_succ_of_ne_zero (Nat.ne_zero_of_lt enough)
    have own := written e List.mem_cons_self
    obtain ⟨start, mid, r, found, le, front, rest, back⟩ := nextItem_cons h own.begins p
    have le' := start.length_skipBlanks_le
    have length := front.length
    obtain ⟨ch, u, same, -⟩ := own.begins
    rw [same, List.length_cons] at length
    rw [columns, found, List.map_cons, List.mapM_cons]
    change Gives (column more start >>= fun r =>
      columns more fuel false r.2 >>= fun r' => pure (r.1 :: r'.1, r'.2)) _ c'
    refine (column_written own front (by omega)).bind fun col _ => ?_
    have others : Pending false (rows.map Prod.snd) r := rest
    refine (ih (fun e mem => written e (List.mem_cons_of_mem _ mem)) others back ?_ ?_).bind
      fun _ _ => rfl
    · omega
    · omega

/-- A text is read as its value says, and refused if that is no catalog. -/
theorem parse_written {text : String} (written : v.IsTextOf text) :
    match columns? v with
    | some cs => parse text = .ok cs
    | none => ∃ e, parse text = .error e := by
  obtain ⟨b, t, b', blank, w, blank', same⟩ := written
  obtain ⟨last, whole, none⟩ :
      ∃ last, Passes (Cursor.start text) (b ++ (t ++ b')) last ∧ last.rest = [] := by
    have all : (Cursor.start text).rest = b ++ (t ++ b') ++ [] := by
      rw [List.append_nil]
      exact same
    have whole := Cursor.passes_of_rest all
    exact ⟨_, whole, List.append_cancel_left (whole.rest.symm.trans all)⟩
  obtain ⟨-, -, -, p⟩ := w.begins.passes blank whole
  obtain ⟨mid, front, back⟩ := passes_append.mp p
  have solid : last.Solid := by
    intro ch first
    rw [Cursor.peek?, none] at first
    cases first
  have ending := Cursor.skipBlanks_eq blank' back solid
  have other (first : (Cursor.start text).skipBlanks.peek? ≠ some '[') :
      ∃ e, parse text = .error e := by
    simp only [parse, if_neg first]
    exact wrongType_fails _ _ _
  cases w with
  | @list elements _ each items =>
    obtain ⟨bracket, front⟩ := passes_cons.mp front
    have inside : (Cursor.start text).skipBlanks.next.rest.length <
        (Cursor.start text).skipBlanks.rest.length + 1 := by
      rw [Cursor.rest_next, List.length_drop]
      omega
    have pending : Pending true _ _ := items
    have read := columns_written each pending front inside inside
    simp only [parse, if_pos bracket]
    rw [columns?]
    cases columns : (elements.map Prod.fst).mapM column? with
    | none =>
      rw [columns] at read
      obtain ⟨e, fails⟩ := read
      rw [fails]
      exact ⟨e, rfl⟩
    | some cs =>
      rw [columns] at read
      rw [show _ = Except.ok (cs, mid) from read]
      change (if mid.skipBlanks.rest.isEmpty then pure cs else _) = _
      rw [ending, none]
      rfl
  | unsigned digits => exact other (digits.peek_ne front rfl)
  | _ =>
    refine other ?_
    rw [(passes_cons.mp front).1]
    decide

end Columns

end Catalog

end TypedDecl
