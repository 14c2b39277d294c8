import TypedDecl.Proofs.Emission
import TypedDecl.Proofs.Spelling

namespace TypedDecl.Declaration

open Code (keywords)
open Code.Lexer (neverRaw)
open Name (Word)

/-- A word is an identifier unless it is a keyword without a raw form. -/
theorem ident_word_eq {s : String} (h : Word s.toList) :
    ident s =
      if neverRaw.contains s then .error (.invalidName s) else .ok ⟨keywords.contains s, s⟩ := by
  have reserved : ∀ w ∈ neverRaw, keywords.contains w = true := by decide
  rw [ident, Code.Ident.ofName?_word h]
  cases never : neverRaw.contains s with
  | true =>
    rw [if_pos (reserved s (by simpa using never))]
    rfl
  | false => cases keywords.contains s <;> rfl

/-- A name that is taken is fit for use, whatever characters it has. -/
theorem fit_of_ident {s : String} {i : Code.Ident} (h : ident s = .ok i) :
    neverRaw.contains s = false := by
  have never : ∀ w ∈ neverRaw, (ident w).toBool = false := by decide +kernel
  rw [← Bool.not_eq_true, List.contains_iff_mem]
  intro mem
  have failed := never s mem
  rw [h] at failed
  cases failed

variable {α β : Type} {names more : List String} {r : Except Error α}

/-- The names are all that the computation can fail at. -/
def DecidedBy (names : List String) (r : Except Error α) : Prop :=
  match names.find? neverRaw.contains with
  | some n => r = .error (.invalidName n)
  | none => ∃ a, r = .ok a

namespace DecidedBy

theorem ok (a : α) : DecidedBy [] (.ok a) := ⟨a, rfl⟩

theorem of_ok {a : α} (h : r = .ok a) : DecidedBy [] r := ⟨a, h⟩

/-- Names that are fit for use decide nothing. -/
theorem skip {n : String} (fit : neverRaw.contains n = false) (h : DecidedBy names r) :
    DecidedBy (n :: names) r := by
  rw [DecidedBy, List.find?_cons, fit]
  exact h

theorem of_cons {n : String} (fit : neverRaw.contains n = false) (h : DecidedBy (n :: names) r) :
    DecidedBy names r := by
  rw [DecidedBy, List.find?_cons, fit] at h
  exact h

theorem bind {f : α → Except Error β} (h : DecidedBy names r)
    (next : ∀ a, r = .ok a → DecidedBy more (f a)) : DecidedBy (names ++ more) (r >>= f) := by
  rw [DecidedBy, List.find?_append]
  cases first : names.find? neverRaw.contains with
  | some n =>
    rw [DecidedBy, first] at h
    rw [h]
    rfl
  | none =>
    rw [DecidedBy, first] at h
    obtain ⟨a, rfl⟩ := h
    exact next a rfl

theorem map (h : DecidedBy names r) (f : α → β) : DecidedBy names (f <$> r) := by
  rw [← List.append_nil names, map_eq_pure_bind]
  exact h.bind fun a _ => .ok (f a)

/-- What is done for each item is decided by the names of all of them. -/
theorem mapM {f : α → Except Error β} {of : α → List String} {xs : List α}
    (h : ∀ x ∈ xs, DecidedBy (of x) (f x)) : DecidedBy (xs.flatMap of) (xs.mapM f) := by
  induction xs with
  | nil => exact .ok []
  | cons x xs ih =>
    rw [List.forall_mem_cons] at h
    rw [List.mapM_cons, List.flatMap_cons, ← List.append_nil (xs.flatMap of)]
    exact h.1.bind fun y _ => (ih h.2).bind fun ys _ => .ok (y :: ys)

theorem ident {s : String} (h : Word s.toList) : DecidedBy [s] (ident s) := by
  rw [DecidedBy, ident_word_eq h, List.find?_singleton]
  cases neverRaw.contains s with
  | true => rfl
  | false => exact ⟨_, rfl⟩

theorem of_ident {s : String} {i : Code.Ident} (h : Declaration.ident s = .ok i) :
    DecidedBy [s] (Declaration.ident s) := by
  rw [DecidedBy, List.find?_singleton, fit_of_ident h]
  exact ⟨i, h⟩

/-- A member whose type and value can be read if its name can is decided by its name. -/
theorem spell {m : Member} (h : Word m.name.toList)
    (read : ∀ i, Declaration.ident m.name = .ok i →
      (∃ type, typeTokens m.type = .ok type) ∧ ∃ value, valueTokens m.value = .ok value) :
    DecidedBy [m.name] (spell m) := by
  refine (ident h).bind fun i named => ?_
  obtain ⟨⟨type, typed⟩, value, valued⟩ := read i named
  rw [typed, valued]
  exact ⟨(⟨i, type, value⟩ : Spelled), rfl⟩

/-- There is a result exactly if every name is fit for use. -/
theorem exists_ok_iff (h : DecidedBy names r) :
    (∃ a, r = .ok a) ↔ ∀ n ∈ names, neverRaw.contains n = false := by
  cases first : names.find? neverRaw.contains with
  | some n =>
    rw [DecidedBy, first] at h
    obtain ⟨never, mem⟩ := And.intro (List.find?_some first) (List.mem_of_find?_eq_some first)
    refine ⟨fun ⟨a, done⟩ => ?_, fun fit => ?_⟩
    · rw [h] at done
      cases done
    · rw [fit n mem] at never
      cases never
  | none =>
    rw [DecidedBy, first] at h
    rw [List.find?_eq_none] at first
    exact ⟨fun _ n mem => by simpa using first n mem, fun _ => h⟩

/-- Otherwise it fails at the first name that is not. -/
theorem eq_error (h : DecidedBy names r) {n : String}
    (first : names.find? neverRaw.contains = some n) : r = .error (.invalidName n) := by
  rw [DecidedBy, first] at h
  exact h

end DecidedBy

end TypedDecl.Declaration
