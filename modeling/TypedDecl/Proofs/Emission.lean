import Mathlib.Data.List.Forall2
import TypedDecl.Declaration.Tokens

namespace TypedDecl.Declaration

open Code (Path Token)

theorem bind_ok {α β : Type} {x : Except Error α} {f : α → Except Error β} {b : β}
    (h : x >>= f = .ok b) : ∃ a, x = .ok a ∧ f a = .ok b := by
  cases x with
  | error e => cases h
  | ok a => exact ⟨a, rfl, h⟩

theorem exists_ok {α : Type} {x : Except Error α} (h : x.toBool = true) : ∃ a, x = .ok a := by
  cases x with
  | error e => cases h
  | ok a => exact ⟨a, rfl⟩

theorem mapM_ok {α β : Type} {f : α → Except Error β} {xs : List α} {ys : List β}
    (h : xs.mapM f = .ok ys) : List.Forall₂ (fun x y => f x = .ok y) xs ys := by
  induction xs generalizing ys with
  | nil =>
    cases h
    exact .nil
  | cons x xs ih =>
    rw [List.mapM_cons] at h
    obtain ⟨y, first, h⟩ := bind_ok h
    obtain ⟨zs, others, h⟩ := bind_ok h
    cases h
    exact .cons first (ih others)

theorem exists_of_forall₂ {α β : Type} {R : α → β → Prop} {xs : List α} {ys : List β}
    (h : List.Forall₂ R xs ys) {y : β} (hy : y ∈ ys) : ∃ x ∈ xs, R x y := by
  induction h with
  | nil => cases hy
  | @cons x y' xs ys first others ih =>
    rcases List.mem_cons.mp hy with rfl | hy
    · exact ⟨x, by simp, first⟩
    · obtain ⟨x', hx, related⟩ := ih hy
      exact ⟨x', by simp [hx], related⟩

/-- The rows of declarations, one after the other. -/
inductive Emits (runtime : Path) : List Declaration → List Token → Prop
  | nil : Emits runtime [] []
  | cons {d : Declaration} {ds : List Declaration} {row ts : List Token}
      (first : tokens runtime d = .ok row) (others : Emits runtime ds ts) :
      Emits runtime (d :: ds) (row ++ ts)

theorem emits_of_forall₂ {runtime : Path} {ds : List Declaration} {rows : List (List Token)}
    (h : List.Forall₂ (fun d row => tokens runtime d = .ok row) ds rows) :
    Emits runtime ds rows.flatten := by
  induction h with
  | nil => exact .nil
  | cons first _ ih => exact .cons first ih

theorem emits_of_listTokens {runtime : String} {ds : List Declaration} {ts : List Token}
    (h : listTokens runtime ds = .ok ts) :
    ∃ path, runtimePath runtime = .ok path ∧ Emits path ds ts := by
  obtain ⟨path, hp, h⟩ := bind_ok h
  obtain ⟨rows, hr, h⟩ := bind_ok h
  cases h
  exact ⟨path, hp, emits_of_forall₂ (mapM_ok hr)⟩

theorem Emits.append {runtime : Path} {a b : List Declaration} {ts : List Token}
    (h : Emits runtime (a ++ b) ts) :
    ∃ x y, ts = x ++ y ∧ Emits runtime a x ∧ Emits runtime b y := by
  induction a generalizing ts with
  | nil => exact ⟨[], ts, rfl, .nil, h⟩
  | cons d ds ih =>
    cases h with
    | cons first others =>
      obtain ⟨x, y, rfl, hx, hy⟩ := ih others
      exact ⟨_, y, (List.append_assoc _ x y).symm, .cons first hx, hy⟩

theorem spell_ok {m : Member} {s : Spelled} (h : spell m = .ok s) :
    ident m.name = .ok s.ident ∧ typeTokens m.type = .ok s.type ∧
      valueTokens m.value = .ok s.value := by
  obtain ⟨i, hi, h⟩ := bind_ok h
  obtain ⟨type, ht, h⟩ := bind_ok h
  obtain ⟨value, hv, h⟩ := bind_ok h
  cases h
  exact ⟨hi, ht, hv⟩

end TypedDecl.Declaration
