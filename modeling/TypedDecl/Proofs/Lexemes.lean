import TypedDecl.Proofs.Lexing

namespace TypedDecl.Code

/-- A name that can be written: its mark included, it is read as one token. -/
structure Ident.Written (i : Ident) : Prop where
  name : NameText i.name.toList
  raw : i.raw = true → Lexer.neverRaw.contains i.name = false

namespace Lexer

/-- In front of `rest` the text is read as this row, whatever groups are open. -/
def Lexes (rest cs : List Char) (ts : List Token) : Prop :=
  ∃ steps ≤ cs.length, ∀ fuel stack,
    tokens (fuel + steps) stack (cs ++ rest) = (tokens fuel stack rest).map (ts ++ ·)

namespace Lexes

variable {rest cs ds : List Char} {ts us : List Token}

theorem nil : Lexes rest [] [] := ⟨0, Nat.le_refl 0, fun fuel stack => by simp⟩

/-- What one step of the reader takes off. -/
theorem step (some_char : cs ≠ [])
    (h : ∀ fuel stack, tokens (fuel + 1) stack (cs ++ rest) =
      (tokens fuel stack rest).map (ts ++ ·)) : Lexes rest cs ts :=
  ⟨1, List.length_pos_iff.mpr some_char, h⟩

theorem append (first : Lexes (ds ++ rest) cs ts) (others : Lexes rest ds us) :
    Lexes rest (cs ++ ds) (ts ++ us) := by
  obtain ⟨m, short, first⟩ := first
  obtain ⟨n, short', others⟩ := others
  refine ⟨n + m, by rw [List.length_append]; omega, fun fuel stack => ?_⟩
  have joined : ((ts ++ us) ++ · : List Token → List Token) = (ts ++ ·) ∘ (us ++ ·) :=
    funext fun row => List.append_assoc ts us row
  rw [← Nat.add_assoc, List.append_assoc, first, others, Option.map_map, joined]

/-- The whole of a text. -/
theorem read? {s : String} (h : Lexes [] s.toList ts) (mark : dropMark s.toList = s.toList) :
    Token.read? s = some ts := by
  obtain ⟨steps, short, h⟩ := h
  obtain ⟨fuel, enough⟩ : ∃ fuel, s.toList.length + 1 = fuel + 1 + steps :=
    ⟨s.toList.length - steps, by omega⟩
  have all := h (fuel + 1) []
  rw [List.append_nil] at all
  rw [Token.read?, mark, enough, all]
  simp [tokens]

theorem space {c : Char} (h : isSpace c = true) : Lexes rest [c] [] :=
  step (by simp) fun fuel stack => by simp [tokens, h]

/-- A name is read up to what ends it. -/
theorem ident {i : Ident} (h : i.Written) (hr : Apart rest) :
    Lexes rest i.text.toList [.ident i] := by
  obtain ⟨raw, name⟩ := i
  obtain ⟨written, never⟩ := h
  cases raw with
  | false =>
    have text : (Ident.mk false name).text.toList = name.toList := rfl
    have some_char : name.toList ≠ [] := by
      intro none
      rw [none] at written
      cases written
    refine text ▸ step some_char fun fuel stack => ?_
    have row := tokens_name written hr fuel stack
    rw [String.ofList_toList] at row
    exact row
  | true =>
    have text : (Ident.mk true name).text.toList = 'r' :: '#' :: name.toList := by
      simp [Ident.text]
    refine text ▸ step (by simp) fun fuel stack => ?_
    have row := tokens_raw written hr fuel stack
    have free : neverRaw.contains name = false := never rfl
    rw [String.ofList_toList, free] at row
    exact row

end Lexes

end Lexer

end TypedDecl.Code
