import TypedDecl.Declaration.Spelling
import TypedDecl.Proofs.Lexing
import TypedDecl.Proofs.Reading.Signs

namespace TypedDecl.Code

open Name (Word)
open Lexer (neverRaw)

namespace Ident

theorem isName_of_parse? {s : String} {i : Ident} (h : parse? s = some i) : i.isName = true := by
  unfold parse? at h
  split at h
  · split at h
    · next named =>
      cases h
      exact named
    · cases h
  · cases h

theorem isName_of_ofName? {s : String} {i : Ident} (h : ofName? s = some i) :
    i.isName = true := by
  rw [ofName?] at h
  cases plain : parse? s with
  | some j =>
    rw [plain] at h
    cases h
    exact isName_of_parse? plain
  | none =>
    rw [plain] at h
    exact isName_of_parse? h

theorem parse?_word {s : String} (h : Word s.toList) :
    parse? s = if keywords.contains s then none else some ⟨false, s⟩ := by
  simp only [parse?, Token.read?_word h, isName, Bool.false_or]
  cases keywords.contains s <;> rfl

theorem parse?_raw {s : String} (h : Word s.toList) :
    parse? ("r#" ++ s) = if neverRaw.contains s then none else some ⟨true, s⟩ := by
  rw [parse?, Token.read?_raw h]
  cases neverRaw.contains s <;> rfl

/-- What a word is as a name: itself, or raw if it is a keyword, unless it cannot be raw. -/
theorem ofName?_word {s : String} (h : Word s.toList) :
    ofName? s =
      if keywords.contains s then if neverRaw.contains s then none else some ⟨true, s⟩
      else some ⟨false, s⟩ := by
  rw [ofName?, parse?_word h, parse?_raw h]
  cases keywords.contains s <;> rfl

end Ident

/-- Only a word that cannot be raw is a keyword and a type. -/
theorem Ty.ofTokens?_keyword : ∀ w ∈ keywords, neverRaw.contains w = false →
    (ofTokens? [Token.word w]).isNone = true := by
  decide +kernel

theorem Ty.ofTokens?_name {i : Ident} (h : i.isName = true) :
    ofTokens? [.ident i] = some (.path (.plain (.mk false [.mk i .none]))) := by
  have reader : (Grammar.forRow [.ident i]).ty true [.ident i] =
      Parser.ty (Grammar.nested 3 7) true [.ident i] := rfl
  rw [ofTokens?, Parser.all?, reader, Parser.ty_name h (by decide) rfl]

end TypedDecl.Code

namespace TypedDecl.Declaration

open Code (Ident Ty Token keywords)
open Code.Item (callTokens pathTokens)
open Code.Lexer (neverRaw)
open Name (Word)

theorem ofName?_of_ident {s : String} {i : Ident} (h : ident s = .ok i) :
    Ident.ofName? s = some i := by
  unfold ident at h
  split at h <;> simp_all

/-- What a declaration or a member is named by is no keyword. -/
theorem isName_of_ident {s : String} {i : Ident} (h : ident s = .ok i) : i.isName = true :=
  Ident.isName_of_ofName? (ofName?_of_ident h)

/-- The identifier of a word is the word; it is raw where the word is a keyword. -/
theorem ident_word {s : String} (h : Word s.toList) {i : Ident} (hi : ident s = .ok i) :
    i = ⟨keywords.contains s, s⟩ ∧ (keywords.contains s = true → neverRaw.contains s = false) := by
  rw [ident, Ident.ofName?_word h] at hi
  cases keyword : keywords.contains s <;> cases never : neverRaw.contains s <;> simp_all

theorem ident_word_name {s : String} (h : Word s.toList) {i : Ident} (hi : ident s = .ok i) :
    i.name = s := by
  rw [(ident_word h hi).1]

/-- A word that names something is the same identifier as a type. -/
theorem typeTokens_word {s : String} (h : Word s.toList) {i : Ident} (hi : ident s = .ok i) :
    typeTokens s = .ok [.ident i] := by
  obtain ⟨spelled, raw⟩ := ident_word h hi
  have read : Ty.parse? s = Ty.ofTokens? [Token.word s] := by
    rw [Ty.parse?, Token.read?_word h]
    rfl
  have name := ofName?_of_ident hi
  by_cases keyword : keywords.contains s = true
  -- A keyword is no type; it is read as a name after that, and gets the mark there.
  · have none := Ty.ofTokens?_keyword s (by simpa using keyword) (raw keyword)
    rw [Option.isNone_iff_eq_none] at none
    rw [typeTokens, read, none, name]
  · rw [Bool.not_eq_true] at keyword
    have plain : i = Ident.plain s := by rw [spelled, keyword]; rfl
    have named : i.isName = true := by rw [plain, Ident.isName, Ident.plain, keyword]; rfl
    rw [typeTokens, read, Token.word, ← plain, Ty.ofTokens?_name named]
    rfl

theorem valueTokens_quote (s : String) :
    valueTokens (Text.Quoted.quote s) = .ok [.literal (Text.Quoted.quote s)] := by
  rw [valueTokens, Token.read?_quote]

/-- The call of a constructor names its type as its declaration does. -/
theorem valueTokens_constructor {s : String} (h : Word s.toList) {i : Ident}
    (hi : ident s = .ok i) :
    valueTokens (Name.pathSegment s ++ "::new()") =
      .ok (callTokens (pathTokens [.ident i] ["new"]) []) := by
  obtain ⟨spelled, raw⟩ := ident_word h hi
  have apart : Code.Apart "::new()".toList := Code.Apart.cons rfl _
  have call := Token.tokens_constructor
  rw [valueTokens, Name.pathSegment, Ident.parse?_word h]
  cases keyword : keywords.contains s with
  | false =>
    have row := Token.read?_append h apart
    have read : Token.read? (s ++ "::new()") =
        some (.ident ⟨false, s⟩ :: callTokens (pathTokens [] ["new"]) []) := by
      rw [row, show s.toList.length + "::new()".toList.length = s.toList.length + 1 + 6 from rfl,
        call]
      rfl
    simp only [Bool.false_eq_true, if_false, Option.isSome_some, if_true, read]
    rw [spelled, keyword]
    rfl
  | true =>
    have row := Token.read?_raw_append h apart
    have read : Token.read? ("r#" ++ s ++ "::new()") =
        some (.ident ⟨true, s⟩ :: callTokens (pathTokens [] ["new"]) []) := by
      rw [row, raw keyword,
        show s.toList.length + "::new()".toList.length + 2 = s.toList.length + 3 + 6 from rfl,
        call]
      rfl
    simp only [if_true, Option.isSome_none, Bool.false_eq_true, if_false, read]
    rw [spelled, keyword]
    rfl

end TypedDecl.Declaration
