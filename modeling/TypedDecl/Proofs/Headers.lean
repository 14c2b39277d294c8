import TypedDecl.Proofs.Comments
import TypedDecl.Proofs.LexerSteps

namespace TypedDecl.Code

open Lexer (dropMark tokens tokens_congr_fuel)

namespace Remarks

variable {cs ds : List Char}

/-- No remark begins with a byte order mark. -/
theorem unmarked (h : Remarks cs) (mark : ds.head? ≠ some '\ufeff') :
    (cs ++ ds).head? ≠ some '\ufeff' := by
  induction h with
  | nil => exact mark
  | cons first _ _ =>
    cases first with
    | space blank =>
      rintro ⟨⟩
      cases blank
    | line => simp
    | block => simp

/-- Remarks can be left out before a text. -/
theorem read?_append (h : Remarks cs) {body : String} (mark : body.toList.head? ≠ some '\ufeff') :
    Token.read? (String.ofList cs ++ body) = Token.read? body := by
  obtain ⟨steps, short, read⟩ : Lexer.Lexes body.toList cs [] := h.lexes
  have count : (cs ++ body.toList).length + 1 =
      body.toList.length + 1 + (cs.length - steps) + steps := by
    rw [List.length_append]
    omega
  have enough : body.toList.length < body.toList.length + 1 + (cs.length - steps) := by omega
  have row := read (body.toList.length + 1 + (cs.length - steps)) []
  rw [tokens_congr_fuel enough (Nat.lt_succ_self _)] at row
  rw [Token.read?, Token.read?, String.toList_append, String.toList_ofList,
    Lexer.dropMark_eq_self (h.unmarked mark), Lexer.dropMark_eq_self mark, count, row]
  exact Option.map_id'

end Remarks

end TypedDecl.Code

namespace TypedDecl.Header

open Code (Remarks Token Uncommented)

/-- Nothing of what stands before generated code is code or documentation, and no comment in it is
left open. -/
theorem unread_text (license : Option String) {p : Provenance}
    (generator : Uncommented p.generator.toList) (version : Uncommented p.version.toList) :
    Remarks (text license p).toList ∧
      ∀ body : String, body.toList.head? ≠ some '\ufeff' →
        Token.read? (text license p ++ body) = Token.read? body := by
  have remarks := remarks_text license generator version
  refine ⟨remarks, fun body mark => ?_⟩
  have read := remarks.read?_append mark
  rwa [String.ofList_toList] at read

/-- Marks of all kinds in the licence, some behind a lone carriage return, and the ends of comments
in two parts. -/
theorem unread_marked_license : ∃ p : Provenance,
    p = ⟨"a/b*", "/", ⟨2024, 1, 2, 3, 4, 5, 0⟩⟩ ∧
    Uncommented p.generator.toList ∧ Uncommented p.version.toList ∧
    "pub struct A;".toList.head? ≠ some '\ufeff' ∧
    Remarks (text (some "*/ pub struct B; /*\r/// C\n\r\n/ D\n! E\r\n/** F") p).toList ∧
    Token.read? (text (some "*/ pub struct B; /*\r/// C\n\r\n/ D\n! E\r\n/** F") p ++
      "pub struct A;") = Token.read? "pub struct A;" := by
  have generator : Uncommented "a/b*".toList := by decide
  have version : Uncommented "/".toList := by decide
  have mark : "pub struct A;".toList.head? ≠ some '\ufeff' := by decide
  obtain ⟨remarks, read⟩ := unread_text
    (some "*/ pub struct B; /*\r/// C\n\r\n/ D\n! E\r\n/** F")
    (p := ⟨"a/b*", "/", ⟨2024, 1, 2, 3, 4, 5, 0⟩⟩) generator version
  exact ⟨_, rfl, generator, version, mark, remarks, read _ mark⟩

end TypedDecl.Header
