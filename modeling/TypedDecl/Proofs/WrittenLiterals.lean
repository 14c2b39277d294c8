import TypedDecl.Declaration.Tokens
import TypedDecl.Proofs.Spelling

namespace TypedDecl

open Code (Token)
open Code.Item (docTokens)
open Declaration (valueTokens tableConstants)

namespace Text.Quoted

/-- What is written is one string literal for a text. -/
structure Denotes (literal text : String) : Prop where
  token : Token.read? literal = some [.literal literal]
  string : Code.Literal.isText literal = true
  decoded : decode literal = some text
  /-- Whatever follows, the literal reaches to its last quote, and of what follows only a suffix can
  belong to it. -/
  ends : ∀ rest,
    Code.Literal.after? (literal.toList ++ rest) = some (Code.Literal.afterSuffix rest)

/-- Each character may be written in any of its forms. -/
theorem denotes_written {text : String} {body : List Char} (h : Written text.toList body) :
    Denotes (String.ofList ('"' :: body ++ ['"'])) text where
  token := Token.read?_written h
  string := by
    rw [Code.Literal.isText, String.toList_ofList]
    rfl
  decoded := decode_written h
  ends := by
    intro rest
    rw [String.toList_ofList, List.append_assoc, List.cons_append, List.singleton_append]
    exact Code.Lexer.after?_written h rest

theorem denotes_quote (text : String) : Denotes (quote text) text :=
  denotes_written (written_escape text.toList)

theorem denotes_quoteGuarded (text : String) : Denotes (quoteGuarded text) text :=
  denotes_written (written_escapeGuarded text.toList)

/-- A literal stands for one text. -/
theorem Denotes.unique {literal a b : String} (ha : Denotes literal a) (hb : Denotes literal b) :
    a = b :=
  Option.some.inj (ha.decoded.symm.trans hb.decoded)

end Text.Quoted

/-- The literals in a row of tokens. -/
def Code.Token.literals (ts : List Token) : List String :=
  ts.filterMap fun
    | .literal text => some text
    | _ => none

open Text.Quoted Code.Token in
/-- Both ways to write a text give a string literal that stands for it, as the value of a member and
in constants and documentation; and where two literals are equal, so are their texts. -/
theorem Declaration.literals_denote (a b : String) :
    valueTokens (quote a) = .ok [.literal (quote a)] ∧ Denotes (quote a) a ∧
      Denotes (quoteGuarded a) a ∧ literals (docTokens a) = [quoteGuarded a] ∧
      literals (tableConstants a b) = [quoteGuarded a, quoteGuarded b] ∧
      ((quote a = quote b ∨ quote a = quoteGuarded b ∨ quoteGuarded a = quoteGuarded b) ↔
        a = b) := by
  have plain (t : String) := denotes_quote t
  have guarded (t : String) := denotes_quoteGuarded t
  have doc : literals (docTokens a) = [quoteGuarded (String.ofList a.toList)] := rfl
  rw [String.ofList_toList] at doc
  have constants : literals (tableConstants a b) = [quoteGuarded a, quoteGuarded b] := rfl
  refine ⟨valueTokens_quote a, plain a, guarded a, doc, constants, ?_⟩
  constructor
  · rintro (same | same | same)
    · exact (plain a).unique (same ▸ plain b)
    · exact (plain a).unique (same ▸ guarded b)
    · exact (guarded a).unique (same ▸ guarded b)
  · rintro rfl
    exact .inl rfl

end TypedDecl
