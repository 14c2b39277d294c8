import TypedDecl.Code.Item.Tokens
import TypedDecl.Proofs.Literals
import TypedDecl.Proofs.Names

namespace TypedDecl.Code

open Name (Word isWord)
open Unicode (isIdentStart isIdentContinue)

/-- A character that can begin an identifier, and others that can go on with one. -/
inductive NameText : List Char → Prop
  | intro {c : Char} {cs : List Char} (first : isIdentStart c = true)
      (others : ∀ d ∈ cs, isIdentContinue d = true) : NameText (c :: cs)

theorem isIdentContinue_of_isWord {c : Char} (h : isWord c = true) : isIdentContinue c = true := by
  rw [isIdentContinue, if_pos (Name.toNat_lt_of_isWord h)]
  simpa [isWord] using h

theorem isIdentStart_of_isWord {c : Char} (h : isWord c = true) (digit : c.isDigit = false) :
    isIdentStart c = true := by
  rw [isIdentStart, if_pos (Name.toNat_lt_of_isWord h)]
  simpa [isWord, Char.isAlphanum, digit] using h

theorem nameText_of_word {w : List Char} (h : Word w) : NameText w := by
  obtain ⟨first, digit, others⟩ := h
  exact .intro (isIdentStart_of_isWord first digit)
    fun d hd => isIdentContinue_of_isWord (others d hd)

theorem isDigit_of_isIdentStart {c : Char} (h : isIdentStart c = true) : c.isDigit = false := by
  cases digit : c.isDigit with
  | false => rfl
  | true =>
    have small : 48 ≤ c.toNat ∧ c.toNat ≤ 57 := by
      simpa [Char.isDigit, UInt32.le_iff_toNat_le] using digit
    have none : ∀ n, 48 ≤ n → n ≤ 57 → isIdentStart (Char.ofNat n) = false := by decide
    have start := none c.toNat small.1 small.2
    rw [Char.ofNat_toNat, h] at start
    cases start

theorem ne_of_isIdentStart {c x : Char} (h : isIdentStart c = true)
    (hx : isIdentStart x = false) : c ≠ x := by
  rintro rfl
  rw [h] at hx
  cases hx

theorem ne_of_isIdentContinue {c x : Char} (h : isIdentContinue c = true)
    (hx : isIdentContinue x = false) : c ≠ x := by
  rintro rfl
  rw [h] at hx
  cases hx

theorem takeWhile_name {w rest : List Char} (hw : ∀ c ∈ w, isIdentContinue c = true)
    (hr : ∀ c ∈ rest.head?, isIdentContinue c = false) :
    (w ++ rest).takeWhile isIdentContinue = w := by
  rw [List.takeWhile_append_of_pos hw]
  cases rest with
  | nil => simp
  | cons c rest => simp [hr c rfl]

theorem dropWhile_name {w rest : List Char} (hw : ∀ c ∈ w, isIdentContinue c = true)
    (hr : ∀ c ∈ rest.head?, isIdentContinue c = false) :
    (w ++ rest).dropWhile isIdentContinue = rest := by
  rw [List.dropWhile_append_of_pos hw]
  cases rest with
  | nil => rfl
  | cons c rest => simp [hr c rfl]

/-- What stands here makes no literal of the letter before it. -/
def Unmarked (cs : List Char) : Prop := ∀ c ∈ cs.head?, c ≠ '"' ∧ c ≠ '\'' ∧ c ≠ '#'

theorem not_unmarked {c : Char} {cs : List Char} (h : c = '"' ∨ c = '\'' ∨ c = '#') :
    ¬Unmarked (c :: cs) := by
  intro hu
  obtain ⟨quote, apostrophe, mark⟩ := hu c rfl
  rcases h with h | h | h
  · exact quote h
  · exact apostrophe h
  · exact mark h

/-- A character that belongs to no name, and makes no literal of the letter before it. -/
def parts (c : Char) : Bool :=
  c ≠ '"' && c ≠ '\'' && c ≠ '#' && !isIdentStart c && !isIdentContinue c

/-- What stands here ends the word before it. -/
def Apart (cs : List Char) : Prop := ∀ c ∈ cs.head?, parts c = true

theorem Apart.nil : Apart [] := by simp [Apart]

theorem Apart.cons {c : Char} (h : parts c = true) (cs : List Char) : Apart (c :: cs) := by
  intro d hd
  cases hd
  exact h

theorem Apart.unmarked {cs : List Char} (h : Apart cs) : Unmarked cs := by
  intro c hc
  have away := h c hc
  simp only [parts, Bool.and_eq_true, decide_eq_true_eq] at away
  exact ⟨away.1.1.1.1, away.1.1.1.2, away.1.1.2⟩

theorem Apart.outside {cs : List Char} (h : Apart cs) :
    ∀ c ∈ cs.head?, isIdentStart c = false ∧ isIdentContinue c = false := by
  intro c hc
  have away := h c hc
  simp only [parts, Bool.and_eq_true, Bool.not_eq_true'] at away
  exact ⟨away.1.2, away.2⟩

theorem Apart.unmarked_append {w rest : List Char} (hr : Apart rest)
    (hw : ∀ c ∈ w, isIdentContinue c = true) : Unmarked (w ++ rest) := by
  cases w with
  | nil => exact hr.unmarked
  | cons c w =>
    have hc : isIdentContinue c = true := hw c List.mem_cons_self
    intro d hd
    obtain rfl : c = d := by simpa using hd
    exact ⟨ne_of_isIdentContinue hc rfl, ne_of_isIdentContinue hc rfl,
      ne_of_isIdentContinue hc rfl⟩

/-- A letter that follows the first one belongs to the name, so what stands behind it is no mark
either. -/
theorem Apart.unmarked_tail {w rest cs : List Char} {d : Char} (hr : Apart rest)
    (hw : ∀ c ∈ w, isIdentContinue c = true) (hd : isIdentContinue d = true)
    (h : w ++ rest = d :: cs) : Unmarked cs := by
  cases w with
  | nil =>
    have here : d ∈ rest.head? := by rw [← List.nil_append rest, h]; rfl
    have out := (hr.outside d here).2
    rw [hd] at out
    cases out
  | cons c w =>
    obtain ⟨rfl, rfl⟩ := List.cons_eq_cons.mp h
    exact hr.unmarked_append fun x hx => hw x (List.mem_cons_of_mem c hx)

theorem NameText.unmarked {w : List Char} (h : NameText w) (rest : List Char) :
    Unmarked (w ++ rest) := by
  obtain ⟨first, -⟩ := h
  intro d hd
  cases hd
  exact ⟨ne_of_isIdentStart first rfl, ne_of_isIdentStart first rfl, ne_of_isIdentStart first rfl⟩

namespace Literal

open Text.Quoted (hexValue?)

theorem rawFrom?_unmarked {k : Content} {cs : List Char} (h : Unmarked cs) :
    rawFrom? k cs = none := by
  cases cs with
  | nil => rfl
  | cons c cs =>
    obtain ⟨quote, _, mark⟩ := h c rfl
    have first : (c :: cs).takeWhile (· = '#') = [] := by simp [mark]
    simp only [rawFrom?, first, List.length_nil, List.drop_zero]
    split <;> simp_all

/-- One mark is not enough for a literal without a quote behind it. -/
theorem rawFrom?_mark {k : Content} {cs : List Char} (h : Unmarked cs) :
    rawFrom? k ('#' :: cs) = none := by
  have first : ('#' :: cs).takeWhile (· = '#') = ['#'] := by
    cases cs with
    | nil => rfl
    | cons c cs => simp [(h c rfl).2.2]
  simp only [rawFrom?, first, List.length_singleton, List.drop_one, List.tail_cons]
  split
  · exact absurd h (not_unmarked (by decide))
  · rfl

/-- No string literal begins with a name. -/
theorem afterString?_name {c : Char} {w rest : List Char} (hw : NameText (c :: w))
    (hr : Apart rest) : afterString? (c :: (w ++ rest)) = none := by
  obtain ⟨hc, others⟩ := hw
  have next := hr.unmarked_append others
  generalize hn : w ++ rest = cs at next
  unfold afterString?
  split
  case h_1 heq => exact absurd (List.cons_eq_cons.mp heq).1 (ne_of_isIdentStart hc rfl)
  case h_2 heq =>
    obtain ⟨rfl, rfl⟩ := List.cons_eq_cons.mp heq
    exact rawFrom?_unmarked next
  case h_3 heq =>
    obtain ⟨rfl, rfl⟩ := List.cons_eq_cons.mp heq
    exact absurd next (not_unmarked (by decide))
  case h_4 heq =>
    obtain ⟨rfl, rfl⟩ := List.cons_eq_cons.mp heq
    exact rawFrom?_unmarked (hr.unmarked_tail others rfl hn)
  case h_5 heq =>
    obtain ⟨rfl, rfl⟩ := List.cons_eq_cons.mp heq
    exact absurd next (not_unmarked (by decide))
  case h_6 heq =>
    obtain ⟨rfl, rfl⟩ := List.cons_eq_cons.mp heq
    exact rawFrom?_unmarked (hr.unmarked_tail others rfl hn)
  case h_7 => rfl

theorem afterByte?_unmarked (c : Char) {cs : List Char} (h : Unmarked cs) :
    afterByte? (c :: cs) = none := by
  unfold afterByte?
  split
  case h_1 heq =>
    obtain ⟨_, rfl⟩ := List.cons_eq_cons.mp heq
    exact absurd h (not_unmarked (by decide))
  case h_2 heq =>
    obtain ⟨_, rfl⟩ := List.cons_eq_cons.mp heq
    exact absurd h (not_unmarked (by decide))
  case h_3 => rfl

theorem afterChar?_cons {c : Char} (h : c ≠ '\'') (cs : List Char) :
    afterChar? (c :: cs) = none := by
  unfold afterChar?
  split
  case h_1 heq => exact absurd (List.cons_eq_cons.mp heq).1 h
  case h_2 heq => exact absurd (List.cons_eq_cons.mp heq).1 h
  case h_3 => rfl

theorem afterFloat?_cons {c : Char} (h : c.isDigit = false) (cs : List Char) :
    afterFloat? (c :: cs) = none := by
  simp [afterFloat?, h]

/-- The letters that are digits in a larger base do not begin a number. -/
theorem le_hexValue? {c : Char} (h : c.isDigit = false) : ∀ d ∈ hexValue? c, 10 ≤ d := by
  intro d hd
  have digit : ¬(('0' ≤ c && c ≤ '9') = true) := Bool.eq_false_iff.mp h
  rw [hexValue?, if_neg digit] at hd
  have le {a : Char} (h : a ≤ c) : a.toNat ≤ c.toNat := h
  split_ifs at hd with lower upper
  · have least : 97 ≤ c.toNat := le (Bool.and_eq_true_iff.mp lower |>.1 |> of_decide_eq_true)
    obtain rfl : c.toNat - 87 = d := by simpa using hd
    omega
  · have least : 65 ≤ c.toNat := le (Bool.and_eq_true_iff.mp upper |>.1 |> of_decide_eq_true)
    obtain rfl : c.toNat - 55 = d := by simpa using hd
    omega
  · cases hd

theorem afterInteger?_cons {c : Char} (h : c.isDigit = false) (cs : List Char) :
    afterInteger? (c :: cs) = none := by
  have zero : c ≠ '0' := by
    rintro rfl
    cases h
  have digits : afterDigits? 10 true (c :: cs) = none := by
    rw [afterDigits?]
    by_cases sign : c = '_'
    · rw [if_pos sign]
      rfl
    · rw [if_neg sign]
      split
      next d hd =>
        have large := le_hexValue? h d hd
        rw [if_neg (by omega), if_neg (by omega), if_pos rfl]
      next => rfl
  unfold afterInteger?
  split
  case h_1 heq => exact absurd (List.cons_eq_cons.mp heq).1 zero
  case h_2 heq => exact absurd (List.cons_eq_cons.mp heq).1 zero
  case h_3 heq => exact absurd (List.cons_eq_cons.mp heq).1 zero
  case h_4 => rw [digits, Option.bind_none]

/-- No literal begins with a name that is followed by no quote or mark. -/
theorem after?_name {c : Char} {w rest : List Char} (hw : NameText (c :: w)) (hr : Apart rest) :
    after? (c :: (w ++ rest)) = none := by
  obtain ⟨hc, others⟩ := id hw
  have next := hr.unmarked_append others
  have digit := isDigit_of_isIdentStart hc
  have quote : c ≠ '\'' := ne_of_isIdentStart hc rfl
  rw [after?, afterString?_name hw hr, afterByte?_unmarked c next, afterChar?_cons quote,
    afterFloat?_cons digit, afterInteger?_cons digit]
  rfl

/-- Nor with a raw one. -/
theorem after?_mark {cs : List Char} (h : Unmarked cs) : after? ('r' :: '#' :: cs) = none := by
  have string : afterString? ('r' :: '#' :: cs) = none := rawFrom?_mark h
  have byte : afterByte? ('r' :: '#' :: cs) = none := rfl
  rw [after?, string, byte, afterChar?_cons (by decide), afterFloat?_cons rfl,
    afterInteger?_cons rfl]
  rfl

end Literal

namespace Lexer

/-- The code points of white space. -/
def spaces : List Nat :=
  [9, 10, 11, 12, 13, 32, 0x85, 0xa0, 0x1680, 0x2000, 0x2001, 0x2002, 0x2003, 0x2004, 0x2005,
    0x2006, 0x2007, 0x2008, 0x2009, 0x200a, 0x2028, 0x2029, 0x202f, 0x205f, 0x3000, 0x200e, 0x200f]

theorem mem_spaces {c : Char} (h : isSpace c = true) : c.toNat ∈ spaces := by
  simp only [isSpace, Unicode.isBlank, Bool.or_eq_true, Bool.and_eq_true, decide_eq_true_eq,
    beq_iff_eq] at h
  simp only [spaces, List.mem_cons, List.not_mem_nil, or_false]
  omega

/-- No name begins with white space, nor goes on with it. -/
theorem isIdent_space {c : Char} (h : isSpace c = true) :
    isIdentStart c = false ∧ isIdentContinue c = false := by
  have none : ∀ n ∈ spaces,
      isIdentStart (Char.ofNat n) = false ∧ isIdentContinue (Char.ofNat n) = false := by
    decide +kernel
  have here := none c.toNat (mem_spaces h)
  rwa [Char.ofNat_toNat] at here

/-- The first character of a name is nothing that the lexer looks for before it looks for a name. -/
theorem outside_of_isIdentStart {c : Char} (h : isIdentStart c = true) :
    isSpace c = false ∧ closing? c = none ∧ punctuation.contains c = false := by
  refine ⟨?_, ?_, ?_⟩
  · cases space : isSpace c with
    | false => rfl
    | true =>
      have start := (isIdent_space space).1
      rw [h] at start
      cases start
  · have paren : c ≠ ')' := ne_of_isIdentStart h rfl
    have bracket : c ≠ ']' := ne_of_isIdentStart h rfl
    have brace : c ≠ '\x7d' := ne_of_isIdentStart h rfl
    simp [closing?, paren, bracket, brace]
  · have none : punctuation.all (fun x => !isIdentStart x) = true := rfl
    have absent : c ∉ punctuation := fun mem => by
      simpa [h] using List.all_eq_true.mp none c mem
    simpa using absent

theorem comment?_name {c : Char} (h : isIdentStart c = true) (cs : List Char) :
    comment? (c :: cs) = none := by
  have slash : c ≠ '/' := ne_of_isIdentStart h rfl
  simp [comment?, slash]

theorem opening?_name {c : Char} (h : isIdentStart c = true) (cs : List Char) :
    opening? (c :: cs) = none := by
  have paren : c ≠ '(' := ne_of_isIdentStart h rfl
  have bracket : c ≠ '[' := ne_of_isIdentStart h rfl
  have brace : c ≠ '\x7b' := ne_of_isIdentStart h rfl
  simp [opening?, paren, bracket, brace]

theorem punct?_name {c : Char} (h : isIdentStart c = true) (cs : List Char) :
    punct? (c :: cs) = none := by
  have slash : c ≠ '/' := ne_of_isIdentStart h rfl
  have sign : punctAt? (c :: cs) = none := by
    simpa [punctAt?, slash] using (outside_of_isIdentStart h).2.2
  rw [punct?, sign]

/-- What is neither a blank, a comment nor a delimiter is one token. -/
theorem tokens_leaf {c : Char} {cs : List Char} (space : isSpace c = false)
    (comment : comment? (c :: cs) = none) (opening : opening? (c :: cs) = none)
    (closing : closing? c = none) (fuel : Nat) (stack : List Delim) :
    tokens (fuel + 1) stack (c :: cs) =
      (leaf? (c :: cs)).bind fun p => (tokens fuel stack p.2).map (p.1 :: ·) := by
  simp only [tokens, space, comment, opening, closing, Bool.false_eq_true, if_false]
  cases leaf? (c :: cs) <;> rfl

theorem tokens_start {c : Char} (h : isIdentStart c = true) (fuel : Nat) (stack : List Delim)
    (cs : List Char) :
    tokens (fuel + 1) stack (c :: cs) =
      (leaf? (c :: cs)).bind fun p => (tokens fuel stack p.2).map (p.1 :: ·) := by
  obtain ⟨space, closing, _⟩ := outside_of_isIdentStart h
  exact tokens_leaf space (comment?_name h cs) (opening?_name h cs) closing fuel stack

/-- The longest name is taken, without a mark. -/
theorem anyIdent?_name {w rest : List Char} (hw : NameText w) (hr : Apart rest) :
    anyIdent? (w ++ rest) = some (⟨false, String.ofList w⟩, rest) := by
  obtain @⟨c, w, hc, others⟩ := hw
  have next := hr.unmarked_append others
  have ends : ∀ d ∈ rest.head?, isIdentContinue d = false := fun d hd => (hr.outside d hd).2
  have plain : ∀ cs, c :: (w ++ rest) ≠ 'r' :: '#' :: cs := by
    intro cs heq
    obtain ⟨_, tail⟩ := List.cons_eq_cons.mp heq
    rw [tail] at next
    exact absurd next (not_unmarked (by decide))
  rw [List.cons_append, anyIdent?]
  · simp [hc, takeWhile_name others ends, dropWhile_name others ends]
  · exact plain

/-- Five words cannot have the raw mark. -/
def neverRaw : List String := ["_", "super", "self", "Self", "crate"]

theorem anyIdent?_mark {w rest : List Char} (hw : NameText w) (hr : Apart rest) :
    anyIdent? ('r' :: '#' :: (w ++ rest)) =
      if neverRaw.contains (String.ofList w) then none
      else some (⟨true, String.ofList w⟩, rest) := by
  obtain @⟨c, w, hc, others⟩ := hw
  have ends : ∀ d ∈ rest.head?, isIdentContinue d = false := fun d hd => (hr.outside d hd).2
  simp [anyIdent?, hc, takeWhile_name others ends, dropWhile_name others ends, neverRaw]

theorem ident?_name {w rest : List Char} (hw : NameText w) (hr : Apart rest) :
    ident? (w ++ rest) = some (⟨false, String.ofList w⟩, rest) := by
  have any := anyIdent?_name hw hr
  obtain @⟨c, w, hc, others⟩ := hw
  have next := hr.unmarked_append others
  rw [← any, List.cons_append]
  generalize hn : w ++ rest = cs at next
  unfold ident?
  split
  case h_1 heq | h_2 heq | h_3 heq | h_4 heq | h_5 heq | h_8 heq =>
    obtain ⟨_, rfl⟩ := List.cons_eq_cons.mp heq
    exact absurd next (not_unmarked (by decide))
  case h_6 heq | h_7 heq | h_9 heq | h_10 heq =>
    obtain ⟨_, rfl⟩ := List.cons_eq_cons.mp heq
    exact absurd (hr.unmarked_tail others rfl hn) (not_unmarked (by decide))
  case h_11 => rfl

theorem ident?_mark {cs : List Char} (h : Unmarked cs) :
    ident? ('r' :: '#' :: cs) = anyIdent? ('r' :: '#' :: cs) := by
  cases cs with
  | nil => rfl
  | cons c cs =>
    obtain ⟨quote, _, mark⟩ := h c rfl
    simp [ident?, quote, mark]

theorem leaf?_name {w rest : List Char} (hw : NameText w) (hr : Apart rest) :
    leaf? (w ++ rest) = some (.ident ⟨false, String.ofList w⟩, rest) := by
  have name := ident?_name hw hr
  obtain @⟨c, w, hc, others⟩ := id hw
  rw [List.cons_append] at name ⊢
  simp only [leaf?, Literal.after?_name hw hr, punct?_name hc, name]

theorem leaf?_mark {w rest : List Char} (hw : NameText w) (hr : Apart rest) :
    leaf? ('r' :: '#' :: (w ++ rest)) =
      if neverRaw.contains (String.ofList w) then none
      else some (.ident ⟨true, String.ofList w⟩, rest) := by
  have next := hw.unmarked rest
  have failed : failure? ('r' :: '#' :: (w ++ rest)) = none := rfl
  have sign : punct? ('r' :: '#' :: (w ++ rest)) = none := punct?_name rfl _
  simp only [leaf?, Literal.after?_mark next, sign, ident?_mark next, anyIdent?_mark hw hr, failed]
  split_ifs <;> rfl

theorem tokens_name {w rest : List Char} (hw : NameText w) (hr : Apart rest) (fuel : Nat)
    (stack : List Delim) :
    tokens (fuel + 1) stack (w ++ rest) =
      (tokens fuel stack rest).map (.ident ⟨false, String.ofList w⟩ :: ·) := by
  have leaf := leaf?_name hw hr
  obtain @⟨c, w, hc, others⟩ := hw
  rw [List.cons_append] at leaf ⊢
  rw [tokens_start hc, leaf, Option.bind_some]

theorem tokens_raw {w rest : List Char} (hw : NameText w) (hr : Apart rest) (fuel : Nat)
    (stack : List Delim) :
    tokens (fuel + 1) stack ('r' :: '#' :: (w ++ rest)) =
      if neverRaw.contains (String.ofList w) then none
      else (tokens fuel stack rest).map (.ident ⟨true, String.ofList w⟩ :: ·) := by
  rw [tokens_start rfl, leaf?_mark hw hr]
  split_ifs <;> rfl

/-- A literal ends at the quote that was written last, and a suffix behind it belongs to it. -/
theorem after?_written {cs body : List Char} (h : Text.Quoted.Written cs body)
    (rest : List Char) :
    Literal.after? ('"' :: (body ++ '"' :: rest)) = some (Literal.afterSuffix rest) := by
  have enough : cs.length < (body ++ '"' :: rest).length + 1 := by
    have len := h.length_le
    simp only [List.length_append]
    omega
  have string : Literal.afterString? ('"' :: (body ++ '"' :: rest)) =
      some (Literal.afterSuffix rest) := by
    rw [Literal.afterString?, Literal.cookedFrom?, Text.Quoted.afterCooked_written h _ enough]
  rw [Literal.after?, string]
  rfl

/-- A quoted text is one literal, its quotes included. -/
theorem tokens_quote {cs body rest : List Char} (h : Text.Quoted.Written cs body)
    (hr : Literal.afterSuffix rest = rest) (fuel : Nat) (stack : List Delim) :
    tokens (fuel + 1) stack ('"' :: (body ++ '"' :: rest)) =
      (tokens fuel stack rest).map (.literal (String.ofList ('"' :: body ++ ['"'])) :: ·) := by
  have whole : '"' :: (body ++ '"' :: rest) = ('"' :: body ++ ['"']) ++ rest := by simp
  have spelled : ('"' :: (body ++ '"' :: rest)).take
      (('"' :: (body ++ '"' :: rest)).length - rest.length) = '"' :: body ++ ['"'] := by
    rw [whole, List.length_append, Nat.add_sub_cancel, List.take_left]
  have leaf : leaf? ('"' :: (body ++ '"' :: rest)) =
      some (.literal (String.ofList ('"' :: body ++ ['"'])), rest) := by
    rw [leaf?, after?_written h rest, hr]
    simp only [spelled]
  rw [tokens_leaf rfl rfl rfl rfl, leaf]
  rfl

theorem dropMark_eq_self {cs : List Char} (h : cs.head? ≠ some '\ufeff') :
    dropMark cs = cs := by
  cases cs with
  | nil => rfl
  | cons c cs =>
    rw [dropMark, if_neg]
    intro mark
    have same : c = '\ufeff' := Char.toNat_inj.mp mark
    exact h (congrArg some same)

theorem dropMark_word {w : List Char} (hw : Word w) (rest : List Char) :
    dropMark (w ++ rest) = w ++ rest := by
  cases w with
  | nil => cases hw
  | cons c w =>
    have small := Name.toNat_lt_of_isWord hw.head
    rw [List.cons_append, dropMark, if_neg (by omega)]

end Lexer

namespace Token

open Lexer (tokens tokens_name tokens_raw neverRaw)

/-- A word in front of a text is the first token of both. -/
theorem read?_append {s rest : String} (h : Word s.toList) (hr : Apart rest.toList) :
    read? (s ++ rest) =
      (tokens (s.toList.length + rest.toList.length) [] rest.toList).map
        (.ident ⟨false, s⟩ :: ·) := by
  have row := tokens_name (nameText_of_word h) hr (s.toList.length + rest.toList.length) []
  rw [read?, String.toList_append, Lexer.dropMark_word h, List.length_append, row,
    String.ofList_toList]

theorem read?_raw_append {s rest : String} (h : Word s.toList) (hr : Apart rest.toList) :
    read? ("r#" ++ s ++ rest) =
      if neverRaw.contains s then none
      else (tokens (s.toList.length + rest.toList.length + 2) [] rest.toList).map
        (.ident ⟨true, s⟩ :: ·) := by
  have row := tokens_raw (nameText_of_word h) hr (s.toList.length + rest.toList.length + 2) []
  have chars : ("r#" ++ s ++ rest).toList = 'r' :: '#' :: (s.toList ++ rest.toList) := by simp
  have mark : Lexer.dropMark ('r' :: '#' :: (s.toList ++ rest.toList)) =
      'r' :: '#' :: (s.toList ++ rest.toList) := rfl
  rw [String.ofList_toList] at row
  rw [read?, chars, mark, ← row, List.length_cons, List.length_cons, List.length_append]

theorem tokens_end {fuel : Nat} (h : 0 < fuel) : tokens fuel [] [] = some [] := by
  obtain ⟨fuel, rfl⟩ := Nat.exists_eq_succ_of_ne_zero (Nat.ne_of_gt h)
  rfl

/-- A word is one name. -/
theorem read?_word {s : String} (h : Word s.toList) : read? s = some [.ident ⟨false, s⟩] := by
  have some_char : 0 < s.toList.length := by
    cases hs : s.toList with
    | nil =>
      rw [hs] at h
      cases h
    | cons c cs => simp
  have row : read? (s ++ "") = _ := read?_append h Apart.nil
  rw [String.append_empty] at row
  rw [row, String.toList_empty, tokens_end (by simpa using some_char)]
  rfl

/-- A word with the raw mark is one raw name, unless it cannot be raw. -/
theorem read?_raw {s : String} (h : Word s.toList) :
    read? ("r#" ++ s) = if neverRaw.contains s then none else some [.ident ⟨true, s⟩] := by
  have row : read? ("r#" ++ s ++ "") = _ := read?_raw_append h Apart.nil
  rw [String.append_empty] at row
  rw [row, String.toList_empty, tokens_end (by omega)]
  rfl

/-- The call of a constructor, after the name of its type. -/
theorem tokens_constructor (fuel : Nat) :
    tokens (fuel + 6) [] "::new()".toList =
      some (Item.callTokens (Item.pathTokens [] ["new"]) []) := by
  rfl

/-- A literal by itself is one token. -/
theorem read?_written {cs body : List Char} (h : Text.Quoted.Written cs body) :
    read? (String.ofList ('"' :: body ++ ['"'])) =
      some [.literal (String.ofList ('"' :: body ++ ['"']))] := by
  have ending : Literal.afterSuffix [] = [] := rfl
  have row := Lexer.tokens_quote h ending (body.length + 2) []
  have mark : Lexer.dropMark ('"' :: (body ++ ['"'])) = '"' :: (body ++ ['"']) := rfl
  rw [tokens_end (by omega)] at row
  rw [read?, String.toList_ofList, List.cons_append, mark, List.length_cons, List.length_append,
    List.length_singleton, row]
  rfl

theorem read?_quote (s : String) :
    read? (Text.Quoted.quote s) = some [.literal (Text.Quoted.quote s)] :=
  read?_written (Text.Quoted.written_escape s.toList)

end Token

end TypedDecl.Code
