import TypedDecl.Json.Text
import TypedDecl.Proofs.Json.Cursors
import TypedDecl.Proofs.LetterCase

namespace TypedDecl.Json

open Cursor (Passes passes_cons passes_append passes_nil)
open Text (le_iff_toNat)
open Text.Quoted (hexValue?)

variable {c c' : Cursor} {ds t u : List Char} {n : Nat}

section Codes

theorem hexValue?_of_digit {ch : Char} (h : HexDigit ch n) : hexValue? ch = some n := by
  cases h with
  | decimal low high => simp [hexValue?, low, high]
  | small low high =>
    have above : ¬ ch ≤ '9' := fun le =>
      absurd (Nat.le_trans (le_iff_toNat.mp low) (le_iff_toNat.mp le)) (by decide)
    simp [hexValue?, above, low, high]
  | capital low high =>
    have above : ¬ ch ≤ '9' := fun le =>
      absurd (Nat.le_trans (le_iff_toNat.mp low) (le_iff_toNat.mp le)) (by decide)
    have below : ¬ 'a' ≤ ch := fun le =>
      absurd (Nat.le_trans (le_iff_toNat.mp le) (le_iff_toNat.mp high)) (by decide)
    simp [hexValue?, above, below, low, high]

theorem HexDigit.lt {ch : Char} (h : HexDigit ch n) : n < 16 := by
  cases h with
  | decimal low high | small low high | capital low high =>
    have high : ch.toNat ≤ _ := le_iff_toNat.mp high
    simp at high
    omega

theorem hexCode?_of_code (h : HexCode ds n) (r : List Char) : hexCode? (ds ++ r) = some n := by
  cases h with
  | digits first second third fourth =>
    simp only [List.cons_append, hexCode?, hexValue?_of_digit first, hexValue?_of_digit second,
      hexValue?_of_digit third, hexValue?_of_digit fourth, Option.bind_eq_bind, Option.bind_some,
      Option.pure_def, Option.some.injEq]
    omega

theorem HexCode.length (h : HexCode ds n) : ds.length = 4 := by
  cases h
  rfl

theorem HexCode.lt (h : HexCode ds n) : n < 0x10000 := by
  cases h with
  | digits first second third fourth =>
    have := first.lt
    have := second.lt
    have := third.lt
    have := fourth.lt
    omega

theorem hexCode_passes (h : HexCode ds n) (p : Passes c ds c') : hexCode c = .ok (n, c') := by
  have place : c.skip 4 = c' := h.length ▸ p.place
  rw [hexCode, p.rest, hexCode?_of_code h, place]

theorem isLow_iff : isLow n = true ↔ 0xdc00 ≤ n ∧ n < 0xe000 := by
  rw [isLow, Bool.and_eq_true, decide_eq_true_iff, decide_eq_true_iff]
  omega

theorem isHigh_iff : isHigh n = true ↔ 0xd800 ≤ n ∧ n < 0xdc00 := by
  rw [isHigh, Bool.and_eq_true, decide_eq_true_iff, decide_eq_true_iff]
  omega

/-- The codes of characters are those that are no surrogates. -/
theorem isValidChar_iff (h : n < 0x10000) :
    n.isValidChar ↔ isLow n = false ∧ isHigh n = false := by
  rw [← Bool.not_eq_true, ← Bool.not_eq_true, isLow_iff, isHigh_iff, Nat.isValidChar]
  omega

theorem codeEscape_char (h : HexCode ds n) (low : isLow n = false) (high : isHigh n = false)
    (p : Passes c ds c') : codeEscape c = .ok (Char.ofNat n, c') := by
  rw [codeEscape, hexCode_passes h p]
  simp [low, high, bind, Except.bind, pure, Except.pure]

theorem toNat_ofNat (h : n.isValidChar) : (Char.ofNat n).toNat = n := by
  rw [Char.ofNat, dif_pos h]
  rfl

variable {ds' : List Char} {m : Nat}

theorem isLow_of_isHigh (high : isHigh n = true) : isLow n = false := by
  rw [isHigh_iff] at high
  rw [← Bool.not_eq_true, isLow_iff]
  omega

/-- No escape begins with a surrogate that ends a pair. -/
theorem codeEscape_low (h : HexCode ds n) (low : isLow n = true) (p : Passes c ds c') :
    codeEscape c = c'.failHere .loneSurrogate := by
  rw [codeEscape, hexCode_passes h p]
  simp [low, bind, Except.bind]

theorem codeEscape_pair (h : HexCode ds n) (high : isHigh n = true) (h' : HexCode ds' m)
    (low : isLow m = true) (p : Passes c (ds ++ '\\' :: 'u' :: ds') c') :
    codeEscape c = .ok (pairChar n m, c') := by
  obtain ⟨mid, first, second⟩ := passes_append.mp p
  obtain ⟨slash, second⟩ := passes_cons.mp second
  obtain ⟨letter, second⟩ := passes_cons.mp second
  rw [codeEscape, hexCode_passes h first]
  simp [isLow_of_isHigh high, high, slash, letter, hexCode_passes h' second, low, bind,
    Except.bind, pure, Except.pure]

/-- Behind a surrogate that begins a pair only the escape of the other one is read. -/
theorem pair_of_codeEscape {c'' : Cursor} {ch : Char} (h : HexCode ds n) (high : isHigh n = true)
    (p : Passes c ds c') (read : codeEscape c = .ok (ch, c'')) :
    c'.peek? = some '\\' ∧ c'.next.peek? = some 'u' ∧
      ∃ m, hexCode c'.next.next = .ok (m, c'') ∧ isLow m = true ∧ ch = pairChar n m := by
  rw [codeEscape, hexCode_passes h p] at read
  simp only [isLow_of_isHigh high, high, bind, Except.bind, pure, Except.pure, Bool.not_true,
    Bool.false_eq_true, if_false] at read
  split at read
  · cases read
  · rename_i slash
    split at read
    · cases read
    · rename_i letter
      split at read
      · cases read
      · rename_i m second
        split at read
        · rename_i low
          obtain ⟨rfl, rfl⟩ := Prod.mk.inj (Except.ok.inj read)
          exact ⟨slash, letter, _, second, low, rfl⟩
        · cases read
    · cases read
  · cases read

end Codes

section Bodies

variable {ch : Char} {cs : List Char} {e : Char × Char} {fuel : Nat}

theorem letterEscape?_eq_some (known : e ∈ letterEscapes) :
    letterEscape? e.1 = some e.2 ∧ e.1 ≠ 'u' := by
  revert e
  decide

theorem escape_letter (known : e ∈ letterEscapes) (first : c.peek? = some e.1) :
    escape c = .ok (e.2, c.next) := by
  obtain ⟨letter, other⟩ := letterEscape?_eq_some known
  rw [escape, first]
  split
  · simp_all
  · simp_all
  · rename_i l _ same
    cases same
    rw [letter]

theorem escape_code (first : c.peek? = some 'u') : escape c = codeEscape c.next := by
  simp only [escape, first]

theorem stringBody_end (first : c.peek? = some '"') :
    stringBody (fuel + 1) c = .ok ([], c.next) := by
  simp only [stringBody, first]

theorem stringBody_plain (own : Unescaped ch) (first : c.peek? = some ch) :
    stringBody (fuel + 1) c = (stringBody fuel c.next).map fun (cs, c) => (ch :: cs, c) := by
  obtain ⟨noQuote, noSlash, large⟩ := own
  rw [stringBody, first]
  split
  · simp_all
  · simp_all
  · simp_all
  · rename_i l _ _ same
    cases same
    rw [if_neg (Nat.not_lt.mpr large)]

theorem stringBody_escape (first : c.peek? = some '\\') (read : escape c.next = .ok (ch, c')) :
    stringBody (fuel + 1) c = (stringBody fuel c').map fun (cs, c) => (ch :: cs, c) := by
  rw [stringBody, first]
  simp only [read]

theorem exists_escape {r : List Char × Cursor} (first : c.peek? = some '\\')
    (read : stringBody (fuel + 1) c = .ok r) : ∃ ch c', escape c.next = .ok (ch, c') := by
  simp only [stringBody, first] at read
  split at read
  · cases read
  · rename_i ch c' escaped
    exact ⟨ch, c', escaped⟩

theorem stringBody_code (digits : HexCode ds ch.toNat) (p : Passes c ('\\' :: 'u' :: ds) c') :
    stringBody (fuel + 1) c = (stringBody fuel c').map fun (cs, c) => (ch :: cs, c) := by
  obtain ⟨slash, p⟩ := passes_cons.mp p
  obtain ⟨letter, p⟩ := passes_cons.mp p
  obtain ⟨low, high⟩ := (isValidChar_iff digits.lt).mp ch.valid
  have read := (escape_code letter).trans (codeEscape_char digits low high p)
  rw [stringBody_escape slash read, Char.ofNat_toNat]

theorem stringBody_pair {ds' : List Char} {i j : Nat} (high : HexCode ds (0xd800 + i))
    (low : HexCode ds' (0xdc00 + j)) (small : j < 0x400)
    (char : ch.toNat = 0x10000 + 0x400 * i + j)
    (p : Passes c ('\\' :: 'u' :: (ds ++ '\\' :: 'u' :: ds')) c') :
    stringBody (fuel + 1) c = (stringBody fuel c').map fun (cs, c) => (ch :: cs, c) := by
  obtain ⟨slash, p⟩ := passes_cons.mp p
  obtain ⟨letter, p⟩ := passes_cons.mp p
  have first_high : isHigh (0xd800 + i) = true := by
    have valid := ch.valid
    rw [isHigh_iff]
    unfold UInt32.isValidChar Nat.isValidChar at valid
    change ch.toNat < _ ∨ _ < ch.toNat ∧ ch.toNat < _ at valid
    omega
  have second_low : isLow (0xdc00 + j) = true := by
    rw [isLow_iff]
    omega
  have same : pairChar (0xd800 + i) (0xdc00 + j) = ch := by
    have code : (0xd800 + i - 0xd800) * 0x400 + (0xdc00 + j - 0xdc00) + 0x10000 = ch.toNat := by
      omega
    rw [pairChar, code, Char.ofNat_toNat]
  have read := (escape_code letter).trans (codeEscape_pair high first_high low second_low p)
  rw [stringBody_escape slash read, same]

/-- What stands for a character is read as this one. -/
theorem stringBody_piece (h : Piece u ch) (p : Passes c u c') :
    stringBody (fuel + 1) c = (stringBody fuel c').map fun (cs, c) => (ch :: cs, c) := by
  cases h with
  | plain own =>
    obtain ⟨first, place⟩ := passes_cons.mp p
    rw [stringBody_plain own first, passes_nil.mp place]
  | letter known =>
    obtain ⟨slash, p⟩ := passes_cons.mp p
    obtain ⟨first, place⟩ := passes_cons.mp p
    rw [stringBody_escape slash (escape_letter known first), passes_nil.mp place]
  | code digits => exact stringBody_code digits p
  | pair high low small char => exact stringBody_pair high low small char p

theorem Piece.length_pos (h : Piece u ch) : 0 < u.length := by
  cases h <;> simp

/-- What denotes characters is read as these. -/
theorem stringBody_denotes (d : Denotes t cs) (enough : t.length < fuel)
    (p : Passes c (t ++ ['"']) c') : stringBody fuel c = .ok (cs, c') := by
  induction d generalizing fuel c with
  | nil =>
    obtain ⟨fuel, rfl⟩ := Nat.exists_eq_succ_of_ne_zero (Nat.ne_zero_of_lt enough)
    obtain ⟨first, place⟩ := passes_cons.mp p
    rw [stringBody_end first, passes_nil.mp place]
  | cons first rest ih =>
    obtain ⟨fuel, rfl⟩ := Nat.exists_eq_succ_of_ne_zero (Nat.ne_zero_of_lt enough)
    rw [List.append_assoc] at p
    obtain ⟨mid, front, back⟩ := passes_append.mp p
    have pos := first.length_pos
    rw [List.length_append] at enough
    rw [stringBody_piece first front, ih (by omega) back, Except.map]

/-- An escape that stands for no character has the code of a surrogate. -/
theorem Sign.piece (h : Sign u) :
    (∃ ch, Piece u ch) ∨
      ∃ ds n, u = '\\' :: 'u' :: ds ∧ HexCode ds n ∧ ¬ n.isValidChar := by
  cases h with
  | plain own => exact .inl ⟨_, .plain own⟩
  | letter known => exact .inl ⟨_, .letter known⟩
  | @code ds n digits =>
    by_cases valid : n.isValidChar
    · exact .inl ⟨Char.ofNat n, .code ((toNat_ofNat valid).symm ▸ digits)⟩
    · exact .inr ⟨ds, n, rfl, digits, valid⟩

/-- Behind a code that is no character's the other one of a pair stands. -/
theorem exists_low {c₁ c'' : Cursor} (digits : HexCode ds n) (invalid : ¬ n.isValidChar)
    (p : Passes c ds c') (q : Quoted t) (p' : Passes c' (t ++ ['"']) c'')
    (read : codeEscape c = .ok (ch, c₁)) :
    ∃ ds' m t', HexCode ds' m ∧ isHigh n = true ∧ isLow m = true ∧ ch = pairChar n m ∧
      Quoted t' ∧ t = '\\' :: 'u' :: ds' ++ t' ∧ Passes c₁ (t' ++ ['"']) c'' := by
  rw [isValidChar_iff digits.lt, not_and_or, Bool.not_eq_false, Bool.not_eq_false] at invalid
  -- The code of a low surrogate fails at once; that of a high one asks for another escape, and of
  -- what may stand between quotes only an escape by code begins as it should.
  rcases invalid with low | high
  · rw [codeEscape_low digits low p] at read
    cases read
  · obtain ⟨slash, letter, m, second, low, same⟩ := pair_of_codeEscape digits high p read
    cases q with
    | nil =>
      rw [(passes_cons.mp p').1] at slash
      cases slash
    | cons first rest =>
      rw [List.append_assoc] at p'
      obtain ⟨mid, front, back⟩ := passes_append.mp p'
      cases first with
      | plain own =>
        rw [(passes_cons.mp front).1] at slash
        cases slash
        exact absurd rfl own.2.1
      | letter known =>
        obtain ⟨-, front⟩ := passes_cons.mp front
        rw [(passes_cons.mp front).1] at letter
        exact absurd (Option.some.inj letter) (letterEscape?_eq_some known).2
      | @code ds' k digits' =>
        obtain ⟨-, front⟩ := passes_cons.mp front
        obtain ⟨-, front⟩ := passes_cons.mp front
        rw [hexCode_passes digits' front] at second
        obtain ⟨rfl, rfl⟩ := Prod.mk.inj (Except.ok.inj second)
        exact ⟨ds', k, _, digits', high, low, same, rest, rfl, back⟩

theorem piece_of_pair {ds' : List Char} {m : Nat} (digits : HexCode ds n)
    (digits' : HexCode ds' m) (high : isHigh n = true) (low : isLow m = true)
    (same : ch = pairChar n m) : Piece ('\\' :: 'u' :: (ds ++ '\\' :: 'u' :: ds')) ch := by
  obtain ⟨least, less⟩ := isHigh_iff.mp high
  obtain ⟨least', less'⟩ := isLow_iff.mp low
  have code : ch.toNat = 0x10000 + 0x400 * (n - 0xd800) + (m - 0xdc00) := by
    rw [same, pairChar, toNat_ofNat (by unfold Nat.isValidChar; omega)]
    omega
  have first : HexCode ds (0xd800 + (n - 0xd800)) := by rwa [Nat.add_sub_cancel' least]
  have second : HexCode ds' (0xdc00 + (m - 0xdc00)) := by rwa [Nat.add_sub_cancel' least']
  exact .pair first second (by omega) code

/-- What is read at all denotes the characters that are read. -/
theorem denotes_of_stringBody {c'' : Cursor} (q : Quoted t) (p : Passes c (t ++ ['"']) c')
    (read : stringBody fuel c = .ok (cs, c'')) : Denotes t cs := by
  induction fuel generalizing c t cs with
  | zero => cases read
  | succ fuel ih =>
    -- What is read behind the first character denotes the others.
    have tail {ch : Char} {c₁ : Cursor} {t₁ : List Char} (q : Quoted t₁)
        (p : Passes c₁ (t₁ ++ ['"']) c')
        (read : (stringBody fuel c₁).map (fun (cs, c) => (ch :: cs, c)) = .ok (cs, c'')) :
        ∃ rest, cs = ch :: rest ∧ Denotes t₁ rest := by
      cases body : stringBody fuel c₁ with
      | error e =>
        rw [body] at read
        cases read
      | ok r =>
        obtain ⟨rest, c₂⟩ := r
        rw [body, Except.map] at read
        obtain ⟨rfl, rfl⟩ := Prod.mk.inj (Except.ok.inj read)
        exact ⟨rest, rfl, ih q p body⟩
    cases q with
    | nil =>
      obtain ⟨first, -⟩ := passes_cons.mp p
      rw [stringBody_end first] at read
      cases read
      exact .nil
    | cons first rest =>
      rw [List.append_assoc] at p
      obtain ⟨mid, front, back⟩ := passes_append.mp p
      rcases first.piece with ⟨ch, piece⟩ | ⟨ds, n, rfl, digits, invalid⟩
      · rw [stringBody_piece piece front] at read
        obtain ⟨cs, rfl, denotes⟩ := tail rest back read
        exact .cons piece denotes
      · obtain ⟨slash, front⟩ := passes_cons.mp front
        obtain ⟨letter, front⟩ := passes_cons.mp front
        obtain ⟨ch, c₁, escaped⟩ := exists_escape slash read
        rw [stringBody_escape slash escaped] at read
        rw [escape_code letter] at escaped
        obtain ⟨ds', m, t', digits', high, low, same, rest', rfl, back'⟩ :=
          exists_low digits invalid front rest back escaped
        obtain ⟨cs, rfl, denotes⟩ := tail rest' back' read
        have both := Denotes.cons (piece_of_pair digits digits' high low same) denotes
        simpa using both

end Bodies

section Strings

variable {fuel more : Nat} {o : Option String} {ch : Char}

theorem Piece.quoted (h : Piece u ch) (q : Quoted t) : Quoted (u ++ t) := by
  cases h with
  | plain own => exact .cons (.plain own) q
  | letter known => exact .cons (.letter known) q
  | code digits => exact .cons (.code digits) q
  | pair high low =>
    have both := Quoted.cons (.code high) (.cons (.code low) q)
    simpa using both

theorem Denotes.quoted {cs : List Char} (d : Denotes t cs) : Quoted t := by
  induction d with
  | nil => exact .nil
  | cons first _ ih => exact first.quoted ih

theorem Means.quoted (m : Means t o) : Quoted t := by
  cases o with
  | none => exact m.1
  | some s => exact Denotes.quoted m

/-- A string is read as the text that it stands for; one that stands for none is refused. -/
theorem string_means (m : Means t o) (enough : t.length < more) (p : Passes c (t ++ ['"']) c') :
    Gives (string more c) o c' := by
  cases o with
  | some s =>
    have read := stringBody_denotes m enough p
    change string more c = .ok (s, c')
    simp only [string, read, Except.map, String.ofList_toList]
  | none =>
    obtain ⟨quoted, nothing⟩ := m
    unfold string
    cases read : stringBody more c with
    | error e => exact ⟨e, rfl⟩
    | ok r => exact absurd (denotes_of_stringBody quoted p read) (nothing r.1)

theorem skipEscape_letter {e : Char × Char} (known : e ∈ letterEscapes)
    (first : c.peek? = some e.1) : skipEscape c = .ok c.next := by
  obtain ⟨letter, other⟩ := letterEscape?_eq_some known
  rw [skipEscape, first]
  split
  · simp_all
  · simp_all
  · rename_i l _ same
    cases same
    rw [letter]
    rfl

theorem skipEscape_code (digits : HexCode ds n) (first : c.peek? = some 'u')
    (p : Passes c.next ds c') : skipEscape c = .ok c' := by
  simp only [skipEscape, first, hexCode_passes digits p, Except.map]

theorem skipString_escape (first : c.peek? = some '\\') (read : skipEscape c.next = .ok c') :
    skipString (fuel + 1) c = skipString fuel c' := by
  rw [skipString, first]
  simp only [read]

theorem skipString_plain (own : Unescaped ch) (first : c.peek? = some ch) :
    skipString (fuel + 1) c = skipString fuel c.next := by
  obtain ⟨noQuote, noSlash, large⟩ := own
  rw [skipString, first]
  split
  · simp_all
  · simp_all
  · simp_all
  · rename_i l _ _ same
    cases same
    rw [if_neg (Nat.not_lt.mpr large)]

theorem skipString_sign (h : Sign u) (p : Passes c u c') :
    skipString (fuel + 1) c = skipString fuel c' := by
  cases h with
  | plain own =>
    obtain ⟨first, place⟩ := passes_cons.mp p
    rw [skipString_plain own first, passes_nil.mp place]
  | letter known =>
    obtain ⟨slash, p⟩ := passes_cons.mp p
    obtain ⟨first, place⟩ := passes_cons.mp p
    rw [skipString_escape slash (skipEscape_letter known first), passes_nil.mp place]
  | code digits =>
    obtain ⟨slash, p⟩ := passes_cons.mp p
    obtain ⟨letter, p⟩ := passes_cons.mp p
    exact skipString_escape slash (skipEscape_code digits letter p)

theorem Sign.length_pos (h : Sign u) : 0 < u.length := by
  cases h <;> simp

/-- Every string is passed over, whether it stands for a text or not. -/
theorem skipString_quoted (q : Quoted t) (enough : t.length < fuel)
    (p : Passes c (t ++ ['"']) c') : skipString fuel c = .ok c' := by
  induction q generalizing fuel c with
  | nil =>
    obtain ⟨fuel, rfl⟩ := Nat.exists_eq_succ_of_ne_zero (Nat.ne_zero_of_lt enough)
    obtain ⟨first, place⟩ := passes_cons.mp p
    simp only [skipString, first, passes_nil.mp place]
  | cons first rest ih =>
    obtain ⟨fuel, rfl⟩ := Nat.exists_eq_succ_of_ne_zero (Nat.ne_zero_of_lt enough)
    rw [List.append_assoc] at p
    obtain ⟨mid, front, back⟩ := passes_append.mp p
    have pos := first.length_pos
    rw [List.length_append] at enough
    rw [skipString_sign first front]
    exact ih (by omega) back

end Strings

end TypedDecl.Json
