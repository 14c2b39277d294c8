import Mathlib
import TypedDecl.Code.Lexer

namespace TypedDecl.Text.Quoted

open Code.Literal (Content afterCooked? afterSuffix)

theorem hexValue?_hexDigit : ∀ d < 16, hexValue? (hexDigit d) = some d := by decide

theorem hexDigit_ne : ∀ d < 16, hexDigit d ≠ '_' ∧ hexDigit d ≠ '\x7d' := by decide

/-- The value of digits, the first one first. -/
def valueOf (ds : List Nat) : Nat := ds.foldl (fun n d => n * 16 + d) 0

/-- The digits of a number are in front of what was there, at least one and at most so many. -/
theorem hexGo_digits (k n : Nat) (acc : List Char) (h : n < 16 ^ (k + 1)) :
    ∃ ds : List Nat, hexGo (k + 1) n acc = ds.map hexDigit ++ acc ∧ valueOf ds = n ∧
      (∀ d ∈ ds, d < 16) ∧ 0 < ds.length ∧ ds.length ≤ k + 1 := by
  induction k generalizing n acc with
  | zero =>
    have small : n < 16 := by simpa using h
    exact ⟨[n], by simp [hexGo, small], by simp [valueOf], by simpa using small, by simp, by simp⟩
  | succ k ih =>
    by_cases small : n < 16
    · refine ⟨[n], by simp [hexGo, small], by simp [valueOf], by simpa using small, by simp, ?_⟩
      simp
    · have less : n / 16 < 16 ^ (k + 1) := by
        rw [Nat.div_lt_iff_lt_mul (by decide), ← Nat.pow_succ]
        exact h
      obtain ⟨ds, hg, hv, hd, hpos, hlen⟩ := ih (n / 16) (hexDigit (n % 16) :: acc) less
      refine ⟨ds ++ [n % 16], ?_, ?_, ?_, by simp, by simpa using hlen⟩
      · rw [hexGo, if_neg small, hg]
        simp
      · have step : valueOf (ds ++ [n % 16]) = valueOf ds * 16 + n % 16 := by
          simp [valueOf, List.foldl_append]
        rw [step, hv]
        omega
      · intro d hd'
        rcases List.mem_append.mp hd' with old | last
        · exact hd d old
        · rw [List.mem_singleton.mp last]
          exact Nat.mod_lt n (by decide)

theorem readCode_digits (ds : List Nat) (rest : List Char) (count value : Nat)
    (hd : ∀ d ∈ ds, d < 16) (hc : count + ds.length ≤ 6) :
    readCode (ds.map hexDigit ++ rest) count value =
      readCode rest (count + ds.length) (ds.foldl (fun n d => n * 16 + d) value) := by
  induction ds generalizing count value with
  | nil => rfl
  | cons d ds ih =>
    have hlt : d < 16 := hd d List.mem_cons_self
    obtain ⟨hu, hb⟩ := hexDigit_ne d hlt
    have room : count ≠ 6 := by
      simp only [List.length_cons] at hc
      omega
    have tail := ih (count + 1) (value * 16 + d) (fun x hx => hd x (List.mem_cons_of_mem d hx))
      (by simp only [List.length_cons] at hc; omega)
    simp only [List.map_cons, List.cons_append, readCode, hu, hb, hexValue?_hexDigit d hlt, room,
      if_false, tail, List.length_cons, List.foldl_cons]
    congr 1
    omega

theorem charOfCode?_toNat (c : Char) : charOfCode? c.toNat = some c := by
  have h : c.toNat.isValidChar := c.valid
  simp only [charOfCode?, h, dite_true, Option.some.injEq]
  rfl

theorem toNat_lt (c : Char) : c.toNat < 16 ^ 6 := by
  have h : c.toNat.isValidChar := c.valid
  simp only [Nat.isValidChar] at h
  omega

theorem readCode_hex (c : Char) (rest : List Char) :
    readCode (hex c.toNat ++ '\x7d' :: rest) 0 0 = some (c, rest) := by
  obtain ⟨ds, hg, hv, hd, hpos, hlen⟩ := hexGo_digits 5 c.toNat [] (toNat_lt c)
  have some_digit : 0 + ds.length ≠ 0 := by omega
  rw [hex, hg, List.append_nil, readCode_digits ds _ 0 0 hd (by omega)]
  change readCode ('\x7d' :: rest) (0 + ds.length) (valueOf ds) = _
  rw [hv]
  simp [readCode, charOfCode?_toNat, Nat.ne_of_gt hpos]

/-- How one character can be written: as itself, or behind a backslash in a form that both readers
take as an escape whatever follows it. -/
inductive Spells : List Char → Char → Prop
  | itself (c : Char) (quote : c ≠ '"') (slash : c ≠ '\\') (line : c ≠ '\r') : Spells [c] c
  | escape (mark : Char) (form : List Char) (c : Char) (feed : mark ≠ '\n') (line : mark ≠ '\r')
      (read : ∀ rest, readEscape (mark :: form ++ rest) = some (c, rest))
      (after : ∀ rest, Content.text.afterEscape? (mark :: form ++ rest) = some rest) :
      Spells ('\\' :: mark :: form) c

theorem readBody_spells {form : List Char} {c : Char} (h : Spells form c) (fuel : Nat)
    (rest : List Char) : readBody (fuel + 1) (form ++ rest) = (readBody fuel rest).map (c :: ·) := by
  cases h with
  | itself c quote slash line =>
    rw [List.cons_append, List.nil_append, readBody] <;> simp_all
  | escape mark form c feed line read after =>
    rw [List.cons_append, List.cons_append, readBody, ← List.cons_append, read]
    · cases hb : readBody fuel rest <;> simp [hb]
    · simp_all
    · simp_all

theorem afterCooked_spells {form : List Char} {c : Char} (h : Spells form c) (fuel : Nat)
    (rest : List Char) :
    afterCooked? .text (fuel + 1) (form ++ rest) = afterCooked? .text fuel rest := by
  cases h with
  | itself c quote slash line =>
    rw [List.cons_append, List.nil_append, afterCooked?] <;> simp_all [Content.allows]
  | escape mark form c feed line read after =>
    rw [List.cons_append, List.cons_append, afterCooked?, ← List.cons_append, after]
    · rfl
    · simp_all
    · simp_all

/-- The characters of a text, each written in one of its forms. -/
inductive Written : List Char → List Char → Prop
  | nil : Written [] []
  | cons {form body cs : List Char} {c : Char} (first : Spells form c) (others : Written cs body) :
      Written (c :: cs) (form ++ body)

theorem Spells.ne_nil {form : List Char} {c : Char} (h : Spells form c) : 0 < form.length := by
  cases h <;> simp

theorem Written.length_le {cs body : List Char} (h : Written cs body) :
    cs.length ≤ body.length := by
  induction h with
  | nil => simp
  | cons first others ih =>
    have pos := first.ne_nil
    simp only [List.length_cons, List.length_append]
    omega

theorem readBody_written {cs body : List Char} (h : Written cs body) (fuel : Nat)
    (enough : cs.length < fuel) (rest : List Char) :
    readBody fuel (body ++ '"' :: rest) = some cs := by
  induction h generalizing fuel with
  | nil =>
    obtain ⟨fuel, rfl⟩ := Nat.exists_eq_succ_of_ne_zero (Nat.ne_of_gt enough)
    rfl
  | cons first others ih =>
    obtain ⟨fuel, rfl⟩ := Nat.exists_eq_succ_of_ne_zero (Nat.ne_of_gt (Nat.zero_lt_of_lt enough))
    simp only [List.length_cons, Nat.succ_eq_add_one] at enough
    rw [List.append_assoc, readBody_spells first, ih fuel (by omega)]
    rfl

theorem afterCooked_written {cs body : List Char} (h : Written cs body) (fuel : Nat)
    (enough : cs.length < fuel) (rest : List Char) :
    afterCooked? .text fuel (body ++ '"' :: rest) = some (afterSuffix rest) := by
  induction h generalizing fuel with
  | nil =>
    obtain ⟨fuel, rfl⟩ := Nat.exists_eq_succ_of_ne_zero (Nat.ne_of_gt enough)
    rfl
  | cons first others ih =>
    obtain ⟨fuel, rfl⟩ := Nat.exists_eq_succ_of_ne_zero (Nat.ne_of_gt (Nat.zero_lt_of_lt enough))
    simp only [List.length_cons, Nat.succ_eq_add_one] at enough
    rw [List.append_assoc, afterCooked_spells first, ih fuel (by omega)]

theorem spells_code (c : Char) : Spells (escapeByCode c) c := by
  refine .escape 'u' ('\x7b' :: hex c.toNat ++ ['\x7d']) c (by decide) (by decide) ?_ ?_
  · intro rest
    simp [readEscape, readCode_hex]
  · intro rest
    simp [Content.afterEscape?, readCode_hex]

theorem spells_escapeChar (c : Char) : Spells (escapeChar c) c := by
  have mark (m x : Char) (feed : m ≠ '\n') (line : m ≠ '\r')
      (read : ∀ rest, readEscape (m :: rest) = some (x, rest))
      (after : ∀ rest, Content.text.afterEscape? (m :: rest) = some rest) : Spells ['\\', m] x :=
    .escape m [] x feed line read after
  unfold escapeChar
  split_ifs with tab line feed quote slash shown
  · subst tab
    exact mark 't' '\t' (by decide) (by decide) (fun _ => rfl) (fun _ => rfl)
  · subst line
    exact mark 'r' '\r' (by decide) (by decide) (fun _ => rfl) (fun _ => rfl)
  · subst feed
    exact mark 'n' '\n' (by decide) (by decide) (fun _ => rfl) (fun _ => rfl)
  · subst quote
    exact mark '"' '"' (by decide) (by decide) (fun _ => rfl) (fun _ => rfl)
  · subst slash
    exact mark '\\' '\\' (by decide) (by decide) (fun _ => rfl) (fun _ => rfl)
  · exact .itself c quote slash line
  · exact spells_code c

theorem spells_null (c : Char) (h : c.toNat = 0) : Spells ['\\', '0'] c := by
  have null : c = Char.ofNat 0 := by
    rw [← h, Char.ofNat_toNat]
  subst null
  exact .escape '0' [] _ (by decide) (by decide) (fun _ => rfl) (fun _ => rfl)

theorem spells_nullCode (c : Char) (h : c.toNat = 0) : Spells ['\\', 'x', '0', '0'] c := by
  have null : c = Char.ofNat 0 := by
    rw [← h, Char.ofNat_toNat]
  subst null
  exact .escape 'x' ['0', '0'] _ (by decide) (by decide) (fun _ => rfl) (fun _ => rfl)

theorem written_escape (cs : List Char) : Written cs (escape cs) := by
  induction cs with
  | nil => exact .nil
  | cons c cs ih =>
    rw [escape]
    refine .cons ?_ ih
    split_ifs with null
    · exact spells_null c null
    · exact spells_escapeChar c

theorem written_escapeGuarded (cs : List Char) : Written cs (escapeGuarded cs) := by
  induction cs with
  | nil => exact .nil
  | cons c cs ih =>
    rw [escapeGuarded]
    refine .cons ?_ ih
    split_ifs with null octal
    · exact spells_nullCode c null
    · exact spells_null c null
    · exact spells_escapeChar c

theorem decode_written {s : String} {body : List Char} (h : Written s.toList body) :
    decode (String.ofList ('"' :: body ++ ['"'])) = some s := by
  have enough : s.toList.length < (body ++ ['"']).length + 1 := by
    have len := h.length_le
    simp only [List.length_append, List.length_singleton]
    omega
  rw [decode, String.toList_ofList, List.cons_append]
  simp only [readBody_written h _ enough [], Option.map_some, String.ofList_toList]

/-- A member value stands for the text that it was made from. -/
theorem decode_quote (s : String) : decode (quote s) = some s :=
  decode_written (written_escape s.toList)

/-- So does the value of a constant. -/
theorem decode_quoteGuarded (s : String) : decode (quoteGuarded s) = some s :=
  decode_written (written_escapeGuarded s.toList)

end TypedDecl.Text.Quoted
