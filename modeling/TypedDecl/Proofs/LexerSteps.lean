import Mathlib.Data.List.Basic
import TypedDecl.Code.Lexer

namespace TypedDecl.Code

open Unicode (isIdentContinue)

/-- What is left, if anything is found, has so many characters at most. -/
structure Leaves (n : ℕ) (found : Option (List Char)) : Prop where
  bound : ∀ rest ∈ found, rest.length ≤ n

namespace Leaves

variable {m n : ℕ} {cs : List Char} {found other : Option (List Char)}

theorem none : Leaves n none := ⟨nofun⟩

theorem some (h : cs.length ≤ n) : Leaves n (some cs) := by
  refine ⟨?_⟩
  rintro _ ⟨⟩
  exact h

theorem mono (h : Leaves m found) (le : m ≤ n) : Leaves n found :=
  ⟨fun rest found => Nat.le_trans (h.bound rest found) le⟩

theorem cons {c : Char} (h : Leaves cs.length found) : Leaves (c :: cs).length found :=
  h.mono (Nat.le_succ _)

theorem bind {f : List Char → Option (List Char)} (h : Leaves m found)
    (next : ∀ rest, rest.length ≤ m → Leaves n (f rest)) : Leaves n (found.bind f) := by
  cases found with
  | none => exact none
  | some rest => exact next rest (h.bound rest rfl)

theorem ite {p : Prop} [Decidable p] (h : Leaves n found) (h' : Leaves n other) :
    Leaves n (if p then found else other) := by
  split_ifs
  · exact h
  · exact h'

theorem orElse (h : Leaves n found) (h' : Leaves n other) : Leaves n (found <|> other) := by
  cases found with
  | none => exact h'
  | some rest => exact h

end Leaves

namespace Literal

open Text.Quoted (readCode)

variable {cs rest : List Char} {k : Content} {n : ℕ}

theorem leaves_afterIdent? (cs : List Char) : Leaves (cs.length - 1) (afterIdent? cs) := by
  cases cs with
  | nil => exact .none
  | cons c cs => exact .ite (.some (List.dropWhile_suffix _).length_le) .none

theorem length_afterSuffix (cs : List Char) : (afterSuffix cs).length ≤ cs.length := by
  have leaves := leaves_afterIdent? cs
  rw [afterSuffix]
  cases found : afterIdent? cs with
  | none => exact Nat.le_refl _
  | some rest =>
    have shorter := leaves.bound rest found
    simp only [Option.getD_some]
    omega

theorem length_readCode {count value : ℕ} {c : Char}
    (h : readCode cs count value = some (c, rest)) : rest.length ≤ cs.length := by
  fun_induction readCode cs count value <;> simp_all <;> omega

theorem leaves_afterEscape? (k : Content) (cs : List Char) :
    Leaves cs.length (k.afterEscape? cs) := by
  unfold Content.afterEscape?
  split
  · exact .ite (.some (by simp; omega)) .none
  · next cs =>
    split
    · exact .none
    · exact .none
    · next read =>
      have short := length_readCode read
      exact .ite .none (.some (Nat.le_succ_of_le (Nat.le_succ_of_le short)))
    · next read =>
      have short := length_readCode read
      exact .some (Nat.le_succ_of_le (Nat.le_succ_of_le short))
  · exact .ite (.some (by simp)) (.ite (.some (by simp)) .none)
  · exact .none

theorem leaves_afterGap? (returned : Bool) (cs : List Char) :
    Leaves cs.length (afterGap? returned cs) := by
  fun_induction afterGap? returned cs with
  | case1 cs ih => exact ih.cons
  | case2 => exact .none
  | case3 => exact .none
  | case4 cs ih => exact ih.cons
  | case5 c cs _ _ ih => exact ih.cons
  | case6 c cs => exact .some (Nat.le_refl _)

theorem leaves_afterCooked? (k : Content) (fuel : ℕ) (cs : List Char) :
    Leaves cs.length (afterCooked? k fuel cs) := by
  induction fuel generalizing cs with
  | zero => exact .none
  | succ fuel ih =>
    unfold afterCooked?
    split
    · exact .none
    · next rest => exact .some (Nat.le_succ_of_le (length_afterSuffix rest))
    · next rest => exact (ih rest).cons.cons
    · exact .none
    · next rest =>
      refine (leaves_afterGap? false rest).bind fun behind short => ?_
      exact (ih behind).mono (Nat.le_succ_of_le (Nat.le_succ_of_le short))
    · next rest =>
      refine (leaves_afterGap? true rest).bind fun behind short => ?_
      exact (ih behind).mono (Nat.le_succ_of_le (Nat.le_succ_of_le short))
    · next rest _ _ =>
      refine (leaves_afterEscape? k rest).bind fun behind short => ?_
      exact (ih behind).mono (Nat.le_add_right_of_le short)
    · next c rest _ _ _ _ _ _ => exact .ite (ih rest).cons .none

theorem leaves_afterRaw? (k : Content) (marks : ℕ) (cs : List Char) :
    Leaves cs.length (afterRaw? k marks cs) := by
  fun_induction afterRaw? k marks cs with
  | case1 => exact .none
  | case2 rest _ =>
    have short := length_afterSuffix (rest.drop marks)
    rw [List.length_drop] at short
    exact .some (by rw [List.length_cons]; omega)
  | case3 rest _ ih => exact ih.cons
  | case4 rest ih => exact ih.cons.cons
  | case5 => exact .none
  | case6 c rest _ _ _ _ ih => exact ih.cons
  | case7 => exact .none

theorem leaves_rawFrom? (k : Content) (cs : List Char) : Leaves cs.length (rawFrom? k cs) := by
  unfold rawFrom?
  dsimp only
  split
  · next rest dropped =>
    have short := congrArg List.length dropped
    rw [List.length_drop, List.length_cons] at short
    exact .ite ((leaves_afterRaw? k _ rest).mono (by omega)) .none
  · exact .none

/-- Whatever literal it is, its first character is taken. -/
theorem leaves_afterString? (cs : List Char) : Leaves (cs.length - 1) (afterString? cs) := by
  unfold afterString?
  split
  · exact leaves_afterCooked? ..
  · exact leaves_rawFrom? ..
  · exact (leaves_afterCooked? ..).mono (Nat.le_succ _)
  · exact (leaves_rawFrom? ..).mono (Nat.le_succ _)
  · exact (leaves_afterCooked? ..).mono (Nat.le_succ _)
  · exact (leaves_rawFrom? ..).mono (Nat.le_succ _)
  · exact .none

theorem leaves_afterQuote? (cs : List Char) : Leaves cs.length (afterQuote? cs) := by
  unfold afterQuote?
  split
  · next cs => exact .some (Nat.le_succ_of_le (length_afterSuffix cs))
  · exact .none

theorem leaves_afterByte? (cs : List Char) : Leaves (cs.length - 1) (afterByte? cs) := by
  unfold afterByte?
  split
  · next cs =>
    refine (leaves_afterEscape? _ cs).bind fun rest short => ?_
    exact (leaves_afterQuote? rest).mono (Nat.le_succ_of_le (Nat.le_succ_of_le short))
  · next c cs _ => exact .ite ((leaves_afterQuote? cs).mono (Nat.le_add_right _ 2)) .none
  · exact .none

theorem leaves_afterChar? (cs : List Char) : Leaves (cs.length - 1) (afterChar? cs) := by
  unfold afterChar?
  split
  · next cs =>
    refine (leaves_afterEscape? _ cs).bind fun rest short => ?_
    exact (leaves_afterQuote? rest).mono (Nat.le_add_right_of_le short)
  · next c cs _ => exact (leaves_afterQuote? cs).mono (Nat.le_succ _)
  · exact .none

theorem length_afterMantissa? {pointed pointed' : Bool}
    (h : afterMantissa? pointed cs = some (pointed', rest)) : rest.length ≤ cs.length := by
  fun_induction afterMantissa? pointed cs <;> simp_all <;> omega

theorem leaves_afterExponent? (signed valued : Bool) (cs : List Char) :
    Leaves cs.length (afterExponent? signed valued cs) := by
  induction cs generalizing signed valued with
  | nil => exact .ite (.some (Nat.le_refl _)) .none
  | cons c cs ih =>
    have whole : Leaves (c :: cs).length (some (c :: cs)) := .some (Nat.le_refl _)
    rw [afterExponent?]
    exact .ite (.ite whole (.ite .none (ih ..).cons))
      (.ite (ih ..).cons (.ite (ih ..).cons (.ite whole .none)))

theorem leaves_numberEnd? (cs : List Char) : Leaves cs.length (numberEnd? cs) := by
  have suffix := length_afterSuffix cs
  unfold numberEnd?
  split
  · next found => exact .ite .none (.some (by rwa [found] at suffix))
  · exact .some (by simp)

theorem leaves_afterFloat? (cs : List Char) : Leaves (cs.length - 1) (afterFloat? cs) := by
  unfold afterFloat?
  split
  · next c rest =>
    refine .ite ?_ .none
    split
    · exact .none
    · next pointed behind digits =>
      have short := length_afterMantissa? digits
      simp only [List.length_cons, Nat.add_sub_cancel]
      split
      · next e tail =>
        have whole : Leaves rest.length (if pointed then numberEnd? (e :: tail) else none) :=
          .ite ((leaves_numberEnd? _).mono short) .none
        refine .ite ?_ whole
        split
        · next rest' exponent =>
          have shorter := (leaves_afterExponent? false false tail).bound rest' exponent
          exact (leaves_numberEnd? _).mono (by simp at short; omega)
        · exact whole
      · exact .ite (.some (by simp)) .none
  · exact .none

/-- If there is no digit yet, one is taken. -/
theorem leaves_afterDigits? (base : ℕ) (empty : Bool) (cs : List Char) :
    Leaves (cs.length - empty.toNat) (afterDigits? base empty cs) := by
  induction cs generalizing empty with
  | nil => exact .ite .none (.some (Nat.zero_le _))
  | cons c cs ih =>
    have whole : Leaves ((c :: cs).length - empty.toNat)
        (if empty then none else some (c :: cs)) := by
      cases empty with
      | true => exact .none
      | false => exact .some (Nat.le_refl _)
    have fewer (found : Bool) : Leaves ((c :: cs).length - empty.toNat)
        (afterDigits? base found cs) := by
      have one := empty.toNat_le
      exact (ih found).mono (by rw [List.length_cons]; omega)
    rw [afterDigits?]
    refine .ite (.ite .none (fewer empty)) ?_
    split
    · exact .ite (fewer false) (.ite .none whole)
    · exact whole

theorem leaves_afterInteger? (cs : List Char) : Leaves (cs.length - 1) (afterInteger? cs) := by
  unfold afterInteger?
  refine Leaves.bind (m := cs.length - 1) ?_ fun rest short => (leaves_numberEnd? rest).mono short
  split
  · exact (leaves_afterDigits? ..).mono (by simp; omega)
  · exact (leaves_afterDigits? ..).mono (by simp; omega)
  · exact (leaves_afterDigits? ..).mono (by simp; omega)
  · exact leaves_afterDigits? 10 true cs

theorem leaves_after? (cs : List Char) : Leaves (cs.length - 1) (after? cs) :=
  .orElse (leaves_afterString? cs) (.orElse (leaves_afterByte? cs) (.orElse (leaves_afterChar? cs)
    (.orElse (leaves_afterFloat? cs) (leaves_afterInteger? cs))))

end Literal

namespace Lexer

variable {cs rest : List Char} {ts : List Token} {t : Token}

theorem length_lineComment (cs : List Char) : (lineComment cs).2.length ≤ cs.length := by
  fun_induction lineComment cs with
  | case1 => exact Nat.le_refl _
  | case2 cs => exact Nat.le_refl _
  | case3 cs => exact Nat.le_succ _
  | case4 c cs _ _ _ _ found ih =>
    rw [found] at ih
    exact Nat.le_succ_of_le ih

theorem length_blockComment? {depth : ℕ} {text : List Char}
    (h : blockComment? depth cs = some (text, rest)) : rest.length < cs.length := by
  fun_induction blockComment? depth cs generalizing text with
  | case1 => cases h
  | case2 depth cs ih =>
    obtain ⟨⟨inner, _⟩, found, same⟩ := Option.map_eq_some_iff.mp h
    cases same
    exact Nat.lt_add_right 2 (ih found)
  | case3 depth cs last =>
    cases h
    exact Nat.lt_add_of_pos_right (Nat.succ_pos 1)
  | case4 depth cs more ih =>
    obtain ⟨⟨inner, _⟩, found, same⟩ := Option.map_eq_some_iff.mp h
    cases same
    exact Nat.lt_add_right 2 (ih found)
  | case5 depth c cs _ _ ih =>
    obtain ⟨⟨inner, _⟩, found, same⟩ := Option.map_eq_some_iff.mp h
    cases same
    exact Nat.lt_succ_of_lt (ih found)

theorem rest_docComment? {inner : Bool} {comment : List Char × List Char}
    (h : docComment? inner comment = some (ts, rest)) : rest = comment.2 := by
  rw [docComment?] at h
  split_ifs at h
  cases h
  rfl

/-- A comment takes the marks that it begins with at least. -/
theorem length_comment? (h : comment? cs = some (ts, rest)) : rest.length < cs.length := by
  have line {inner : Bool} {cs : List Char}
      (h : docComment? inner (lineComment cs) = some (ts, rest)) : rest.length ≤ cs.length := by
    rw [rest_docComment? h]
    exact length_lineComment cs
  have block {depth : ℕ} {inner : Bool} {cs : List Char}
      (h : (blockComment? depth cs).bind (docComment? inner) = some (ts, rest)) :
      rest.length < cs.length := by
    obtain ⟨⟨text, behind⟩, found, doc⟩ := Option.bind_eq_some_iff.mp h
    rw [rest_docComment? doc]
    exact length_blockComment? found
  have note {depth : ℕ} {cs : List Char}
      (h : ((blockComment? depth cs).map fun p => ([], p.2)) = some (ts, rest)) :
      rest.length < cs.length := by
    obtain ⟨⟨text, behind⟩, found, same⟩ := Option.map_eq_some_iff.mp h
    cases same
    exact length_blockComment? found
  unfold comment? at h
  split at h
  · exact Nat.lt_add_right 2 (Nat.lt_succ_of_le (line h))
  · next cs =>
    cases h
    exact Nat.lt_add_right 3 (Nat.lt_succ_of_le (length_lineComment cs))
  · exact Nat.lt_add_right 2 (Nat.lt_succ_of_le (line h))
  · next cs _ _ _ =>
    cases h
    exact Nat.lt_add_right 1 (Nat.lt_succ_of_le (length_lineComment cs))
  · cases h
    exact Nat.lt_add_of_pos_right (Nat.succ_pos 3)
  · exact Nat.lt_add_right 3 (block h)
  · exact Nat.lt_add_right 2 (note h)
  · exact Nat.lt_add_right 3 (block h)
  · exact Nat.lt_add_right 2 (note h)
  · cases h

theorem length_anyIdent? {i : Ident} (h : anyIdent? cs = some (i, rest)) :
    rest.length < cs.length := by
  unfold anyIdent? at h
  split at h
  next ds mark =>
    have shorter : ds.length ≤ cs.length := by
      split at mark
      · cases mark
        exact Nat.le_add_right _ 2
      · cases mark
        exact Nat.le_refl _
    split at h
    · dsimp only at h
      split_ifs at h
      cases h
      exact Nat.lt_of_lt_of_le (Nat.lt_succ_of_le (List.dropWhile_suffix _).length_le) shorter
    · cases h

theorem length_ident? {i : Ident} (h : ident? cs = some (i, rest)) : rest.length < cs.length := by
  unfold ident? at h
  split at h
  · cases h
  · cases h
  · cases h
  · cases h
  · cases h
  · cases h
  · cases h
  · cases h
  · cases h
  · cases h
  · exact length_anyIdent? h

theorem length_punct? (h : punct? cs = some (t, rest)) : rest.length < cs.length := by
  cases cs with
  | nil => cases h
  | cons c cs =>
    rw [punct?] at h
    split at h
    · cases h
    · dsimp only at h
      split_ifs at h <;> cases h <;> exact Nat.lt_succ_self _

theorem length_failure? (h : failure? cs = some (t, rest)) : rest.length < cs.length := by
  rw [failure?] at h
  split_ifs at h with mark
  cases h
  have long := (List.isPrefixOf_iff_prefix.mp mark).length_le
  have marks : failureMark.length = 11 := rfl
  rw [List.length_drop]
  omega

theorem length_leaf? (h : leaf? cs = some (t, rest)) : rest.length < cs.length := by
  rw [leaf?] at h
  split at h
  · next rest' found =>
    cases h
    cases cs with
    | nil => cases found
    | cons c cs => exact Nat.lt_succ_of_le ((Literal.leaves_after? (c :: cs)).bound rest found)
  · split at h
    · next found sign =>
      cases h
      exact length_punct? sign
    · split at h
      · next name =>
        cases h
        exact length_ident? name
      · exact length_failure? h

/-- More steps than there are characters change nothing. -/
theorem tokens_congr_fuel {m n : ℕ} (hm : cs.length < m) (hn : cs.length < n)
    (stack : List Delim) : tokens m stack cs = tokens n stack cs := by
  induction m generalizing n stack cs with
  | zero => exact absurd hm (Nat.not_lt_zero _)
  | succ m ih =>
    obtain ⟨n, rfl⟩ := Nat.exists_eq_succ_of_ne_zero (Nat.ne_of_gt (Nat.zero_lt_of_lt hn))
    have same (stack : List Delim) {rest : List Char} (shorter : rest.length < cs.length) :
        tokens m stack rest = tokens n stack rest := ih (by omega) (by omega) stack
    unfold tokens
    cases cs with
    | nil => rfl
    | cons c cs =>
      have next (stack : List Delim) : tokens m stack cs = tokens n stack cs :=
        same stack (Nat.lt_succ_self _)
      dsimp only
      split_ifs with space
      · exact next stack
      cases comment : comment? (c :: cs) with
      | some found => exact congrArg (Option.map _) (same stack (length_comment? comment))
      | none =>
        cases opening? (c :: cs) with
        | some d => exact congrArg (Option.map _) (next _)
        | none =>
          cases closing? c with
          | some d =>
            cases stack with
            | nil => rfl
            | cons top stack =>
              exact ite_congr rfl (fun _ => congrArg (Option.map _) (next _)) fun _ => rfl
          | none =>
            cases leaf : leaf? (c :: cs) with
            | some found => exact congrArg (Option.map _) (same stack (length_leaf? leaf))
            | none => rfl

end Lexer
end TypedDecl.Code
