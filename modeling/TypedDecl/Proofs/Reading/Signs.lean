import TypedDecl.Code.Reading

namespace TypedDecl.Code

open Token (word)

theorem Ident.ne_keyword {i : Ident} (h : i.isName = true) {w : String}
    (hw : keywords.contains w = true) : i ≠ plain w := by
  rintro rfl
  rw [isName, plain, hw] at h
  cases h

@[simp] theorem Grammar.nested_more (more depth : Nat) : (nested more depth).more = more := by
  cases depth <;> rfl

namespace Parser

section Signs

variable (c : Char) (cs : List Char) (joint : Bool) (i : Ident) (w text : String) (d : Delim)
  (ts : List Token)

@[simp] theorem sign?_self : sign? [c] (.punct c joint :: ts) = some ts := by simp [sign?]

@[simp] theorem sign?_nil : sign? (c :: cs) [] = none := by cases cs <;> rfl

@[simp] theorem sign?_ident : sign? (c :: cs) (.ident i :: ts) = none := by cases cs <;> rfl

@[simp] theorem sign?_word : sign? (c :: cs) (word w :: ts) = none := by cases cs <;> rfl

@[simp] theorem sign?_literal : sign? (c :: cs) (.literal text :: ts) = none := by cases cs <;> rfl

@[simp] theorem sign?_opening : sign? (c :: cs) (.opening d :: ts) = none := by cases cs <;> rfl

@[simp] theorem sign?_closing : sign? (c :: cs) (.closing d :: ts) = none := by cases cs <;> rfl

theorem sign?_ne {e : Char} (h : c ≠ e) : sign? (c :: cs) (.punct e joint :: ts) = none := by
  cases cs with
  | nil => simp [sign?, h]
  | cons b cs => cases joint <;> simp [sign?, h]

@[simp] theorem sign?_joined (b : Char) :
    sign? (c :: b :: cs) (.punct c true :: ts) = sign? (b :: cs) ts := by
  simp [sign?]

end Signs

section Names

variable {i : Ident} (ts : List Token)

@[simp] theorem name?_of_isName (h : i.isName = true) : name? (.ident i :: ts) = some (i, ts) := by
  rw [name?, if_pos h]

@[simp] theorem startsName_of_isName (h : i.isName = true) : startsName (.ident i :: ts) = true := by
  rw [startsName, name?_of_isName ts h]
  rfl

theorem startsWord_name (h : i.isName = true) {w : String} (hw : keywords.contains w = true) :
    startsWord w (.ident i :: ts) = false := by
  simpa [startsWord] using Ident.ne_keyword h hw

theorem word?_name (h : i.isName = true) {w : String} (hw : keywords.contains w = true) :
    word? w (.ident i :: ts) = none := by
  rw [word?, if_neg (Ident.ne_keyword h hw)]

end Names

section Types

/-- Nothing stands here that a path or a type could go on with. -/
def endsTy : List Token → Bool
  | [] | .closing _ :: _ | .opening .brace :: _ => true
  | .punct c _ :: _ => [',', ';', '>', '='].contains c
  | _ => false

variable {g : Grammar} {i : Ident} {rest : List Token}

theorem endsTy_cases (h : endsTy rest = true) :
    rest = [] ∨ (∃ d ts, rest = .closing d :: ts) ∨ (∃ ts, rest = .opening .brace :: ts) ∨
      ∃ c joint ts, rest = .punct c joint :: ts ∧ [',', ';', '>', '='].contains c = true := by
  match rest, h with
  | [], _ => exact .inl rfl
  | .closing d :: ts, _ => exact .inr (.inl ⟨d, ts, rfl⟩)
  | .opening .brace :: ts, _ => exact .inr (.inr (.inl ⟨ts, rfl⟩))
  | .punct c joint :: ts, h => exact .inr (.inr (.inr ⟨c, joint, ts, rfl, h⟩))

theorem sign?_endsTy (h : endsTy rest = true) {c : Char} (cs : List Char)
    (hc : [',', ';', '>', '='].contains c = false) : sign? (c :: cs) rest = none := by
  rcases endsTy_cases h with rfl | ⟨d, ts, rfl⟩ | ⟨ts, rfl⟩ | ⟨e, joint, ts, rfl, he⟩
  · simp
  · simp
  · simp
  · refine sign?_ne c cs joint ts ?_
    rintro rfl
    rw [he] at hc
    cases hc

theorem segmentArgs_endsTy (ends : endsTy rest = true) (expr : Bool) :
    segmentArgs g expr rest = some (.none, rest) := by
  have colons : sign? colons rest = none := sign?_endsTy ends _ (by decide)
  have angle : startsAngle rest = false := by simp [startsAngle, starts, sign?_endsTy ends]
  simp [segmentArgs, colons, angle]

/-- A name on its own is a path. -/
theorem path_name (h : i.isName = true) (some_more : 0 < g.more) (ends : endsTy rest = true)
    (expr : Bool) : path g expr (.ident i :: rest) = some (.mk false [.mk i .none], rest) := by
  obtain ⟨more, hm⟩ := Nat.exists_eq_succ_of_ne_zero (Nat.ne_of_gt some_more)
  have colons : sign? colons rest = none := sign?_endsTy ends _ (by decide)
  have here : segment g expr (.ident i :: rest) = some (.mk i .none, rest) := by
    simp [segment, startsWord_name _ h, keywords, h, segmentArgs_endsTy ends]
  have front : sign? Parser.colons (.ident i :: rest) = none := by simp [Parser.colons]
  simp [path, hm, segments, here, mark, colons, front]

/-- And as a type it is that path. -/
theorem ty_name (h : i.isName = true) (some_more : 0 < g.more) (ends : endsTy rest = true)
    (plus : Bool) :
    ty g plus (.ident i :: rest) = some (.path (.plain (.mk false [.mk i .none])), rest) := by
  have before : binder? g (.ident i :: rest) = some (.none, .ident i :: rest) := by
    rw [binder?, word?_name _ h (by decide)]
  have function : startsFunction (.ident i :: rest) = false := by
    simp [startsFunction, startsWord_name _ h, keywords]
  have builtin : startsBuiltin (.ident i :: rest) = false := by
    simp [startsBuiltin, starts, sign?_endsTy ends]
  have here : pathTy g .none plus (.ident i :: rest) =
      some (.path (.plain (.mk false [.mk i .none])), rest) := by
    simp [pathTy, path_name h some_more ends, starts, startsMacro, sign?_endsTy ends]
  simp [ty, before, function, builtin, h, here]

end Types

/-- What follows the attributes where none stands. -/
theorem outerAttributes_none {g : Grammar} (more : 0 < g.more) {ts : List Token}
    (h : startsAttribute ts = false) : outerAttributes g ts = some ([], ts) := by
  obtain ⟨n, hn⟩ := Nat.exists_eq_succ_of_ne_zero (Nat.ne_of_gt more)
  rw [outerAttributes, hn, many, h]
  rfl

theorem innerAttributes_none {g : Grammar} (more : 0 < g.more) {ts : List Token}
    (h : startsInner ts = false) : innerAttributes g ts = some ([], ts) := by
  obtain ⟨n, hn⟩ := Nat.exists_eq_succ_of_ne_zero (Nat.ne_of_gt more)
  rw [innerAttributes, hn, many, h]
  rfl

end Parser

end TypedDecl.Code
