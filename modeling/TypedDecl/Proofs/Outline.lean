import TypedDecl.Code.Item.Tokens
import TypedDecl.Proofs.Nesting

namespace TypedDecl.Code

open Token (word Closed)

namespace Token

/-- The rows that begin at a token outside of all groups, given how many groups are open. -/
def placesFrom : Nat → List Token → List (List Token)
  | _, [] => []
  | depth, opening d :: ts =>
    (if depth = 0 then [opening d :: ts] else []) ++ placesFrom (depth + 1) ts
  | depth, closing d :: ts =>
    (if depth = 0 then [closing d :: ts] else []) ++ placesFrom (depth - 1) ts
  | depth, t :: ts => (if depth = 0 then [t :: ts] else []) ++ placesFrom depth ts

def places (ts : List Token) : List (List Token) := placesFrom 0 ts

end Token

/-- How a structure is written after its name. -/
inductive Shape
  | unit
  | tuple (fields : List Token)
  | record (fields : List Token)
  | unknown
  deriving DecidableEq, Repr

/-- A structure, and the items that are implemented for it directly behind it. -/
structure Structure where
  name : Ident
  shape : Shape
  items : List Token
  deriving DecidableEq, Repr

namespace Outline

/-- The items that are implemented here for a name by itself. -/
def items (i : Ident) : List Token → List Token
  | .ident w :: .ident j :: ts =>
    if w = Ident.plain "impl" ∧ i = j then
      match Parser.anyGroup? ts with
      | some ((.brace, row), _) => row.tokens
      | _ => []
    else []
  | _ => []

/-- The shape of a structure, and what follows it. -/
def shape (ts : List Token) : Shape × List Token :=
  match ts with
  | .punct ';' _ :: ts => (.unit, ts)
  | ts =>
    match Parser.anyGroup? ts with
    | some ((.paren, row), .punct ';' _ :: ts) => (.tuple row.tokens, ts)
    | some ((.brace, row), ts) => (.record row.tokens, ts)
    | _ => (.unknown, ts)

/-- The structure that is declared here. -/
def struct? : List Token → Option Structure
  | .ident w :: .ident i :: ts =>
    if w = Ident.plain "struct" then some ⟨i, (shape ts).1, items i (shape ts).2⟩ else none
  | _ => none

/-- The structures that a row declares. -/
def structs (ts : List Token) : List Structure := (Token.places ts).filterMap struct?

/-- The value of the constant that is declared here under a name. -/
def constantAt? (name : String) : List Token → Option (List Token)
  | .ident w :: .ident i :: ts =>
    if w = Ident.plain "const" ∧ i = Ident.plain name then
      some (((ts.dropWhile (· ≠ .punct '=' false)).drop 1).takeWhile (· ≠ .punct ';' false))
    else none
  | _ => none

/-- The value of a constant among items. -/
def constant? (name : String) (ts : List Token) : Option (List Token) :=
  (Token.places ts).findSome? (constantAt? name)

/-- The body of the function that is declared here under a name. -/
def functionAt? (name : String) : List Token → Option (List Token)
  | .ident w :: .ident i :: ts =>
    if w = Ident.plain "fn" ∧ i = Ident.plain name then
      match Parser.anyGroup? (ts.dropWhile (· ≠ .opening .brace)) with
      | some ((_, row), _) => some row.tokens
      | none => none
    else none
  | _ => none

/-- The body of a function among items. -/
def function? (name : String) (ts : List Token) : Option (List Token) :=
  (Token.places ts).findSome? (functionAt? name)

end Outline

namespace Token

/-- The groups that are open at the beginning of a row only add to its depth. -/
theorem placesFrom_of_nest {ts : List Token} {stack after : List Delim}
    (h : nest stack ts = some after) (rest : List Token) (depth : Nat) :
    placesFrom (depth + 1 + stack.length) (ts ++ rest) =
      placesFrom (depth + 1 + after.length) rest := by
  induction ts generalizing stack with
  | nil =>
    cases h
    rfl
  | cons t ts ih =>
    obtain ⟨next, hs, ht⟩ := Option.bind_eq_some_iff.mp h
    have tail := ih ht
    cases t with
    | opening d =>
      cases hs
      simpa [placesFrom, Nat.add_assoc] using tail
    | closing d =>
      cases stack with
      | nil => cases hs
      | cons top stack =>
        have same : next = stack := by
          simp only [nestStep] at hs
          split at hs
          · exact (Option.some.inj hs).symm
          · cases hs
        subst same
        simpa [placesFrom, ← Nat.add_assoc] using tail
    | ident i | punct c joint | literal text =>
      cases hs
      simpa [placesFrom, Nat.add_assoc] using tail

/-- A group is one place. -/
theorem places_group (d : Delim) {ts : List Token} (h : Closed ts) (rest : List Token) :
    places (group d ts ++ rest) = (group d ts ++ rest) :: places rest := by
  have inside := placesFrom_of_nest h (closing d :: rest) 0
  simp [places, group, placesFrom] at inside ⊢
  exact inside

theorem places_ident (i : Ident) (ts : List Token) :
    places (ident i :: ts) = (ident i :: ts) :: places ts := rfl

end Token

namespace Parser

theorem groupLength_of_nest {ts : List Token} {stack after : List Delim}
    (h : Token.nest stack ts = some after) (rest : List Token) :
    groupLength (stack.length + 1) (ts ++ rest) =
      ts.length + groupLength (after.length + 1) rest := by
  induction ts generalizing stack with
  | nil =>
    cases h
    simp
  | cons t ts ih =>
    obtain ⟨next, hs, ht⟩ := Option.bind_eq_some_iff.mp h
    have tail := ih ht
    cases t with
    | opening d =>
      cases hs
      simp only [List.length_cons] at tail
      simp only [List.cons_append, groupLength, tail, List.length_cons]
      omega
    | closing d =>
      cases stack with
      | nil => cases hs
      | cons top stack =>
        have same : next = stack := by
          simp only [Token.nestStep] at hs
          split at hs
          · exact (Option.some.inj hs).symm
          · cases hs
        subst same
        have more : ¬(next.length + 1 + 1 ≤ 1) := by omega
        simp only [List.cons_append, List.length_cons, groupLength, more, if_false,
          Nat.add_sub_cancel, tail]
        omega
    | ident i | punct c joint | literal text =>
      cases hs
      simp only [List.cons_append, groupLength, Nat.add_one_ne_zero, if_false, tail,
        List.length_cons]
      omega

/-- A group is read as what it was made of. -/
theorem anyGroup?_group (d : Delim) {ts : List Token} (h : Closed ts) (rest : List Token) :
    anyGroup? (Token.group d ts ++ rest) = some ((d, ⟨ts, h⟩), rest) := by
  have length : groupLength 1 (ts ++ Token.closing d :: rest) = ts.length + 1 :=
    groupLength_of_nest h (Token.closing d :: rest)
  have content : (ts ++ Token.closing d :: rest).take ts.length = ts := List.take_left
  have after : (ts ++ Token.closing d :: rest).drop (ts.length + 1) = rest := by
    rw [← List.drop_drop, List.drop_left]
    rfl
  have row : Row.of? ts = some ⟨ts, h⟩ := dif_pos h
  simp only [Token.group, List.cons_append, List.append_assoc, List.nil_append, anyGroup?, length,
    Nat.add_sub_cancel, content, row, after, Option.map_some]

end Parser

namespace Outline

open Item Token

theorem structs_ident {i : Ident} (h : i ≠ Ident.plain "struct") (ts : List Token) :
    structs (.ident i :: ts) = structs ts := by
  have none : struct? (.ident i :: ts) = none := by
    unfold struct?
    split
    case h_1 heq =>
      obtain ⟨rfl, _⟩ : _ ∧ _ := by simpa using heq
      rw [if_neg h]
    case h_2 => rfl
  rw [structs, places_ident, List.filterMap_cons, none, structs]

theorem structs_word {w : String} (h : w ≠ "struct") (ts : List Token) :
    structs (word w :: ts) = structs ts :=
  structs_ident (by simpa [Ident.plain] using h) ts

theorem structs_punct (c : Char) (joint : Bool) (ts : List Token) :
    structs (.punct c joint :: ts) = structs ts := rfl

theorem structs_group (d : Delim) {ts : List Token} (h : Closed ts) (rest : List Token) :
    structs (group d ts ++ rest) = structs rest := by
  rw [structs, places_group d h]
  rfl

/-- The word for a structure and its name. -/
theorem structs_struct {i : Ident} (h : i ≠ Ident.plain "struct") (ts : List Token) :
    structs (word "struct" :: .ident i :: ts) =
      ⟨i, (shape ts).1, items i (shape ts).2⟩ :: structs ts := by
  have here : struct? (word "struct" :: .ident i :: ts) =
      some ⟨i, (shape ts).1, items i (shape ts).2⟩ := by
    simp [struct?, word]
  have tail := structs_ident h ts
  rw [structs] at tail ⊢
  rw [word, places_ident, List.filterMap_cons, ← word, here, tail]

theorem structs_unit {i : Ident} (h : i ≠ Ident.plain "struct") (rest : List Token) :
    structs (unitTokens i ++ rest) = ⟨i, .unit, items i rest⟩ :: structs rest :=
  structs_struct h (.punct ';' false :: rest)

theorem structs_tuple {i : Ident} (h : i ≠ Ident.plain "struct") {fields : List Token}
    (closed : Closed fields) (rest : List Token) :
    structs (tupleTokens i fields ++ rest) = ⟨i, .tuple fields, items i rest⟩ :: structs rest := by
  have row : tupleTokens i fields ++ rest =
      word "struct" :: .ident i :: (group .paren fields ++ .punct ';' false :: rest) := by
    simp [tupleTokens, operator]
  have read : shape (group .paren fields ++ .punct ';' false :: rest) = (.tuple fields, rest) := by
    have content := Parser.anyGroup?_group .paren closed (.punct ';' false :: rest)
    rw [shape, content]
    · rfl
    · intro joint ts heq
      cases heq
  rw [row, structs_struct h, read, structs_group .paren closed, structs_punct]

theorem structs_record {i : Ident} (h : i ≠ Ident.plain "struct") {fields : List Token}
    (closed : Closed fields) (rest : List Token) :
    structs (recordTokens i fields ++ rest) =
      ⟨i, .record fields, items i rest⟩ :: structs rest := by
  have row : recordTokens i fields ++ rest =
      word "struct" :: .ident i :: (group .brace fields ++ rest) := by
    simp [recordTokens]
  have read : shape (group .brace fields ++ rest) = (.record fields, rest) := by
    rw [shape, Parser.anyGroup?_group .brace closed]
    intro joint ts heq
    cases heq
  rw [row, structs_struct h, read, structs_group .brace closed]

theorem items_impl (i : Ident) {members : List Token} (closed : Closed members)
    (rest : List Token) : items i (implTokens i members ++ rest) = members := by
  simp [items, implTokens, word, Parser.anyGroup?_group .brace closed]

theorem functionAt?_function (name : String) {params output body : List Token}
    (hp : ∀ t ∈ params, t ≠ .opening .brace) (ho : ∀ t ∈ output, t ≠ .opening .brace)
    (closed : Closed body) (rest : List Token) :
    functionAt? name (functionTokens (Ident.plain name) params output body ++ rest) =
      some body := by
  have head : ∀ t ∈ group .paren params ++ operator Parser.arrow ++ output,
      decide (t ≠ .opening .brace) = true := by
    intro t ht
    simp only [group, operator, Parser.arrow, List.mem_append, List.mem_cons, List.not_mem_nil,
      or_false] at ht
    rcases ht with (((rfl | param) | rfl) | rfl | rfl) | result
    · rfl
    · simp [hp t param]
    · rfl
    · rfl
    · rfl
    · simp [ho t result]
  have row : functionTokens (Ident.plain name) params output body ++ rest =
      .ident (Ident.plain "fn") :: .ident (Ident.plain name) :: ((group .paren params ++
        operator Parser.arrow ++ output) ++ (group .brace body ++ rest)) := by
    simp [functionTokens, word]
  have start : (group .brace body ++ rest).dropWhile (fun t => decide (t ≠ .opening .brace)) =
      group .brace body ++ rest := by
    simp [group]
  have content := Parser.anyGroup?_group .brace closed rest
  rw [row, functionAt?, if_pos ⟨rfl, rfl⟩, List.dropWhile_append_of_pos head, start, content]

/-- A public function is found under its name. -/
theorem function?_function (name : String) {params output body : List Token}
    (hp : ∀ t ∈ params, t ≠ .opening .brace) (ho : ∀ t ∈ output, t ≠ .opening .brace)
    (closed : Closed body) (rest : List Token) :
    function? name (publicTokens (functionTokens (Ident.plain name) params output body) ++ rest) =
      some body := by
  have found := functionAt?_function name hp ho closed rest
  obtain ⟨tail, row⟩ : ∃ tail, functionTokens (Ident.plain name) params output body ++ rest =
      .ident (Ident.plain "fn") :: tail := ⟨_, rfl⟩
  have before : functionAt? name (word "pub" :: .ident (Ident.plain "fn") :: tail) = none := by
    simp [functionAt?, word, Ident.plain]
  rw [row] at found
  rw [publicTokens, List.cons_append, row, function?, word, places_ident, ← word,
    List.findSome?_cons, before, places_ident, List.findSome?_cons, found]

end Outline

end TypedDecl.Code
