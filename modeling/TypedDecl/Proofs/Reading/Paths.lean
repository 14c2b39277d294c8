import TypedDecl.Proofs.Reading.Items

namespace TypedDecl.Code

open Token (word operator group)

namespace Path

/-- Names with colons between them. -/
def ofNames (is : List Ident) : Path := .mk false (is.map fun i => .mk i .none)

/-- Names, each with colons behind it. -/
def leadTokens (is : List Ident) : List Token :=
  is.flatMap fun i => .ident i :: operator Parser.colons

/-- A path of names with arguments behind the last. -/
def argsPath (is : List Ident) (j : Ident) (args : Args) : Path :=
  .mk false (is.map (fun i => .mk i .none) ++ [.mk j args])

theorem tokens_mk_argsPath (global : Bool) (is : List Ident) (j : Ident) (args : Args) :
    (mk global (argsPath is j args).segments).tokens =
      signIf Parser.colons global ++ (leadTokens is ++ .ident j :: args.tokens) := by
  have row (lead : Bool) : Segment.listTokens lead
      (is.map (fun i => .mk i .none) ++ [.mk j args]) =
        signIf Parser.colons lead ++ (leadTokens is ++ .ident j :: args.tokens) := by
    induction is generalizing lead with
    | nil => simp [Segment.listTokens, Segment.tokens, leadTokens]
    | cons i is ih =>
      rw [List.map_cons, List.cons_append, Segment.listTokens, ih]
      simp [Segment.tokens, Args.tokens, leadTokens, signIf]
  exact row global

theorem tokens_argsPath (is : List Ident) (j : Ident) (args : Args) :
    (argsPath is j args).tokens = leadTokens is ++ .ident j :: args.tokens :=
  tokens_mk_argsPath false is j args

theorem ofNames_append (is : List Ident) (j : Ident) :
    ofNames (is ++ [j]) = argsPath is j .none := by
  rw [ofNames, argsPath, List.map_append]
  rfl

theorem tokens_ofNames (is : List Ident) (j : Ident) :
    (ofNames (is ++ [j])).tokens = leadTokens is ++ [.ident j] := by
  rw [ofNames_append, tokens_argsPath]
  rfl

theorem length_le_leadTokens (is : List Ident) : is.length ≤ (leadTokens is).length := by
  induction is with
  | nil => exact Nat.le_refl 0
  | cons i is ih =>
    rw [List.length_cons, leadTokens, List.flatMap_cons, List.length_append]
    exact Nat.add_comm _ _ ▸ Nat.add_le_add (by simp) ih

theorem leadTokens_append (is js : List Ident) :
    leadTokens (is ++ js) = leadTokens is ++ leadTokens js := List.flatMap_append

end Path

namespace Parser

open Code.Path (leadTokens argsPath)

variable {g : Grammar} {i j : Ident} {is : List Ident} {rest : List Token}

theorem isRoot_iff : isRoot i = true ↔
    i = .plain "super" ∨ i = .plain "self" ∨ i = .plain "Self" ∨ i = .plain "crate" := by
  simp [isRoot]

theorem segment_lead (lead : isRoot i = true ∨ i.isName = true) {expr : Bool} {ts : List Token}
    (args : segmentArgs g expr ts = some (.none, ts)) :
    segment g expr (.ident i :: ts) = some (.mk i .none, ts) := by
  rcases lead with root | named
  · rcases isRoot_iff.mp root with rfl | rfl | rfl | rfl
    · rfl
    · rfl
    · have own : segment g expr (.ident (.plain "Self") :: ts) =
          (segmentArgs g expr ts).bind fun x => some (.mk (.plain "Self") x.1, x.2) := rfl
      rw [own, args]
      rfl
    · rfl
  · simp [segment, startsWord_name _ named, keywords, named, args]

/-- Names and roots before a name are segments without arguments. -/
theorem segments_lead (leads : ∀ i ∈ is, isRoot i = true ∨ i.isName = true)
    {expr leave : Bool} {more : Nat} {ts : List Token} {ss : List Segment}
    (h : segments g expr leave more (.ident j :: ts) = some (ss, rest)) :
    segments g expr leave (more + is.length) (leadTokens is ++ .ident j :: ts) =
      some (is.map (fun i => .mk i .none) ++ ss, rest) := by
  induction is with
  | nil => exact h
  | cons i is ih =>
    rw [List.forall_mem_cons] at leads
    obtain ⟨first, others⟩ := leads
    let behind := leadTokens is ++ .ident j :: ts
    have starts_name : ∃ k ks, behind = .ident k :: ks := by
      cases is with
      | nil => exact ⟨j, ts, rfl⟩
      | cons k ks => exact ⟨k, _, rfl⟩
    obtain ⟨k, ks, begins⟩ := starts_name
    have row : leadTokens (i :: is) ++ .ident j :: ts =
        .ident i :: .punct ':' true :: .punct ':' false :: behind := rfl
    have colons : sign? colons (.punct ':' true :: .punct ':' false :: behind) = some behind := by
      simp [Parser.colons]
    have args : segmentArgs g expr (.punct ':' true :: .punct ':' false :: behind) =
        some (.none, .punct ':' true :: .punct ':' false :: behind) := by
      rw [segmentArgs, colons]
      simp [begins, starts]
    have here : segment g expr (.ident i :: .punct ':' true :: .punct ':' false :: behind) =
        some (.mk i .none, .punct ':' true :: .punct ':' false :: behind) :=
      segment_lead first args
    have further : starting .paren behind = false := by
      rw [begins]
      rfl
    have after : segments g expr leave (more + is.length) behind =
        some (is.map (fun i => .mk i .none) ++ ss, rest) := ih others
    rw [row, List.length_cons, ← Nat.add_assoc, segments, here]
    simp [colons, further, after]

/-- Nothing stands here that a path in an expression could go on with. -/
theorem segments_last (named : j.isName = true) {expr : Bool} (leave : Bool)
    (args : segmentArgs g expr rest = some (.none, rest)) (ends : sign? colons rest = none)
    (more : Nat) :
    segments g expr leave (more + 1) (.ident j :: rest) = some ([.mk j .none], rest) := by
  have here : segment g expr (.ident j :: rest) = some (.mk j .none, rest) :=
    segment_lead (.inr named) args
  simp [segments, here, ends]

/-- A path whose last segment is read with its arguments. -/
theorem path_lead (leads : ∀ i ∈ is, isRoot i = true ∨ i.isName = true)
    (enough : is.length < g.more) {expr : Bool} {ts : List Token} {ss : List Segment}
    (h : ∀ more, segments g expr true (more + 1) (.ident j :: ts) = some (ss, rest)) :
    path g expr (leadTokens is ++ .ident j :: ts) =
      some (.mk false (is.map (fun i => .mk i .none) ++ ss), rest) := by
  obtain ⟨more, hm⟩ : ∃ more, g.more = more + 1 + is.length := ⟨g.more - 1 - is.length, by omega⟩
  have read := segments_lead leads (h more)
  have front : sign? colons (leadTokens is ++ .ident j :: ts) = none := by
    cases is with
    | nil => rfl
    | cons i is => rfl
  simp [path, mark, front, hm, read]

theorem path_names (leads : ∀ i ∈ is, isRoot i = true ∨ i.isName = true) (last : j.isName = true)
    (enough : is.length < g.more) {expr : Bool}
    (args : segmentArgs g expr rest = some (.none, rest)) (ends : sign? colons rest = none) :
    path g expr (leadTokens is ++ .ident j :: rest) = some (.ofNames (is ++ [j]), rest) := by
  have read := path_lead leads enough (segments_last last true args ends)
  rw [read, Path.ofNames_append]
  rfl

end Parser

end TypedDecl.Code
