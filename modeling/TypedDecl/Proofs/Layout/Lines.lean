import Mathlib
import TypedDecl.Layout.Writer

namespace TypedDecl.Layout

/-- A gap that changes the indentation of the next line alone. -/
def turn (shift : Int) (blank : Nat) : Piece := .gap { Gap.plain with shift, blank }

theorem line_eq_turn : Piece.line = turn 0 endless := rfl

theorem fits_of_neg {room : Int} (h : room < 0) (depth : Nat) (ps : List Piece) :
    fits room depth ps = false := by
  cases ps with
  | nil => simpa [fits] using h
  | cons p ps => rw [fits.eq_def]; simp [h]

/-- A row without groups takes its width away from the line. -/
theorem fits_row {ps : List Piece} (plain : ∀ p ∈ ps, (∃ s, p = .text s) ∨ ∃ g, p = .gap g)
    {room : Int} {depth : Nat} {rest : List Piece} (enough : (rowWidth ps : Int) ≤ room) :
    fits room (depth + 1) (ps ++ rest) = fits (room - rowWidth ps) (depth + 1) rest := by
  induction ps generalizing room with
  | nil => simp [rowWidth]
  | cons p ps ih =>
    rw [List.forall_mem_cons] at plain
    obtain ⟨first, others⟩ := plain
    rw [rowWidth, Nat.cast_add] at enough ⊢
    have inside : ¬room < 0 := by omega
    have next : ((rowWidth ps : Nat) : Int) ≤ room - p.width := by omega
    have left : room - (↑p.width + ↑(rowWidth ps)) = room - ↑p.width - ↑(rowWidth ps) := by omega
    rw [left, ← ih others next, List.cons_append, fits.eq_def]
    rcases first with ⟨s, rfl⟩ | ⟨g, rfl⟩
    · simp [inside]
    · simp [inside, Piece.width]

/-- No line is long enough for a group that goes on with these pieces. -/
def Overlong (depth : Nat) (ps : List Piece) : Prop := ∀ room ≤ margin, fits room depth ps = false

namespace Overlong

variable {depth : Nat} {ps : List Piece}

theorem text (s : String) (h : Overlong depth ps) : Overlong depth (.text s :: ps) := by
  intro room inside
  have shorter : room - (s.utf8ByteSize : Int) ≤ margin := by omega
  rw [fits.eq_def]
  dsimp only
  split
  · rfl
  · exact h _ shorter

theorem gap (g : Gap) (h : Overlong (depth + 1) ps) : Overlong (depth + 1) (.gap g :: ps) := by
  intro room inside
  rw [fits]
  have shorter : room - (g.blank : Int) ≤ margin := by omega
  split
  · rfl
  · exact h _ shorter

theorem start (shift : Int) (all : Bool) (h : Overlong (depth + 1) ps) :
    Overlong depth (.start shift all :: ps) := by
  intro room inside
  rw [fits]
  split
  · rfl
  · exact h _ inside

theorem stop (h : Overlong depth ps) : Overlong (depth + 1) (.stop :: ps) := by
  intro room inside
  rw [fits]
  split
  · rfl
  · exact h _ inside

theorem row {qs : List Piece} (plain : ∀ p ∈ qs, (∃ s, p = .text s) ∨ ∃ g, p = .gap g)
    (h : Overlong (depth + 1) ps) : Overlong (depth + 1) (qs ++ ps) := by
  induction qs with
  | nil => exact h
  | cons q qs ih =>
    rw [List.forall_mem_cons] at plain
    obtain ⟨first, others⟩ := plain
    rcases first with ⟨s, rfl⟩ | ⟨g, rfl⟩
    · exact .text s (ih others)
    · exact .gap g (ih others)

/-- Nothing goes beyond a gap that is wider than any line. -/
theorem turn (shift : Int) (depth : Nat) (ps : List Piece) :
    Overlong (depth + 1) (turn shift endless :: ps) := by
  intro room inside
  rw [Layout.turn, fits]
  split
  · rfl
  · rw [if_neg (Nat.succ_ne_zero depth)]
    refine fits_of_neg ?_ _ _
    have wide : room ≤ 89 := inside
    have blank : ((endless : Nat) : Int) = 65535 := rfl
    simp only [blank]
    omega

end Overlong

namespace Writer

theorem blanks_add (m n : Nat) : blanks (m + n) = blanks m ++ blanks n := by
  simp only [blanks, List.replicate_add, String.ofList_append]

theorem blanks_step : blanks 4 = "    " := by decide

def texts (w : Writer) (ss : List String) : Writer := ss.foldl text w

theorem text_text (w : Writer) (s t : String) : (w.text s).text t = w.text (s ++ t) := by
  simp only [text, blanks, List.replicate_zero, String.ofList_nil, String.append_empty,
    String.utf8ByteSize_append, String.append_assoc]
  congr 1
  omega

theorem texts_cons (w : Writer) (s : String) (ss : List String) :
    w.texts (s :: ss) = w.text (String.join (s :: ss)) := by
  induction ss generalizing s with
  | nil => simp [texts, String.join_cons]
  | cons t ss ih =>
    have next := ih (s ++ t)
    rw [texts, List.foldl_cons] at next ⊢
    rw [List.foldl_cons, text_text, next]
    simp only [String.join_cons, String.append_assoc]

theorem texts_append (w : Writer) (ss ts : List String) :
    w.texts (ss ++ ts) = (w.texts ss).texts ts := List.foldl_append

@[simp] theorem texts_frames (w : Writer) (ss : List String) : (w.texts ss).frames = w.frames := by
  induction ss generalizing w with
  | nil => rfl
  | cons s ss ih => exact ih (w.text s)

@[simp] theorem texts_indent (w : Writer) (ss : List String) : (w.texts ss).indent = w.indent := by
  induction ss generalizing w with
  | nil => rfl
  | cons s ss ih => exact ih (w.text s)

/-- Text does not look at the groups around it. -/
theorem texts_within (w : Writer) (frames : List Frame) (indent : Int) (ss : List String) :
    ({ w with frames, indent } : Writer).texts ss = { w.texts ss with frames, indent } := by
  induction ss generalizing w with
  | nil => rfl
  | cons s ss ih => exact ih (w.text s)

/-- At the start of a line in a group whose gaps all end lines. -/
structure Fresh (w : Writer) : Prop where
  pending : w.pending = w.indent.toNat
  inside : w.room ≤ margin
  deep : 0 ≤ w.indent
  ending : ∃ indent frames, w.frames = .broken indent true :: frames

/-- After lines at the indentation, and a shift for the next one. -/
def ended (w : Writer) (ls : List String) (shift : Int) : Writer :=
  { w with
    out := w.out ++ String.join (ls.map fun l => blanks w.indent.toNat ++ l ++ "\n")
    pending := (w.indent + shift).toNat
    room := max (margin - (w.indent + shift)) leastRoom }

theorem ended_ended (w : Writer) (ls ms : List String) (a b : Int) :
    (w.ended ls a).ended ms b = w.ended (ls ++ ms) b := by
  simp only [ended, List.map_append, String.join_append, String.append_assoc]

theorem Fresh.ended {w : Writer} (h : w.Fresh) (ls : List String) : (w.ended ls 0).Fresh where
  pending := by simp [Writer.ended]
  inside := by
    have deep := h.deep
    simp only [Writer.ended, margin, leastRoom]
    omega
  deep := h.deep
  ending := h.ending

end Writer

theorem group_append (shift : Int) (all : Bool) (ps rest : List Piece) :
    group shift all ps ++ rest = .start shift all :: (ps ++ .stop :: rest) := by
  simp [group]

/-- The row is these texts, with nothing between them whatever group it is in. -/
structure Inline (ps : List Piece) (ss : List String) : Prop where
  laid : .unknown ∉ ps
  writes : ∀ (w : Writer) rest, w.pieces (ps ++ rest) = (w.texts ss).pieces rest
  passes : ∀ {depth rest}, Overlong (depth + 1) rest → Overlong (depth + 1) (ps ++ rest)

namespace Inline

variable {ps qs : List Piece} {ss ts : List String}

theorem nil : Inline [] [] := ⟨List.not_mem_nil, fun _ _ => rfl, id⟩

theorem words (s : String) : Inline (words s) [s] :=
  ⟨by simp [Layout.words], fun _ _ => rfl, Overlong.text s⟩

theorem stay : Inline [.stay] [] where
  laid := by simp [Piece.stay]
  writes w rest := by
    show (w.piece .stay rest).pieces rest = _
    simp [Writer.piece, Piece.stay, Writer.stays, Gap.plain, Writer.skip, Writer.texts]
  passes := Overlong.gap _

theorem append (hp : Inline ps ss) (hq : Inline qs ts) : Inline (ps ++ qs) (ss ++ ts) where
  laid := by simp [hp.laid, hq.laid]
  writes w rest := by
    rw [List.append_assoc, hp.writes, hq.writes, Writer.texts_append]
  passes h := by
    rw [List.append_assoc]
    exact hp.passes (hq.passes h)

theorem texts : ∀ ss : List String, Inline (ss.map .text) ss
  | [] => nil
  | s :: ss => (words s).append (texts ss)

/-- A group changes nothing, whether or not it is on one line. -/
theorem group (h : Inline ps ss) (shift : Int) (all : Bool) :
    Inline (group shift all ps) ss where
  laid := by simp [Layout.group, h.laid]
  writes w rest := by
    have shape : ∀ v : Writer, v.pieces (ps ++ .stop :: rest) =
        ((v.texts ss).stopGroup).pieces rest := fun v => h.writes v _
    rw [group_append, Writer.pieces, Writer.piece, Writer.startGroup]
    have same := Writer.texts_frames w ss
    have level := Writer.texts_indent w ss
    split
    · have flat := Writer.texts_within w (.flat :: w.frames) w.indent ss
      rw [shape, flat, Writer.stopGroup, ← same, ← level]
    · have broken := Writer.texts_within w (.broken w.indent all :: w.frames) (w.indent + shift) ss
      rw [shape, broken, Writer.stopGroup, ← same, ← level]
  passes deep := by
    rw [group_append]
    exact .start shift all (h.passes (.stop deep))

end Inline

/-- In a group whose gaps all end lines, the row is these lines at the indentation; the last is
ended by a gap that follows. -/
structure WritesLines (ps : List Piece) (ls : List String) : Prop where
  laid : .unknown ∉ ps
  writes : ∀ {w : Writer} (shift : Int) (blank : Nat) rest, w.Fresh →
    w.pieces (ps ++ turn shift blank :: rest) = (w.ended ls shift).pieces rest
  passes : ∀ {depth rest}, Overlong (depth + 1) rest → Overlong (depth + 1) (ps ++ rest)

namespace Writer

/-- After a text that the end of its line follows, and a shift for the next one. -/
def finish (w : Writer) (s : String) (shift : Int) : Writer :=
  { w with
    out := w.out ++ (blanks w.pending ++ s ++ "\n")
    pending := (w.indent + shift).toNat
    room := max (margin - (w.indent + shift)) leastRoom }

/-- In a group whose gaps all end lines, a gap ends the line after texts. -/
theorem turn_texts {w : Writer} {indent : Int} {frames : List Frame}
    (h : w.frames = .broken indent true :: frames) (s : String) (ss : List String) (shift : Int)
    (blank : Nat) (rest : List Piece) :
    (w.texts (s :: ss)).pieces (turn shift blank :: rest) =
      (w.finish (String.join (s :: ss)) shift).pieces rest := by
  have ends : ((w.texts (s :: ss)).stays { Gap.plain with shift, blank } rest) = false := by
    rw [stays, texts_frames, h]
    rfl
  have feed (t : String) : t.push '\n' = t ++ "\n" := String.push_eq_append '\n'
  rw [pieces, turn, piece, ends, texts_cons]
  simp only [Bool.false_eq_true, if_false]
  congr 1
  simp [newline, text, finish, Gap.plain, String.append_assoc, feed]

/-- In a group that is on one line. -/
def Flat (w : Writer) : Prop := w.frames.head? = some .flat

theorem flat_text {w : Writer} (s : String) : (w.text s).Flat ↔ w.Flat := .rfl

theorem pieces_text (w : Writer) (s : String) (rest : List Piece) :
    w.pieces (.text s :: rest) = (w.text s).pieces rest := rfl

theorem Flat.stays {w : Writer} (h : w.Flat) (g : Gap) (rest : List Piece) :
    w.stays g rest = true := by
  obtain ⟨out, room, indent, pending, frames⟩ := w
  cases frames with
  | nil => cases h
  | cons f frames =>
    cases h
    simp [Writer.stays]

theorem Flat.zero {w : Writer} (h : w.Flat) (shift : Int) (rest : List Piece) :
    w.pieces (turn shift 0 :: rest) = w.pieces rest := by
  rw [pieces, turn, piece, h.stays]
  simp [skip, Gap.plain]

theorem Flat.space {w : Writer} (h : w.Flat) (s : String) (rest : List Piece) :
    w.pieces (turn 0 1 :: .text s :: rest) = (w.text (" " ++ s)).pieces rest := by
  have one : blanks 1 = " " := by decide
  have width : (" ").utf8ByteSize = 1 := by decide
  rw [pieces, turn, piece, h.stays, if_pos rfl, pieces_text]
  congr 1
  simp only [skip, text, Gap.plain, blanks_add, one, String.append_assoc,
    String.utf8ByteSize_append, width]
  congr 1
  omega

theorem Fresh.finish {w : Writer} (h : w.Fresh) (s : String) (shift : Int) :
    w.finish s shift = w.ended [s] shift := by
  rw [Writer.finish, Writer.ended, h.pending]
  simp [String.join_cons]

end Writer

namespace WritesLines

variable {ps qs : List Piece} {ss ls ms : List String}

theorem of_inline {s : String} (h : Inline ps (s :: ss)) :
    WritesLines ps [String.join (s :: ss)] where
  laid := h.laid
  writes shift blank rest fresh := by
    obtain ⟨indent, frames, ending⟩ := fresh.ending
    rw [h.writes, Writer.turn_texts ending, fresh.finish]
  passes := h.passes

/-- Any gap without a shift ends the line. -/
theorem append (hp : WritesLines ps ls) (hq : WritesLines qs ms) (blank : Nat) :
    WritesLines (ps ++ turn 0 blank :: qs) (ls ++ ms) where
  laid := by simp [turn, hp.laid, hq.laid]
  writes {w} shift next rest fresh := by
    rw [List.append_assoc, List.cons_append, hp.writes _ _ _ fresh,
      hq.writes _ _ _ (fresh.ended ls), Writer.ended_ended]
  passes deep := by
    rw [List.append_assoc, List.cons_append]
    exact hp.passes (.gap _ (hq.passes deep))

/-- Rows with the same gap between them. -/
theorem between {rows : List (List Piece)} {lss : List (List String)}
    (h : List.Forall₂ WritesLines rows lss) (some_row : rows ≠ []) :
    WritesLines (between [.line] rows) lss.flatten := by
  induction h with
  | nil => exact absurd rfl some_row
  | @cons row ls rows lss first others ih =>
    cases others with
    | nil => simpa [Layout.between] using first
    | cons second others =>
      have next := first.append (ih (List.cons_ne_nil _ _)) endless
      simpa [Layout.between, line_eq_turn] using next

/-- The lines between braces are a level deeper, and the last of them takes it back. -/
theorem block {s : String} (head : Inline ps (s :: ss)) (body : WritesLines qs ls) :
    WritesLines
      (group step true (ps ++ .text "\x7b" :: .line :: (qs ++ [turn (-step) endless])) ++
        words "\x7d")
      ((String.join (s :: ss) ++ "\x7b") :: ls.map ("    " ++ ·) ++ ["\x7d"]) where
  laid := by simp [group, turn, Piece.line, Piece.spaces, words, head.laid, body.laid]
  writes {w} shift blank rest fresh := by
    obtain ⟨indent, frames, ending⟩ := fresh.ending
    have opened : Inline (ps ++ words "\x7b") (s :: (ss ++ ["\x7b"])) := head.append (.words _)
    have lead : String.join (s :: (ss ++ ["\x7b"])) = String.join (s :: ss) ++ "\x7b" := by
      simp [String.join_cons, String.append_assoc]
    let tail := .stop :: (words "\x7d" ++ turn shift blank :: rest)
    let content := ps ++ words "\x7b" ++ turn 0 endless :: (qs ++ turn (-step) endless :: tail)
    have shape : group step true (ps ++ .text "\x7b" :: .line :: (qs ++ [turn (-step) endless])) ++
        words "\x7d" ++ turn shift blank :: rest = .start step true :: content := by
      rw [List.append_assoc, group_append]
      simp [content, tail, words, line_eq_turn]
    have long : fits w.room 1 content = false :=
      opened.passes (.turn 0 0 _) _ fresh.inside
    -- Inside the group, the first line still has the indentation outside.
    let inner : Writer :=
      { w with frames := .broken w.indent true :: w.frames, indent := w.indent + step }
    let next := inner.finish (String.join (s :: ss) ++ "\x7b") 0
    have deeper : next.Fresh := {
      pending := by simp [next, Writer.finish]
      inside := by
        have deep := fresh.deep
        simp only [next, inner, Writer.finish, margin, leastRoom, step]
        omega
      deep := by
        have deep := fresh.deep
        simp only [next, inner, Writer.finish, step]
        omega
      ending := ⟨_, _, rfl⟩ }
    have body := body.writes (-step) endless tail deeper
    have closing : (next.ended ls (-step)).stopGroup =
        w.ended ((String.join (s :: ss) ++ "\x7b") :: ls.map ("    " ++ ·)) 0 := by
      have level : (w.indent + step).toNat = w.indent.toNat + 4 := by
        have deep := fresh.deep
        rw [step]
        omega
      simp [next, inner, Writer.finish, Writer.ended, Writer.stopGroup, fresh.pending, level,
        Writer.blanks_add, Writer.blanks_step, String.join_cons, String.append_assoc, Function.comp_def]
    have last := fresh.ended ((String.join (s :: ss) ++ "\x7b") :: ls.map ("    " ++ ·))
    rw [shape, Writer.pieces, Writer.piece, Writer.startGroup, long]
    simp only [Bool.false_eq_true, if_false]
    rw [opened.writes, Writer.turn_texts rfl, lead, body, Writer.pieces, Writer.piece, closing,
      (of_inline (.words "\x7d")).writes _ _ _ last, Writer.ended_ended]
    simp [String.join_cons]
  passes {depth rest} deep := by
    rw [List.append_assoc, group_append]
    refine .start _ _ ?_
    rw [List.append_assoc]
    refine head.passes (.text _ ?_)
    exact .turn _ _ _

end WritesLines

theorem flatMap_line {rows : List (List Piece)} (some_row : rows ≠ []) :
    rows.flatMap (· ++ [.line]) = between [.line] rows ++ [.line] := by
  induction rows with
  | nil => exact absurd rfl some_row
  | cons row rows ih =>
    cases rows with
    | nil => simp [between]
    | cons next rows =>
      have others := ih (List.cons_ne_nil _ _)
      rw [List.flatMap_cons, others]
      simp [between]

theorem outdentLast_append (ps : List Piece) (p : Piece) :
    outdentLast (ps ++ [p]) = ps ++ [p.outdented] := by
  induction ps with
  | nil => rfl
  | cons q ps ih =>
    cases ps with
    | nil => rfl
    | cons r ps => simpa [outdentLast] using ih

/-- Lines in braces but for the last of the braces. -/
theorem braced_eq {rows : List (List Piece)} (some_row : rows ≠ []) :
    braced [] rows =
      .text "\x7b" :: .line :: (between [.line] rows ++ [turn (-step) endless]) := by
  have bare : (rows.isEmpty : Bool) = false := by simpa using some_row
  have last := outdentLast_append (.line :: between [.line] rows) .line
  simp only [braced, lines, List.isEmpty_nil, bare, Bool.and_false, Bool.false_eq_true, if_false,
    flatMap_line some_row]
  exact congrArg (_ :: ·) last

end TypedDecl.Layout
