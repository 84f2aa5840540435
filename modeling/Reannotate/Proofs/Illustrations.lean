import Reannotate.Proofs.Lines
import Reannotate.Report.Illustration

/-!
# What an illustration shows

Whatever the span of a phrase, its illustration is made without a look-up outside the bounds. If the
span starts in the source, the illustration shows the line that holds this place, and has its carets
below (`illustrations_point`).
-/

namespace Reannotate.Report

open Reannotate.Text (Line LineStart)

/-! ## Look-ups -/

/-- The row and the column, unless a bound is missing. -/
def rowAndColumn? (text : Text) (offset : Int) : Option (Nat × Int) := do
  let bounds := Text.bounds text
  let row := (bounds.dropLast.takeWhile fun (b : Nat) => (b : Int) ≤ offset).length
  let base ← if row = 0 then bounds.getLast? else bounds[row - 1]?
  return (row, offset - base)

def lineInRow? (text : Text) (row : Nat) : Option Text := do
  let bounds := Text.bounds text
  return Text.slice text (← bounds[row - 1]?) (← bounds[row - 1 + 1]?)

def pointed? (source : Text) (span : Flow.Span) (caption : Text) : Option Text := do
  let (row, column) ← rowAndColumn? source span.start.offset
  let line ← lineInRow? source row
  return picture (margin row) line column (span.stop.offset - span.start.offset) caption

theorem row_lt (text : Text) (offset : Int) :
    (rowAndColumn text offset).1 - 1 + 1 < (Text.bounds text).length := by
  have taken := (List.takeWhile_sublist (l := (Text.bounds text).dropLast)
    fun b : Nat => (b : Int) ≤ offset).length_le
  rw [List.length_dropLast] at taken
  have two : 2 ≤ (Text.bounds text).length := by simp [Text.bounds]
  simp only [rowAndColumn]
  omega

theorem getElem?_eq_getD {α : Type} {as : List α} {i : Nat} (h : i < as.length) (a : α) :
    as[i]? = some (as.getD i a) := by
  simp [List.getD_eq_getElem?_getD, h]

theorem rowAndColumn?_eq (text : Text) (offset : Int) :
    rowAndColumn? text offset = some (rowAndColumn text offset) := by
  have inside := row_lt text offset
  simp only [rowAndColumn] at inside
  simp only [rowAndColumn?, rowAndColumn]
  split
  · have last : (Text.bounds text).getLast? = some text.length := by
      rw [Text.bounds, ← List.cons_append, List.getLast?_concat]
    rw [last]
    rfl
  · rw [getElem?_eq_getD (by omega) 0]
    rfl

theorem lineInRow?_eq {text : Text} {row : Nat} (h : row - 1 + 1 < (Text.bounds text).length) :
    lineInRow? text row = some (lineInRow text row) := by
  simp only [lineInRow?, lineInRow]
  rw [getElem?_eq_getD (by omega) 0, getElem?_eq_getD h text.length]
  rfl

theorem pointed?_eq (source : Text) (span : Flow.Span) (caption : Text) :
    pointed? source span caption = some (pointed source span caption) := by
  simp only [pointed?, pointed, rowAndColumn?_eq, Option.bind_eq_bind, Option.bind_some,
    lineInRow?_eq (row_lt source span.start.offset)]
  rfl

/-! ## The place in the source -/

section
variable {l : Line} {s : Text} {offset : Nat}

theorem rowAndColumn_eq (h : l.In s) (last : IsGreatest {k | LineStart s k ∧ k ≤ offset} l.start) :
    rowAndColumn s offset = (l.row, (offset : Int) - l.start) := by
  have pos : l.row ≠ 0 := by rw [h.row_eq]; omega
  simp only [rowAndColumn, h.row_eq_takeWhile last, if_neg pos]
  rw [List.getD_eq_getElem?_getD, h.between.1]
  rfl

theorem lineInRow_eq (h : l.In s) : lineInRow s l.row = l.textIn s := by
  have pos : l.row - 1 + 1 = l.row := by rw [h.row_eq]; omega
  simp only [lineInRow, pos, List.getD_eq_getElem?_getD, h.between.1, h.between.2]
  rfl

theorem pointed_eq (h : l.In s) (last : IsGreatest {k | LineStart s k ∧ k ≤ offset} l.start)
    {span : Flow.Span} (hstart : span.start.offset = offset) (caption : Text) :
    pointed s span caption = picture (margin l.row) (l.textIn s) ((offset : Int) - l.start)
      (span.stop.offset - offset) caption := by
  simp only [pointed, hstart, rowAndColumn_eq h last, lineInRow_eq h]

end

/-! ## Pictures -/

/-- Blanks that take as much room as the first points of a text, tabs included. -/
structure Indents (text : Text) (width : Nat) (blanks : Text) : Prop where
  length : blanks.length = width
  tabs : ∀ i < width, blanks[i]? =
    some (if text[i]? = some (.char '\t') then .char '\t' else .char ' ')

theorem indents_blanked {text : Text} {width : Nat} (h : width ≤ text.length) :
    Indents text width (blanked (text.take width)) := by
  constructor
  · simp [blanked, h]
  · intro i hi
    have inside : i < text.length := by omega
    rw [blanked, List.getElem?_map, List.getElem?_take, if_pos hi, List.getElem?_eq_getElem inside]
    by_cases tab : text[i] = .char '\t' <;> simp [tab]

def shownLine (l : Line) (s : Text) : Text :=
  margin l.row ++ Text.dropEnd (Point.satisfies Text.isBlank) (l.textIn s)

def shownNumber (picture : Text) : Text :=
  (picture.dropWhile (· = .char ' ')).takeWhile (Point.satisfies Char.isDigit)

/-- The picture shows the line with its number, and carets below it, the first one under the
offset. -/
structure Pictures (s : Text) (l : Line) (offset carets : Nat) (caption picture : Text) : Prop where
  number : shownNumber picture = Text.ofString (Nat.repr l.row)
  single : .char '\n' ∉ shownLine l s
  below : ∃ blanks,
    Indents (margin l.row ++ l.textIn s) ((margin l.row).length + (offset - l.start)) blanks ∧
    picture = shownLine l s ++ .char '\n' ::
      (blanks ++ List.replicate carets (.char '^') ++ .char ' ' :: caption)

theorem margin_eq (row : Nat) : ∃ width, margin row =
    List.replicate (width + 1) (.char ' ') ++ (Text.ofString (Nat.repr row) ++
      [.char ' ', .char '|']) := by
  refine ⟨5 - (Nat.toDigits 10 row).length, ?_⟩
  simp [margin, Text.ofChars, Text.ofString, List.replicate_succ']

theorem shownNumber_margin (row : Nat) (rest : Text) :
    shownNumber (margin row ++ rest) = Text.ofString (Nat.repr row) := by
  obtain ⟨width, margin⟩ := margin_eq row
  have digits : ∀ p ∈ Text.ofString (Nat.repr row), p.satisfies Char.isDigit = true :=
    fun _ => Text.satisfies_of_mem_repr
  have first : ∀ rest : Text, (Text.ofString (Nat.repr row) ++ rest).dropWhile (· = .char ' ') =
      Text.ofString (Nat.repr row) ++ rest := by
    intro rest
    cases h : Text.ofString (Nat.repr row) with
    | nil => simp [Text.ofString, Text.ofChars] at h
    | cons p ps =>
      apply List.dropWhile_cons_of_neg
      intro blank
      have := digits p (h ▸ List.mem_cons_self)
      rw [of_decide_eq_true blank] at this
      cases this
  rw [shownNumber, margin, List.append_assoc, List.append_assoc, List.dropWhile_append_of_pos,
    first, List.takeWhile_append_of_pos digits]
  · simp [Point.satisfies]
  · intro p hp
    simp [List.eq_of_mem_replicate hp]

theorem feed_notMem_margin (row : Nat) : .char '\n' ∉ margin row := by
  obtain ⟨width, margin⟩ := margin_eq row
  rw [margin]
  intro h
  simp only [List.mem_append, List.mem_replicate, List.mem_cons] at h
  rcases h with blank | digit | bar
  · simp at blank
  · have := Text.satisfies_of_mem_repr digit
    cases this
  · simp at bar

theorem dropEnd_append {α : Type} {p : α → Bool} {as bs : List α} (h : ∀ b ∈ bs, p b = true) :
    Text.dropEnd p (as ++ bs) = Text.dropEnd p as := by
  rw [Text.dropEnd, List.reverse_append, List.dropWhile_append_of_pos, Text.dropEnd]
  intro b hb
  exact h b (List.mem_reverse.1 hb)

theorem mem_of_mem_dropEnd {α : Type} {p : α → Bool} {as : List α} {a : α}
    (h : a ∈ Text.dropEnd p as) : a ∈ as := by
  rw [Text.dropEnd, List.mem_reverse] at h
  exact List.mem_reverse.1 ((List.dropWhile_sublist p).mem h)

theorem isBlank_of_break {t : Text} (h : Line.Break t) :
    ∀ p ∈ t, p.satisfies Text.isBlank = true := by
  rcases h with rfl | rfl | rfl | rfl <;> decide

section
variable {l : Line} {s : Text} {offset : Nat}

theorem feed_notMem_shownLine (h : l.In s) : .char '\n' ∉ shownLine l s := by
  obtain ⟨body, rest, text, hrest, plain⟩ := h.exists_body
  rw [shownLine, text, dropEnd_append (isBlank_of_break hrest), List.mem_append, not_or]
  refine ⟨feed_notMem_margin _, fun feed => ?_⟩
  exact (plain _ (mem_of_mem_dropEnd feed)).2 rfl

theorem picture_eq (m line : Text) (column : Nat) (width : Int) (caption : Text) :
    picture m line column width caption =
      m ++ Text.dropEnd (Point.satisfies Text.isBlank) line ++ .char '\n' ::
        (blanked ((m ++ line).take (m.length + column)) ++
          List.replicate (max 1 (min width (line.length - column))).toNat (.char '^') ++
          .char ' ' :: caption) := by
  have before : beforeColumn line column = line.take column := if_pos (by omega)
  simp only [picture, before, List.take_append, List.take_of_length_le (Nat.le_add_right _ _),
    Nat.add_sub_cancel_left]

theorem pictures_pointed (h : l.In s) (last : IsGreatest {k | LineStart s k ∧ k ≤ offset} l.start)
    (inside : offset ≤ l.stop) {span : Flow.Span} (hstart : span.start.offset = offset)
    (caption : Text) :
    Pictures s l offset (max 1 (min (span.stop.offset - offset) (l.stop - offset))).toNat caption
      (pointed s span caption) := by
  have low : l.start ≤ offset := last.1.2
  have column : (offset : Int) - l.start = (offset - l.start : Nat) := by omega
  have width : ((l.textIn s).length : Int) - (offset - l.start : Nat) = l.stop - offset := by
    have := h.start_le_stop
    rw [h.length_textIn]
    omega
  have shown := pointed_eq h last hstart caption
  rw [column, picture_eq, width] at shown
  refine ⟨?_, feed_notMem_shownLine h, _, indents_blanked ?_, shown⟩
  · rw [shown, List.append_assoc]
    exact shownNumber_margin _ _
  · rw [List.length_append, h.length_textIn]
    omega

end

/-- Every span can be illustrated. If it starts in the source, the illustration shows the line that
holds this place and no other, and the carets go no further than that line. -/
theorem illustrations_point {p : Flow.Phrase} {span : Flow.Span} (h : p.span = some span)
    (source caption : Text) :
    depict (some source) (.phrase p) caption = .ok (pointed source span caption) ∧
    pointed? source span caption = some (pointed source span caption) ∧
    ∀ offset : Nat, span.start.offset = offset → offset ≤ source.length →
      ∃ l : Line, l.In source ∧ l.Holds source offset ∧
        (∀ l' : Line, l'.In source → l'.Holds source offset → l' = l) ∧
        Pictures source l offset (max 1 (min (span.stop.offset - offset) (l.stop - offset))).toNat
          caption (pointed source span caption) := by
  refine ⟨?_, pointed?_eq source span caption, fun offset hstart inside => ?_⟩
  · simp only [depict, h]
  · obtain ⟨l, hl, last⟩ := Line.exists_last source offset
    have holds := (hl.holds_iff inside).2 last
    refine ⟨l, hl, holds, fun l' hl' holds' => hl'.eq_of_holds hl inside holds' holds, ?_⟩
    exact pictures_pointed hl last (hl.le_stop holds) hstart caption

def tabbed : Text :=
  "ab\r\n\tc"

theorem illustrations_point_tabbed :
    let span : Flow.Span := ⟨.int 5, .int 9⟩
    let phrase : Flow.Phrase := .primitive (some span) .any
    phrase.span = some span ∧ span.start.offset = (5 : Nat) ∧ 5 ≤ tabbed.length ∧
    depict (some tabbed) (.phrase phrase) "here" =
      .ok (Text.ofString "     2 |\tc\n        \t^ here") ∧
    ∃ l : Line, l.In tabbed ∧ l.Holds tabbed 5 ∧
      Pictures tabbed l 5 (max 1 (min (9 - 5) ((l.stop : Int) - 5))).toNat "here"
        (pointed tabbed span "here") := by
  intro span phrase
  have inside : 5 ≤ tabbed.length := by decide
  have place : phrase.span = some span := rfl
  obtain ⟨depicted, -, shown⟩ := illustrations_point place tabbed (Text.ofString "here")
  obtain ⟨l, hl, holds, -, pictured⟩ := shown 5 rfl inside
  refine ⟨place, rfl, inside, depicted.trans ?_, l, hl, holds, pictured⟩
  exact congrArg Except.ok (by decide +kernel)

end Reannotate.Report
