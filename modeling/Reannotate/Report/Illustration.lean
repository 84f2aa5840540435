import Reannotate.Flow.Describe
import Reannotate.Text.Blank
import Reannotate.Text.Lines

/-!
# Illustrations

An issue points at the phrase it is about. With the source at hand and a span, the picture shows the
line where the span starts, with carets below; else it shows the phrase itself.
-/

namespace Reannotate.Report

open Reannotate.Flow (Part)

/-- The row of the line that holds an offset, counting from one, and the column within it. An offset
past the end belongs to the last line. One before the start has row zero, and its column counts back
from the end. -/
def rowAndColumn (text : Text) (offset : Int) : Nat × Int :=
  let bounds := Text.bounds text
  let row := (bounds.dropLast.takeWhile fun (b : Nat) => (b : Int) ≤ offset).length
  let base := if row = 0 then text.length else bounds.getD (row - 1) 0
  (row, offset - base)

def lineInRow (text : Text) (row : Nat) : Text :=
  let bounds := Text.bounds text
  Text.slice text (bounds.getD (row - 1) 0) (bounds.getD (row - 1 + 1) text.length)

/-- What stands before a column, which counts back from the end if it is negative. -/
def beforeColumn (line : Text) (column : Int) : Text :=
  if 0 ≤ column then line.take column.toNat else line.take (line.length + column).toNat

def margin (row : Nat) : Text :=
  let number := ' ' :: (Nat.repr row).toList
  Text.ofChars (List.replicate (6 - number.length) ' ' ++ number ++ [' ', '|'])

def blanked (text : Text) : Text :=
  text.map fun p => if p = .char '\t' then p else .char ' '

def picture (margin line : Text) (column width : Int) (caption : Text) : Text :=
  let carets := (max 1 (min width (line.length - column))).toNat
  margin ++ Text.dropEnd (Point.satisfies Text.isBlank) line ++ .char '\n' ::
    (blanked (margin ++ beforeColumn line column) ++ List.replicate carets (.char '^') ++
      .char ' ' :: caption)

def pointed (source : Text) (span : Flow.Span) (caption : Text) : Text :=
  let (row, column) := rowAndColumn source span.start.offset
  picture (margin row) (lineInRow source row) column (span.stop.offset - span.start.offset) caption

/-- A part that is no phrase has no place in the source. -/
def depict (source : Option Text) (subject : Part) (caption : Text) : Except Fault Text :=
  match subject with
  | .phrase p =>
    match source, p.span with
    | some text, some span => .ok (pointed text span caption)
    | _, _ => do
      let shown ← p.describe
      let remark : Text := if caption.isEmpty then p.kind else caption
      return "    " ++ shown ++ "  <-- " ++ remark
  | _ => .error .noSuchPart

end Reannotate.Report
