import Mathlib.Data.List.Infix
import Reannotate.Proofs.Illustrations

/-!
# Lines of a text with unified breaks

A line of a text is still a line when all breaks are line feeds, and has the same number. But a
carriage return and a line feed become one point, so what comes after them lies nearer to the start.
An offset that is used for the new text as it was in the old one is right as long as no such pair
comes before it (`pictures_unified_iff`).
-/

namespace Reannotate

namespace Text

def pair : Text :=
  [.char '\r', .char '\n']

/-- The offset in the text with unified breaks of what is at an offset in the text. -/
def shrunk (s : Text) (offset : Nat) : Nat :=
  (unifyBreaks (s.take offset)).length

/-! ## Unified breaks -/

theorem head?_ne_feed {s : Text} (h : ∀ rest, s = .char '\n' :: rest → False) :
    s.head? ≠ some (.char '\n') := by
  rw [Ne, List.head?_eq_some_iff]
  rintro ⟨rest, rfl⟩
  exact h rest rfl

theorem unifyBreaks_pair (s : Text) :
    unifyBreaks (.char '\r' :: .char '\n' :: s) = .char '\n' :: unifyBreaks s := by
  rw [unifyBreaks]

theorem unifyBreaks_return {s : Text} (h : s.head? ≠ some (.char '\n')) :
    unifyBreaks (.char '\r' :: s) = .char '\n' :: unifyBreaks s := by
  rw [unifyBreaks]
  rintro rest rfl
  exact h rfl

theorem unifyBreaks_other {p : Point} (h : p ≠ .char '\r') (s : Text) :
    unifyBreaks (p :: s) = p :: unifyBreaks s := by
  rw [unifyBreaks]
  · intro _ ret
    exact absurd ret h
  · exact h

/-- A text goes on after a pair, after a carriage return by itself, or after any other point. -/
@[elab_as_elim]
theorem break_induction {motive : Text → Prop} (nil : motive [])
    (pair : ∀ rest, motive rest → motive (.char '\r' :: .char '\n' :: rest))
    (lone : ∀ rest, rest.head? ≠ some (.char '\n') → motive rest → motive (.char '\r' :: rest))
    (other : ∀ p rest, p ≠ .char '\r' → motive rest → motive (p :: rest)) (s : Text) : motive s := by
  fun_induction unifyBreaks s with
  | case1 => exact nil
  | case2 rest ih => exact pair rest ih
  | case3 rest hrest ih => exact lone rest (head?_ne_feed hrest) ih
  | case4 p rest _ hp ih => exact other p rest hp ih

def Uncut (s t : Text) : Prop :=
  s.getLast? = some (.char '\r') → t.head? ≠ some (.char '\n')

theorem Uncut.tail {p : Point} {s t : Text} (h : Uncut (p :: s) t) : Uncut s t := by
  intro last
  apply h
  simp [List.getLast?_cons, last]

theorem unifyBreaks_append {s t : Text} (h : Uncut s t) :
    unifyBreaks (s ++ t) = unifyBreaks s ++ unifyBreaks t := by
  induction s using break_induction with
  | nil => rfl
  | pair rest ih =>
    rw [List.cons_append, List.cons_append, unifyBreaks_pair, unifyBreaks_pair, ih h.tail.tail,
      List.cons_append]
  | lone rest hrest ih =>
    have next : (rest ++ t).head? ≠ some (.char '\n') := by
      cases rest with
      | nil => exact h rfl
      | cons q rest => exact hrest
    rw [List.cons_append, unifyBreaks_return next, unifyBreaks_return hrest, ih h.tail,
      List.cons_append]
  | other p rest hp ih =>
    rw [List.cons_append, unifyBreaks_other hp, unifyBreaks_other hp, ih h.tail, List.cons_append]

theorem pair_infix_cons {p : Point} {s : Text} :
    pair <:+: p :: s ↔ (p = .char '\r' ∧ s.head? = some (.char '\n')) ∨ pair <:+: s := by
  rw [List.infix_cons_iff, pair, List.cons_prefix_cons, List.singleton_prefix_iff_head?_eq_some]
  simp only [eq_comm]

theorem length_unifyBreaks_le (s : Text) : (unifyBreaks s).length ≤ s.length := by
  induction s using break_induction with
  | nil => rfl
  | pair rest ih =>
    rw [unifyBreaks_pair]
    simp only [List.length_cons]
    omega
  | lone rest hrest ih => simpa [unifyBreaks_return hrest] using ih
  | other p rest hp ih => simpa [unifyBreaks_other hp] using ih

theorem length_unifyBreaks_eq_iff {s : Text} :
    (unifyBreaks s).length = s.length ↔ ¬pair <:+: s := by
  induction s using break_induction with
  | nil => simp [pair, unifyBreaks]
  | pair rest ih =>
    have := length_unifyBreaks_le rest
    have shorter : (unifyBreaks rest).length + 1 ≠ rest.length + 1 + 1 := by omega
    simpa [unifyBreaks_pair, pair_infix_cons] using shorter
  | lone rest hrest ih => simpa [unifyBreaks_return hrest, pair_infix_cons, hrest] using ih
  | other p rest hp ih => simpa [unifyBreaks_other hp, pair_infix_cons, hp] using ih

theorem length_unifyBreaks_lt_iff {s : Text} :
    (unifyBreaks s).length < s.length ↔ pair <:+: s := by
  rw [Nat.lt_iff_le_and_ne, Ne, length_unifyBreaks_eq_iff, not_not]
  exact and_iff_right (length_unifyBreaks_le s)

theorem unifyBreaks_ne_nil {s : Text} (h : s ≠ []) : unifyBreaks s ≠ [] := by
  cases s using break_induction with
  | nil => exact absurd rfl h
  | pair rest => simp [unifyBreaks_pair]
  | lone rest hrest => simp [unifyBreaks_return hrest]
  | other p rest hp => simp [unifyBreaks_other hp]

theorem unifyBreaks_body {body : Text} (h : ∀ p ∈ body, p ≠ .char '\r') (rest : Text) :
    unifyBreaks (body ++ rest) = body ++ unifyBreaks rest := by
  induction body with
  | nil => rfl
  | cons p body ih =>
    have ⟨hp, hbody⟩ := List.forall_mem_cons.1 h
    rw [List.cons_append, unifyBreaks_other hp, ih hbody, List.cons_append]

theorem break_unifyBreaks {t : Text} (h : Line.Break t) : Line.Break (unifyBreaks t) := by
  rcases h with rfl | rfl | rfl | rfl
  · exact .inl rfl
  · exact .inr (.inl rfl)
  · exact .inr (.inl rfl)
  · exact .inr (.inl rfl)

theorem break_pair_or {t : Text} (h : Line.Break t) :
    t = pair ∨ t.length ≤ 1 ∧ (unifyBreaks t).length = t.length := by
  rcases h with rfl | rfl | rfl | rfl
  · exact .inr ⟨by decide, rfl⟩
  · exact .inr ⟨by decide, rfl⟩
  · exact .inr ⟨by decide, rfl⟩
  · exact .inl rfl

/-! ## The bounds -/

theorem shrunk_zero (s : Text) : shrunk s 0 = 0 := rfl

theorem shrunk_le (s : Text) (k : Nat) : shrunk s k ≤ k := by
  have := length_unifyBreaks_le (s.take k)
  rw [List.length_take] at this
  rw [shrunk]
  omega

theorem shrunk_eq {s : Text} {k : Nat} (h : k ≤ s.length) (none : ¬pair <:+: s.take k) :
    shrunk s k = k := by
  rw [shrunk, length_unifyBreaks_eq_iff.2 none, List.length_take, Nat.min_eq_left h]

theorem shrunk_pair (s : Text) (k : Nat) :
    shrunk (.char '\r' :: .char '\n' :: s) (k + 2) = shrunk s k + 1 := by
  rw [shrunk, List.take_succ_cons, List.take_succ_cons, unifyBreaks_pair, List.length_cons, shrunk]

theorem shrunk_return {s : Text} (h : s.head? ≠ some (.char '\n')) (k : Nat) :
    shrunk (.char '\r' :: s) (k + 1) = shrunk s k + 1 := by
  have next : (s.take k).head? ≠ some (.char '\n') := by
    rw [List.head?_take]
    split
    · nofun
    · exact h
  rw [shrunk, List.take_succ_cons, unifyBreaks_return next, List.length_cons, shrunk]

theorem shrunk_other {p : Point} (h : p ≠ .char '\r') (s : Text) (k : Nat) :
    shrunk (p :: s) (k + 1) = shrunk s k + 1 := by
  rw [shrunk, List.take_succ_cons, unifyBreaks_other h, List.length_cons, shrunk]

theorem breaksFrom_shift (n : Nat) (s : Text) :
    breaksFrom n s = (breaksFrom 0 s).map (· + n) := by
  rw [breaksFrom_eq, breaksFrom_eq, List.map_map]
  simp [Function.comp_def, Nat.add_comm]

theorem breaksFrom_unifyBreaks (s : Text) :
    breaksFrom 0 (unifyBreaks s) = (breaksFrom 0 s).map (shrunk s) := by
  induction s using break_induction with
  | nil => rfl
  | pair rest ih =>
    rw [unifyBreaks_pair, breaksFrom, breaksFrom, breaksFrom_shift, breaksFrom_shift (0 + 2), ih]
    simp [Function.comp_def, shrunk_pair, shrunk_zero]
  | lone rest hrest ih =>
    rw [unifyBreaks_return hrest, breaksFrom, breaksFrom, breaksFrom_shift,
      breaksFrom_shift (0 + 1) rest, ih]
    · simp [Function.comp_def, shrunk_return hrest, shrunk_zero]
    · rintro rest rfl
      exact hrest rfl
  | other p rest hp ih =>
    have same : LineStart (p :: unifyBreaks rest) 1 ↔ LineStart (p :: rest) 1 := by
      simp [LineStart, hp]
    rw [unifyBreaks_other hp, breaksFrom_cons, breaksFrom_cons, breaksFrom_shift,
      breaksFrom_shift (0 + 1) rest, ih]
    by_cases h : LineStart (p :: rest) 1 <;>
      simp [h, same, Function.comp_def, shrunk_other hp, shrunk_zero]

theorem bounds_unifyBreaks (s : Text) : bounds (unifyBreaks s) = (bounds s).map (shrunk s) := by
  have last : shrunk s s.length = (unifyBreaks s).length := by rw [shrunk, List.take_length]
  simp [bounds, breaksFrom_unifyBreaks, shrunk_zero, last]

/-! ## The lines -/

namespace Line

variable {l : Line} {s : Text} {offset : Nat}

def unified (l : Line) (s : Text) : Line :=
  ⟨l.row, shrunk s l.start, shrunk s l.stop⟩

theorem In.unified (h : l.In s) : (l.unified s).In (unifyBreaks s) := by
  obtain ⟨start, stop⟩ := h.between
  obtain ⟨i, hi⟩ : ∃ i, l.row = i + 1 := ⟨_, h.row_eq⟩
  rw [hi] at start stop
  rw [Line.unified, hi]
  apply in_of_between
  · rw [bounds_unifyBreaks, List.getElem?_map]
    exact congrArg (Option.map (shrunk s)) start
  · rw [bounds_unifyBreaks, List.getElem?_map, stop, Option.map_some]

theorem uncut_of_lineStart {k : Nat} (h : LineStart s k) {t : Text}
    (ht : ∀ p, t.head? = some p → s[k]? = some p) : Uncut (s.take k) t := by
  intro last next
  rw [List.getLast?_take] at last
  cases k with
  | zero => cases last
  | succ i =>
    rw [if_neg (Nat.succ_ne_zero i), Nat.add_sub_cancel] at last
    rcases h with feed | ⟨ret, other⟩
    · simp [feed] at last
    · exact other (ht _ next)

theorem In.take_stop (h : l.In s) : s.take l.stop = s.take l.start ++ l.textIn s := by
  rw [← List.take_append_drop l.start (s.take l.stop), List.take_take,
    Nat.min_eq_left h.start_le_stop]
  rfl

theorem unifyBreaks_take_stop (h : l.In s) :
    unifyBreaks (s.take l.stop) = unifyBreaks (s.take l.start) ++ unifyBreaks (l.textIn s) := by
  rw [h.take_stop]
  apply unifyBreaks_append (uncut_of_lineStart h.start _)
  intro p hp
  rw [textIn, slice, List.head?_drop, List.getElem?_take] at hp
  split at hp
  · exact hp
  · cases hp

theorem unifyBreaks_split (h : l.In s) :
    unifyBreaks s = unifyBreaks (s.take l.stop) ++ unifyBreaks (s.drop l.stop) := by
  nth_rewrite 1 [← List.take_append_drop l.stop s]
  apply unifyBreaks_append
  rcases h.stop with least | ⟨_, stop⟩
  · apply uncut_of_lineStart least.1.2
    intro p hp
    rwa [List.head?_drop] at hp
  · rw [stop, List.drop_length]
    nofun

theorem textIn_unified (h : l.In s) :
    (l.unified s).textIn (unifyBreaks s) = unifyBreaks (l.textIn s) := by
  rw [textIn, slice, Line.unified, unifyBreaks_split h]
  simp only [shrunk, List.take_left, unifyBreaks_take_stop h, List.drop_left]

theorem unified_stop (h : l.In s) :
    (l.unified s).stop = (l.unified s).start + (unifyBreaks (l.textIn s)).length := by
  simp only [Line.unified, shrunk, unifyBreaks_take_stop h, List.length_append]

theorem lineStart_shrunk {k : Nat} (h : LineStart s k) :
    LineStart (unifyBreaks s) (shrunk s k) := by
  obtain ⟨l, hl, ⟨_, low⟩, greatest⟩ := exists_last s k
  have start : l.start = k := Nat.le_antisymm low (greatest ⟨h, Nat.le_refl k⟩)
  rw [← start]
  exact hl.unified.start

theorem lineStart_of_take {i : Nat} {before after : Text}
    (h : before ++ pair ++ after = s.take i) : LineStart s (before.length + 2) := by
  have feed : (s.take i)[before.length + 1]? = some (.char '\n') := by
    rw [← h, List.append_assoc, List.getElem?_append_right (Nat.le_add_right _ _),
      Nat.add_sub_cancel_left]
    rfl
  rw [List.getElem?_take] at feed
  split at feed
  · exact .inl feed
  · cases feed

theorem exists_shrunk_lt {i : Nat} (h : pair <:+: s.take i) :
    ∃ k ≤ i, LineStart s k ∧ ∀ j, k ≤ j → j ≤ s.length → shrunk s j < j := by
  obtain ⟨before, after, split⟩ := h
  have length := congrArg List.length split
  simp only [List.length_append, List.length_take, pair, List.length_cons, List.length_nil]
    at length
  refine ⟨before.length + 2, by omega, lineStart_of_take split, fun j hj inside => ?_⟩
  have shorter : pair <:+: s.take j := by
    have first : s.take (before.length + 2) = before ++ pair := by
      rw [← Nat.min_eq_left (by omega : before.length + 2 ≤ i), ← List.take_take, ← split]
      exact List.take_left' (by simp [pair])
    refine List.IsInfix.trans ?_ (List.take_prefix_take_left hj).isInfix
    rw [first]
    exact List.infix_append' before pair []
  have := length_unifyBreaks_lt_iff.2 shorter
  rwa [List.length_take, Nat.min_eq_left inside] at this

theorem In.unifyBreaks_last (h : l.In s) (last : ∀ k, LineStart s k → k ≤ l.start) :
    (unifyBreaks (l.textIn s)).length = (l.textIn s).length := by
  rw [length_unifyBreaks_eq_iff]
  rintro ⟨before, after, split⟩
  have here : s.take l.start ++ before ++ pair ++ after = s.take l.stop := by
    rw [h.take_stop, ← split]
    simp only [List.append_assoc]
  have start := last _ (lineStart_of_take here)
  have := h.start.le_length
  simp only [List.length_append, List.length_take] at start
  omega

theorem column_unified (h : l.In s) (low : l.start ≤ offset) (inside : offset < l.stop)
    (none : ¬pair <:+: s.take (offset + 1)) {body rest : Text} (text : l.textIn s = body ++ rest)
    (hrest : Break rest) : offset - l.start ≤ body.length ∧
      offset - l.start < body.length + (unifyBreaks rest).length := by
  have length := h.length_textIn
  rw [text, List.length_append] at length
  rcases break_pair_or hrest with rfl | ⟨short, same⟩
  · -- The offset would be in the middle of the pair, or before it.
    have before : offset + 1 ≠ l.stop := by
      intro stop
      apply none
      rw [stop, h.take_stop, text, ← List.append_assoc]
      exact (List.suffix_append _ _).isInfix
    have two : pair.length = 2 := rfl
    have one : (unifyBreaks pair).length = 1 := rfl
    omega
  · omega

theorem not_pair_of_column (h : l.In s) (last : IsGreatest {k | LineStart s k ∧ k ≤ offset} l.start)
    (inside : offset < l.stop)
    (last' : IsGreatest {k | LineStart (unifyBreaks s) k ∧ k ≤ offset} (l.unified s).start)
    (column : offset - l.start =
      min (offset - (l.unified s).start) ((l.unified s).stop - (l.unified s).start)) :
    ¬pair <:+: s.take (offset + 1) := by
  intro hpair
  have low : l.start ≤ offset := last.1.2
  have length := h.length_textIn
  have ustop := unified_stop h
  have ustart : (l.unified s).start = shrunk s l.start := rfl
  have := shrunk_le s l.start
  have := h.stop_le
  obtain ⟨k, hk, start, less⟩ := exists_shrunk_lt hpair
  rcases h.stop with least | ⟨none, -⟩
  · -- The next line starts after the offset in both texts, so the columns are not cut off.
    have next : LineStart (unifyBreaks s) (l.unified s).stop := lineStart_shrunk least.1.2
    have nonempty : 0 < (unifyBreaks (l.textIn s)).length := by
      rw [List.length_pos_iff]
      apply unifyBreaks_ne_nil
      rw [Ne, ← List.length_eq_zero_iff]
      omega
    have beyond : offset < (l.unified s).stop := by
      by_contra within
      have := last'.2 ⟨next, Nat.le_of_not_lt within⟩
      omega
    have same : shrunk s l.start = l.start := by omega
    by_cases early : k ≤ offset
    · have := less l.start (last.2 ⟨start, early⟩) (by omega)
      omega
    · have stop : l.stop ≤ k := least.2 ⟨by omega, start⟩
      have shorter := less l.stop (by omega) (by omega)
      have : (l.unified s).stop = shrunk s l.stop := rfl
      omega
  · -- The last line is as long as before, so it does not reach the offset if it starts earlier.
    have := less l.start (none k start) (by omega)
    have := h.unifyBreaks_last none
    omega

end Line

end Text

namespace Report

open Reannotate.Text (Line LineStart unifyBreaks shrunk pair)

/-! ## Reading a picture -/

def shownIndent (picture : Text) : Nat :=
  (((picture.dropWhile (· ≠ .char '\n')).drop 1).takeWhile (· ≠ .char '^')).length

theorem shownIndent_eq {first blanks rest : Text} {carets : Nat} (hfirst : .char '\n' ∉ first)
    (hblanks : .char '^' ∉ blanks) (hcarets : 0 < carets) :
    shownIndent (first ++ .char '\n' ::
      (blanks ++ List.replicate carets (.char '^') ++ rest)) = blanks.length := by
  obtain ⟨more, rfl⟩ : ∃ more, carets = more + 1 := ⟨carets - 1, by omega⟩
  rw [shownIndent, List.dropWhile_append_of_pos, List.append_assoc]
  · rw [List.dropWhile_cons_of_neg (by simp), List.drop_one, List.tail_cons,
      List.takeWhile_append_of_pos, List.replicate_succ, List.cons_append,
      List.takeWhile_cons_of_neg (by simp), List.append_nil]
    intro p hp
    simpa using ne_of_mem_of_not_mem hp hblanks
  · intro p hp
    simpa using ne_of_mem_of_not_mem hp hfirst

theorem Indents.caret_notMem {text blanks : Text} {width : Nat} (h : Indents text width blanks) :
    .char '^' ∉ blanks := by
  intro caret
  obtain ⟨i, hi⟩ := List.getElem?_of_mem caret
  have inside : i < width := by
    rw [← h.length]
    exact (List.getElem?_eq_some_iff.1 hi).1
  rw [h.tabs i inside] at hi
  split at hi <;> simp at hi

theorem caret_notMem_blanked (text : Text) : .char '^' ∉ blanked text := by
  rw [blanked, List.mem_map]
  rintro ⟨p, -, hp⟩
  split at hp
  · rename_i tab
    rw [tab] at hp
    simp at hp
  · simp at hp

theorem Indents.congr {text text' blanks : Text} {width : Nat} (h : Indents text width blanks)
    (same : text.take width = text'.take width) : Indents text' width blanks := by
  refine ⟨h.length, fun i hi => ?_⟩
  have value : text'[i]? = text[i]? := by
    rw [← List.getElem?_take_of_lt hi, ← same, List.getElem?_take_of_lt hi]
  rw [h.tabs i hi, value]

theorem Pictures.congr {s s' : Text} {l l' : Line} {offset carets : Nat} {caption picture : Text}
    (h : Pictures s l offset carets caption picture) (row : l.row = l'.row)
    (start : l.start = l'.start)
    (kept : Text.dropEnd (Point.satisfies Text.isBlank) (l.textIn s) =
      Text.dropEnd (Point.satisfies Text.isBlank) (l'.textIn s'))
    (before : (l.textIn s).take (offset - l.start) = (l'.textIn s').take (offset - l.start)) :
    Pictures s' l' offset carets caption picture := by
  have shown : shownLine l s = shownLine l' s' := by rw [shownLine, shownLine, row, kept]
  obtain ⟨number, single, blanks, indents, text⟩ := h
  rw [shown] at single text
  rw [row] at number indents
  refine ⟨number, single, blanks, ?_, text⟩
  rw [← start]
  apply indents.congr
  rw [List.take_length_add_append, List.take_length_add_append, before]

theorem repr_inj {m n : Nat} (h : Text.ofString (Nat.repr m) = Text.ofString (Nat.repr n)) :
    m = n := by
  have digits : Nat.toDigits 10 m = Nat.toDigits 10 n := by
    simpa using congrArg String.toList (Text.ofString_inj.1 h)
  simpa using congrArg (Nat.ofDigitChars 10 · 0) digits

section
variable {l : Line} {s : Text} {offset carets : Nat} {caption picture : Text}

theorem Pictures.indent (h : Pictures s l offset carets caption picture) (hcarets : 0 < carets) :
    shownIndent picture = (margin l.row).length + (offset - l.start) := by
  obtain ⟨blanks, indents, shown⟩ := h.below
  rw [shown, shownIndent_eq h.single indents.caret_notMem hcarets, indents.length]

theorem shownIndent_pointed (h : l.In s)
    (last : IsGreatest {k | LineStart s k ∧ k ≤ offset} l.start) {span : Flow.Span}
    (hstart : span.start.offset = offset) (caption : Text) :
    shownIndent (pointed s span caption) =
      (margin l.row).length + min (offset - l.start) (l.stop - l.start) := by
  have low : l.start ≤ offset := last.1.2
  have column : (offset : Int) - l.start = (offset - l.start : Nat) := by omega
  rw [pointed_eq h last hstart, column, picture_eq, ← shownLine,
    shownIndent_eq (feed_notMem_shownLine h) (caret_notMem_blanked _) (by omega), blanked,
    List.length_map, List.length_take, List.length_append, h.length_textIn]
  omega

theorem shownNumber_pointed (h : l.In s)
    (last : IsGreatest {k | LineStart s k ∧ k ≤ offset} l.start) {span : Flow.Span}
    (hstart : span.start.offset = offset) (caption : Text) :
    shownNumber (pointed s span caption) = Text.ofString (Nat.repr l.row) := by
  rw [pointed_eq h last hstart, Report.picture, List.append_assoc]
  exact shownNumber_margin _ _

/-! ## The right place -/

theorem pictures_unified (h : l.In s) (last : IsGreatest {k | LineStart s k ∧ k ≤ offset} l.start)
    (inside : offset < l.stop) (none : ¬pair <:+: s.take (offset + 1)) {span : Flow.Span}
    (hstart : span.start.offset = offset) (caption : Text) :
    ∃ carets, 0 < carets ∧
      Pictures s l offset carets caption (pointed (unifyBreaks s) span caption) := by
  have low : l.start ≤ offset := last.1.2
  have hu := h.unified
  have start : (l.unified s).start = l.start := by
    apply Text.shrunk_eq (Nat.le_trans h.start_le_stop h.stop_le)
    intro inTake
    exact none (inTake.trans (List.take_prefix_take_left (by omega)).isInfix)
  obtain ⟨body, rest, text, hrest, plain⟩ := h.exists_body
  have text' : (l.unified s).textIn (unifyBreaks s) = body ++ unifyBreaks rest := by
    rw [Line.textIn_unified h, text, Text.unifyBreaks_body fun p hp => (plain p hp).1]
  have ⟨kept, place⟩ := Line.column_unified h low inside none text hrest
  have stop : offset < (l.unified s).stop := by
    rw [Line.unified_stop h, ← Line.textIn_unified h, text', start, List.length_append]
    omega
  have last' : IsGreatest {k | LineStart (unifyBreaks s) k ∧ k ≤ offset} (l.unified s).start := by
    have := hu.stop_le
    refine (hu.holds_iff (by omega)).1 ⟨?_, .inl stop⟩
    rw [start]
    exact low
  have pictured := pictures_pointed hu last' (Nat.le_of_lt stop) hstart caption
  refine ⟨_, ?_, pictured.congr rfl start ?_ ?_⟩
  · omega
  · rw [text', text, dropEnd_append (isBlank_of_break hrest),
      dropEnd_append (isBlank_of_break (Text.break_unifyBreaks hrest))]
  · rw [text', text, start, List.take_append_of_le_length kept, List.take_append_of_le_length kept]

theorem not_pair_of_pictures (h : l.In s)
    (last : IsGreatest {k | LineStart s k ∧ k ≤ offset} l.start) (inside : offset < l.stop)
    {span : Flow.Span} (hstart : span.start.offset = offset) (hcarets : 0 < carets)
    (shown : Pictures s l offset carets caption (pointed (unifyBreaks s) span caption)) :
    ¬pair <:+: s.take (offset + 1) := by
  -- By its number the line shown is the one that the right line becomes.
  obtain ⟨v, hv, lastv⟩ := Line.exists_last (unifyBreaks s) offset
  have row : v.row = l.row :=
    repr_inj ((shownNumber_pointed hv lastv hstart caption).symm.trans shown.number)
  obtain rfl : v = l.unified s := hv.eq_of_row h.unified row
  have columns := (shown.indent hcarets).symm.trans (shownIndent_pointed hv lastv hstart caption)
  rw [row, Nat.add_left_cancel_iff] at columns
  exact Line.not_pair_of_column h last inside lastv columns

/-- The picture of a line in the text with unified breaks is one of the line in the text itself just
if no pair ends by the offset. -/
theorem pictures_unified_iff (h : l.In s) (holds : l.Holds s offset) (inside : offset < s.length)
    {span : Flow.Span} (hstart : span.start.offset = offset) (caption : Text) :
    (∃ carets, 0 < carets ∧
      Pictures s l offset carets caption (pointed (unifyBreaks s) span caption)) ↔
    ¬pair <:+: s.take (offset + 1) := by
  have last := (h.holds_iff (Nat.le_of_lt inside)).1 holds
  have before : offset < l.stop := by
    rcases holds.2 with before | ⟨rfl, _⟩
    · exact before
    · exact absurd inside (Nat.lt_irrefl _)
  constructor
  · intro ⟨carets, hcarets, shown⟩
    exact not_pair_of_pictures h last before hstart hcarets shown
  · intro none
    exact pictures_unified h last before none hstart caption

end

end Report

end Reannotate
