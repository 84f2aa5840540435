import Mathlib.Data.List.TakeWhile
import Mathlib.Data.Nat.Count
import Mathlib.Order.Bounds.Basic
import Reannotate.Text.Lines

/-!
# Lines and their bounds

What a line is can be said without going through the text: `LineStart` tells where lines start, and
a `Line` of a text reaches from one such place to the next. The list of bounds holds just these
places, in order (`Line.In.between`). Every offset of a text is in one line (`Line.In.eq_of_holds`).
-/

namespace Reannotate.Text

/-- A line starts at zero, after each line feed, and after each carriage return that no line feed
follows. -/
def LineStart (s : Text) : Nat → Prop
  | 0 => True
  | i + 1 =>
    s[i]? = some (.char '\n') ∨ s[i]? = some (.char '\r') ∧ s[i + 1]? ≠ some (.char '\n')

instance (s : Text) : DecidablePred (LineStart s)
  | 0 => .isTrue trivial
  | _ + 1 => inferInstanceAs (Decidable (_ ∨ _))

structure Line where
  row : Nat
  start : Nat
  stop : Nat

namespace Line

/-- The line is one of the text: it ends where the next one starts, or with the text. -/
structure In (l : Line) (s : Text) : Prop where
  start : LineStart s l.start
  stop : IsLeast {k | l.start < k ∧ LineStart s k} l.stop ∨
    (∀ k, LineStart s k → k ≤ l.start) ∧ l.stop = s.length
  row : l.row = Nat.count (LineStart s) (l.start + 1)

/-- The last line also holds the offset where the text ends. -/
def Holds (l : Line) (s : Text) (offset : Nat) : Prop :=
  l.start ≤ offset ∧
    (offset < l.stop ∨ offset = s.length ∧ ∀ k, LineStart s k → k ≤ l.start)

def textIn (l : Line) (s : Text) : Text :=
  slice s l.start l.stop

end Line

/-! ## The bounds -/

theorem LineStart.le_length {s : Text} {k : Nat} (h : LineStart s k) : k ≤ s.length := by
  cases k with
  | zero => exact Nat.zero_le _
  | succ i =>
    by_contra beyond
    have outside : s[i]? = none := List.getElem?_eq_none (by omega)
    simp [LineStart, outside] at h

theorem breaksFrom_cons (n : Nat) (p : Point) (s : Text) :
    breaksFrom n (p :: s) =
      if LineStart (p :: s) 1 then (n + 1) :: breaksFrom (n + 1) s else breaksFrom (n + 1) s := by
  by_cases feed : p = .char '\n'
  · subst feed
    simp [LineStart, breaksFrom]
  · by_cases ret : p = .char '\r'
    · subst ret
      cases s with
      | nil => simp [LineStart, breaksFrom]
      | cons q s =>
        by_cases next : q = .char '\n'
        · subst next
          simp [LineStart, breaksFrom]
        · simp [LineStart, breaksFrom, next]
    · simp [LineStart, breaksFrom, feed, ret]

theorem breaksFrom_eq (n : Nat) (s : Text) : breaksFrom n s =
    ((List.range s.length).filter fun i => LineStart s (i + 1)).map fun i => n + (i + 1) := by
  induction s generalizing n with
  | nil => rfl
  | cons p s ih =>
    have shift : ∀ i, LineStart (p :: s) (i + 1 + 1) ↔ LineStart s (i + 1) := fun _ => Iff.rfl
    rw [breaksFrom_cons, ih, List.length_cons, List.range_succ_eq_map, List.filter_cons,
      List.filter_map]
    by_cases h : LineStart (p :: s) 1 <;>
      simp [h, shift, Function.comp_def, Nat.add_assoc, Nat.add_comm 1]

def startsAfter (s : Text) (n : Nat) : List Nat :=
  (List.range' (n + 1) (s.length - n)).filter (LineStart s)

theorem mem_startsAfter {s : Text} {n k : Nat} : k ∈ startsAfter s n ↔ n < k ∧ LineStart s k := by
  simp only [startsAfter, List.mem_filter, List.mem_range'_1, decide_eq_true_eq]
  constructor
  · intro ⟨⟨low, _⟩, h⟩
    exact ⟨low, h⟩
  · intro ⟨low, h⟩
    have := h.le_length
    exact ⟨⟨low, by omega⟩, h⟩

theorem head?_startsAfter {s : Text} {n stop : Nat} :
    (startsAfter s n ++ [s.length]).head? = some stop ↔
      IsLeast {k | n < k ∧ LineStart s k} stop ∨
        (∀ k, LineStart s k → k ≤ n) ∧ stop = s.length := by
  have sorted : (startsAfter s n).Pairwise (· < ·) := List.Pairwise.filter _ List.pairwise_lt_range'
  have mem : ∀ k, k ∈ startsAfter s n ↔ n < k ∧ LineStart s k := fun _ => mem_startsAfter
  cases h : startsAfter s n with
  | nil =>
    have none : ∀ k, LineStart s k → k ≤ n := by
      intro k hk
      by_contra late
      simpa [h] using (mem k).2 ⟨by omega, hk⟩
    constructor
    · intro head
      exact .inr ⟨none, (Option.some.inj head).symm⟩
    · rintro (⟨⟨late, start⟩, _⟩ | ⟨_, rfl⟩)
      · exact absurd (none _ start) (by omega)
      · rfl
  | cons k ks =>
    rw [h] at sorted mem
    have least : IsLeast {k | n < k ∧ LineStart s k} k := by
      refine ⟨(mem k).1 List.mem_cons_self, fun j hj => ?_⟩
      rcases List.mem_cons.1 ((mem j).2 hj) with rfl | later
      · exact Nat.le_refl _
      · exact Nat.le_of_lt (List.rel_of_pairwise_cons sorted later)
    constructor
    · intro head
      exact .inl (Option.some.inj head ▸ least)
    · rintro (isLeast | ⟨none, _⟩)
      · rw [isLeast.unique least]
        rfl
      · exact absurd (none k least.1.2) (by simpa using least.1.1)

theorem bounds_eq (s : Text) :
    bounds s = (List.range (s.length + 1)).filter (LineStart s) ++ [s.length] := by
  have first : LineStart s 0 := trivial
  rw [bounds, breaksFrom_eq, List.range_succ_eq_map, List.filter_cons_of_pos (by simpa using first),
    List.filter_map]
  simp [Function.comp_def]

theorem bounds_split {s : Text} {b : Nat} (h : LineStart s b) :
    bounds s = (List.range b).filter (LineStart s) ++ b :: (startsAfter s b ++ [s.length]) := by
  have := h.le_length
  have split : List.range (s.length + 1) =
      List.range b ++ b :: List.range' (b + 1) (s.length - b) := by
    have length : s.length + 1 = b + (s.length - b + 1) := by omega
    rw [length, List.range_eq_range', List.range_eq_range', ← List.range'_append_1, Nat.zero_add,
      List.range'_succ]
  rw [bounds_eq, split, List.filter_append, List.filter_cons_of_pos (by simpa using h),
    startsAfter]
  simp

theorem length_startsBefore (s : Text) (b : Nat) :
    ((List.range b).filter (LineStart s)).length = Nat.count (LineStart s) b := by
  rw [Nat.count, List.countP_eq_length_filter]

namespace Line

variable {l l' : Line} {s : Text} {offset : Nat}

theorem In.row_eq (h : l.In s) : l.row = Nat.count (LineStart s) l.start + 1 := by
  rw [h.row, Nat.count_succ, if_pos h.start]

theorem In.between (h : l.In s) :
    (bounds s)[l.row - 1]? = some l.start ∧ (bounds s)[l.row]? = some l.stop := by
  have stop := head?_startsAfter.2 h.stop
  rw [h.row_eq, bounds_split h.start, ← length_startsBefore]
  constructor
  · simp
  · rw [List.getElem?_append_right (by omega), Nat.add_sub_cancel_left, List.getElem?_cons_succ,
      ← List.head?_eq_getElem?, stop]

theorem in_of_between {i start stop : Nat} (hstart : (bounds s)[i]? = some start)
    (hstop : (bounds s)[i + 1]? = some stop) : In ⟨i + 1, start, stop⟩ s := by
  let starts := (List.range (s.length + 1)).filter (LineStart s)
  have split : bounds s = starts ++ [s.length] := bounds_eq s
  have inside : i < starts.length := by
    have := (List.getElem?_eq_some_iff.1 hstop).1
    rw [split, List.length_append, List.length_singleton] at this
    omega
  have at_i : starts[i]? = some start := by
    rwa [split, List.getElem?_append_left inside] at hstart
  have isStart : LineStart s start := by
    simpa using (List.mem_filter.1 (List.mem_of_getElem? at_i)).2
  -- A start is listed once, so the number of starts before it is its place.
  have place : i = Nat.count (LineStart s) start := by
    have here := bounds_split isStart
    rw [split, ← List.cons_append, ← List.append_assoc, List.append_cancel_right_eq] at here
    have distinct : starts.Nodup := List.nodup_range.filter _
    rw [← List.getElem?_inj inside distinct, at_i, here, ← length_startsBefore]
    simp
  refine ⟨isStart, ?_, ?_⟩
  · rw [← head?_startsAfter, ← hstop, bounds_split isStart, place, ← length_startsBefore,
      List.getElem?_append_right (by omega), Nat.add_sub_cancel_left, List.getElem?_cons_succ,
      List.head?_eq_getElem?]
  · rw [Nat.count_succ, if_pos isStart, place]

theorem In.eq_of_row (h : l.In s) (h' : l'.In s) (same : l.row = l'.row) : l = l' := by
  have starts := h.between.1
  have stops := h.between.2
  rw [same, h'.between.1] at starts
  rw [same, h'.between.2] at stops
  cases l
  cases l'
  simp_all

theorem In.eq_of_start (h : l.In s) (h' : l'.In s) (same : l.start = l'.start) : l = l' := by
  have row : l.row = l'.row := by rw [h.row, h'.row, same]
  have stop : l.stop = l'.stop := by
    have stops := h.between.2
    rw [row, h'.between.2] at stops
    exact (Option.some.inj stops).symm
  cases l
  cases l'
  simp_all

theorem exists_last (s : Text) (offset : Nat) :
    ∃ l : Line, l.In s ∧ IsGreatest {k | LineStart s k ∧ k ≤ offset} l.start := by
  let start := Nat.findGreatest (LineStart s) offset
  have greatest : IsGreatest {k | LineStart s k ∧ k ≤ offset} start := by
    refine ⟨⟨?_, Nat.findGreatest_le _⟩, fun k ⟨hk, below⟩ => Nat.le_findGreatest below hk⟩
    exact Nat.findGreatest_spec (Nat.zero_le offset) (by trivial)
  obtain ⟨stop, hstop⟩ : ∃ stop, (startsAfter s start ++ [s.length]).head? = some stop := by
    cases startsAfter s start <;> exact ⟨_, rfl⟩
  exact ⟨⟨Nat.count (LineStart s) (start + 1), start, stop⟩,
    ⟨greatest.1.1, head?_startsAfter.1 hstop, rfl⟩, greatest⟩

theorem In.row_eq_takeWhile (h : l.In s)
    (last : IsGreatest {k | LineStart s k ∧ k ≤ offset} l.start) :
    ((bounds s).dropLast.takeWhile fun b : Nat => (b : Int) ≤ offset).length = l.row := by
  obtain ⟨⟨_, low⟩, greatest⟩ := last
  have before : ∀ k ∈ (List.range l.start).filter (LineStart s) ++ [l.start],
      decide ((k : Int) ≤ offset) = true := by
    intro k hk
    simp only [List.mem_append, List.mem_filter, List.mem_range, List.mem_singleton] at hk
    rw [decide_eq_true_eq]
    omega
  have after : (startsAfter s l.start).takeWhile (fun b : Nat => (b : Int) ≤ offset) = [] := by
    cases hs : startsAfter s l.start with
    | nil => rfl
    | cons k ks =>
      have hk : l.start < k ∧ LineStart s k := mem_startsAfter.1 (hs ▸ List.mem_cons_self)
      have beyond : ¬k ≤ offset := fun low => absurd (greatest ⟨hk.2, low⟩) (by omega)
      apply List.takeWhile_cons_of_neg
      simpa using beyond
  rw [h.row_eq, bounds_split h.start, List.append_cons, ← List.append_assoc, List.dropLast_concat,
    List.takeWhile_append_of_pos before, after, List.append_nil, List.length_append,
    length_startsBefore]
  rfl

theorem In.holds_iff (h : l.In s) (inside : offset ≤ s.length) :
    l.Holds s offset ↔ IsGreatest {k | LineStart s k ∧ k ≤ offset} l.start := by
  constructor
  · intro ⟨low, high⟩
    refine ⟨⟨h.start, low⟩, fun k ⟨hk, below⟩ => ?_⟩
    rcases high with high | ⟨_, last⟩
    · rcases h.stop with least | ⟨last, _⟩
      · by_contra later
        exact absurd (least.2 ⟨Nat.lt_of_not_le later, hk⟩) (by omega)
      · exact last k hk
    · exact last k hk
  · intro ⟨⟨_, low⟩, greatest⟩
    refine ⟨low, ?_⟩
    rcases h.stop with least | ⟨last, stop⟩
    · left
      by_contra later
      exact absurd (greatest ⟨least.1.2, Nat.le_of_not_lt later⟩) (by simpa using least.1.1)
    · rw [stop]
      rcases Nat.lt_or_eq_of_le inside with before | atEnd
      · exact .inl before
      · exact .inr ⟨atEnd, last⟩

theorem In.le_stop (h : l.In s) (holds : l.Holds s offset) : offset ≤ l.stop := by
  rcases holds.2 with before | ⟨rfl, none⟩
  · exact Nat.le_of_lt before
  · rcases h.stop with least | ⟨_, stop⟩
    · exact absurd (none _ least.1.2) (by simpa using least.1.1)
    · exact Nat.le_of_eq stop.symm

theorem In.eq_of_holds (h : l.In s) (h' : l'.In s) (inside : offset ≤ s.length)
    (holds : l.Holds s offset) (holds' : l'.Holds s offset) : l = l' := by
  apply h.eq_of_start h'
  exact ((h.holds_iff inside).1 holds).unique ((h'.holds_iff inside).1 holds')

/-! ## The text of a line -/

theorem In.start_le_stop (h : l.In s) : l.start ≤ l.stop := by
  rcases h.stop with least | ⟨_, stop⟩
  · exact Nat.le_of_lt least.1.1
  · rw [stop]
    exact h.start.le_length

theorem In.stop_le (h : l.In s) : l.stop ≤ s.length := by
  rcases h.stop with least | ⟨_, stop⟩
  · exact least.1.2.le_length
  · exact Nat.le_of_eq stop

theorem In.length_textIn (h : l.In s) : (l.textIn s).length = l.stop - l.start := by
  have := h.stop_le
  rw [textIn, slice, List.length_drop, List.length_take, Nat.min_eq_left this]

theorem In.not_lineStart (h : l.In s) {k : Nat} (after : l.start < k) (before : k < l.stop) :
    ¬LineStart s k := by
  intro hk
  rcases h.stop with least | ⟨last, _⟩
  · exact absurd (least.2 ⟨after, hk⟩) (by omega)
  · exact absurd (last k hk) (by omega)

theorem getElem?_textIn (l : Line) (s : Text) (i : Nat) :
    (l.textIn s)[i]? = if l.start + i < l.stop then s[l.start + i]? else none := by
  rw [textIn, slice, List.getElem?_drop, List.getElem?_take]

def Break (t : Text) : Prop :=
  t = [] ∨ t = [.char '\n'] ∨ t = [.char '\r'] ∨ t = [.char '\r', .char '\n']

theorem In.break_drop (h : l.In s) {i : Nat} {p : Point} (hp : (l.textIn s)[i]? = some p)
    (hbreak : p = .char '\r' ∨ p = .char '\n') : Break ((l.textIn s).drop i) := by
  have length := h.length_textIn
  have inside : i < (l.textIn s).length := (List.getElem?_eq_some_iff.1 hp).1
  have cons : (l.textIn s).drop i = p :: (l.textIn s).drop (i + 1) := by
    rw [List.drop_eq_getElem_cons inside, (List.getElem?_eq_some_iff.1 hp).2]
  have before : l.start + i < l.stop := by omega
  rw [getElem?_textIn, if_pos before] at hp
  have late := fun k => h.not_lineStart (k := k)
  rw [cons]
  by_cases pair : p = .char '\r' ∧ s[l.start + i + 1]? = some (.char '\n')
  · obtain ⟨rfl, next⟩ := pair
    have stop : l.stop = l.start + i + 2 := by
      have more : l.stop ≠ l.start + i + 1 := by
        intro stop
        rcases h.stop with ⟨⟨_, here⟩, _⟩ | ⟨_, atEnd⟩
        · rw [stop] at here
          simp [LineStart, hp, next] at here
        · rw [List.getElem?_eq_none (by omega)] at next
          cases next
      have here : LineStart s (l.start + i + 2) := .inl next
      have := mt (late _ (by omega)) (not_not.2 here)
      omega
    have next' : (l.textIn s)[i + 1]? = some (.char '\n') := by
      rw [getElem?_textIn, if_pos (by omega), ← next, Nat.add_assoc]
    obtain ⟨inside', value⟩ := List.getElem?_eq_some_iff.1 next'
    rw [List.drop_eq_getElem_cons inside', value, List.drop_eq_nil_of_le (by omega)]
    exact .inr (.inr (.inr rfl))
  · have here : LineStart s (l.start + i + 1) := by
      rcases hbreak with rfl | rfl
      · exact .inr ⟨hp, fun next => pair ⟨rfl, next⟩⟩
      · exact .inl hp
    have := mt (late _ (by omega)) (not_not.2 here)
    rw [List.drop_eq_nil_of_le (by omega)]
    rcases hbreak with rfl | rfl
    · exact .inr (.inr (.inl rfl))
    · exact .inr (.inl rfl)

theorem In.exists_body (h : l.In s) : ∃ body rest, l.textIn s = body ++ rest ∧ Break rest ∧
    ∀ p ∈ body, p ≠ .char '\r' ∧ p ≠ .char '\n' := by
  let plain : Point → Bool := fun p => p ≠ .char '\r' && p ≠ .char '\n'
  have split : l.textIn s = (l.textIn s).takeWhile plain ++ (l.textIn s).dropWhile plain :=
    List.takeWhile_append_dropWhile.symm
  refine ⟨_, _, split, ?_, ?_⟩
  · cases hrest : (l.textIn s).dropWhile plain with
    | nil => exact .inl rfl
    | cons p rest =>
      have notPlain : plain p = false := by
        have := List.head_dropWhile_not plain (l := l.textIn s) (by simp [hrest])
        simpa [hrest] using this
      rw [hrest] at split
      have drop : (l.textIn s).drop ((l.textIn s).takeWhile plain).length = p :: rest :=
        (congrArg (List.drop _) split).trans List.drop_left
      rw [← drop]
      apply h.break_drop (p := p)
      · rw [← List.head?_drop, drop]
        rfl
      · by_contra other
        simp [plain, not_or.1 other] at notPlain
  · intro p hp
    have := List.mem_takeWhile_imp hp
    simpa [plain] using this

end Line

end Reannotate.Text
