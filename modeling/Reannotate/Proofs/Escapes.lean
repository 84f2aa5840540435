import Reannotate.Json.Reader
import Reannotate.Json.Writer

/-!
# Texts read back

A text that was written between quotes is read as the same text (`readText_name`), unless two halves
stand in it that would be read as one character. Points are escaped one by one, in one of four ways.
Whether an escape of one unit stands alone shows only in what comes after it.
-/

namespace Reannotate.Json

open Text (ofChars hex)

/-- A first half has no second half after it: the two would be read as one character. -/
def Unpaired : Text → Prop
  | .half i :: .half j :: rest => (i.val < 1024 → j.val < 1024) ∧ Unpaired (.half j :: rest)
  | _ :: rest => Unpaired rest
  | [] => True

theorem toNat_range (c : Char) : c.toNat < 0xd800 ∨ 0xdfff < c.toNat ∧ c.toNat < 0x110000 :=
  c.valid

theorem hexValue_digit : ∀ d < 16,
    hexValue ("0123456789abcdef".toList.getD d '0') = some d := by decide +kernel

theorem hexUnit_hex {n : Nat} (h : n < 0x10000) (rest : Text) :
    hexUnit (ofChars (hex 4 n) ++ rest) = some (n, rest) := by
  let digit (k : Nat) := "0123456789abcdef".toList.getD (n / Nat.pow 16 k % 16) '0'
  have value (k : Nat) : hexValue (digit k) = some (n / Nat.pow 16 k % 16) :=
    hexValue_digit _ (Nat.mod_lt _ (by decide))
  have text : ofChars (hex 4 n) ++ rest =
      .char (digit 3) :: .char (digit 2) :: .char (digit 1) :: .char (digit 0) :: rest := rfl
  have sum : 4096 * (n / Nat.pow 16 3 % 16) + 256 * (n / Nat.pow 16 2 % 16) +
      16 * (n / Nat.pow 16 1 % 16) + n / Nat.pow 16 0 % 16 = n := by
    simp only [Nat.pow_eq]
    omega
  rw [text, hexUnit]
  simp only [value, Option.bind_eq_bind, Option.bind_some, sum, Option.pure_def]

inductive Escape : Point → List Char → Prop
  | plain {c : Char} (quote : c ≠ '"') (slash : c ≠ '\\') (control : ¬c.toNat < 32) :
      Escape (.char c) [c]
  | short {c e : Char} (other : e ≠ 'u') (h : shortEscape e = some c) : Escape (.char c) ['\\', e]
  | unit {p : Point} (h : p.code < 0x10000) : Escape p ('\\' :: 'u' :: hex 4 p.code)
  | pair {c : Char} {high low : Nat} (hh : high < 0xdc00) (hl : low < 0xe000)
      (h : joinUnits high low = some c) :
      Escape (.char c) ('\\' :: 'u' :: (hex 4 high ++ '\\' :: 'u' :: hex 4 low))

theorem escape_unitEscape (c : Char) : Escape (.char c) (unitEscape c) := by
  simp only [unitEscape]
  split
  · next small => exact .unit small
  · next large =>
    have range := toNat_range c
    refine .pair (by omega) (by omega) ?_
    rw [joinUnits, if_pos (by omega)]
    have joined : 0x10000 + 1024 * (0xd800 + (c.toNat - 0x10000) / 1024 - 0xd800) +
        (0xdc00 + (c.toNat - 0x10000) % 1024 - 0xdc00) = c.toNat := by omega
    rw [joined, Char.ofNat_toNat]

theorem escape_escaped (c : Char) : Escape (.char c) (escaped c) := by
  unfold escaped
  split
  · next h =>
    subst h
    exact .short (by decide) rfl
  split
  · next h =>
    subst h
    exact .short (by decide) rfl
  split
  · next h =>
    subst h
    exact .short (by decide) rfl
  split
  · next h =>
    subst h
    exact .short (by decide) rfl
  split
  · next h =>
    subst h
    exact .short (by decide) rfl
  split
  · next h => exact .short (by decide) (by rw [← Char.ofNat_toNat c, h]; rfl)
  split
  · next h => exact .short (by decide) (by rw [← Char.ofNat_toNat c, h]; rfl)
  split
  · next quote slash _ _ _ _ _ h => exact .plain quote slash (by omega)
  · exact escape_unitEscape c

theorem escape_escapedPoint (p : Point) : Escape p (escapedPoint p) := by
  cases p with
  | char c => exact escape_escaped c
  | half i => exact .unit (by have := i.isLt; simp only [Point.code]; omega)

theorem exists_half {p : Point} (low : 0xd800 ≤ p.code) (high : p.code < 0xe000) :
    ∃ i, p = .half i := by
  cases p with
  | char c =>
    have range := toNat_range c
    simp only [Point.code] at low high
    omega
  | half i => exact ⟨i, rfl⟩

theorem ofCode_code (p : Point) : Point.ofCode p.code = p := by
  cases p with
  | char c =>
    have whole : ¬(0xd800 ≤ c.toNat ∧ c.toNat < 0xe000) := by
      have range := toNat_range c
      omega
    rw [Point.ofCode, Point.code, dif_neg whole, Char.ofNat_toNat]
  | half i =>
    have range : 0xd800 ≤ 0xd800 + i.val ∧ 0xd800 + i.val < 0xe000 := by omega
    rw [Point.ofCode, Point.code, dif_pos range]
    simp

/-- A text as it is written up to its closing quote, and what stands after that. -/
def quoted (s rest : Text) : Text :=
  ofChars (s.flatMap escapedPoint) ++ .char '"' :: rest

theorem quoted_cons (p : Point) (s rest : Text) :
    quoted (p :: s) rest = ofChars (escapedPoint p) ++ quoted s rest := by
  simp [quoted, ofChars]

theorem joinUnits_eq_none {high low : Nat}
    (h : ¬(0xd800 ≤ high ∧ high < 0xdc00 ∧ 0xdc00 ≤ low ∧ low < 0xe000)) :
    joinUnits high low = none :=
  if_neg h

theorem escapedUnit_unit {p : Point} {s : Text} (hp : p.code < 0x10000) (unpaired : Unpaired (p :: s))
    (rest : Text) : escapedUnit (ofChars (hex 4 p.code) ++ quoted s rest) =
      some (p, quoted s rest) := by
  have alone : ∀ {more low after}, hexUnit more = some (low, after) →
      joinUnits p.code low = none → quoted s rest = .char '\\' :: .char 'u' :: more →
      escapedUnit (ofChars (hex 4 p.code) ++ quoted s rest) = some (p, quoted s rest) := by
    intro more low after second apart same
    rw [escapedUnit, hexUnit_hex hp]
    simp only [Option.bind_eq_bind, Option.bind_some, same, second, apart, ofCode_code]
  have other : (∀ more, quoted s rest ≠ .char '\\' :: .char 'u' :: more) →
      escapedUnit (ofChars (hex 4 p.code) ++ quoted s rest) = some (p, quoted s rest) := by
    intro other
    rw [escapedUnit, hexUnit_hex hp]
    simp only [Option.bind_eq_bind, Option.bind_some, ofCode_code]
  cases s with
  | nil => exact other fun more h => absurd h (by simp [quoted, ofChars])
  | cons q s =>
    rw [quoted_cons] at alone other ⊢
    have escape := escape_escapedPoint q
    generalize escapedPoint q = written at escape alone other ⊢
    cases escape with
    | plain quote slash control =>
      refine other fun more h => ?_
      simp only [ofChars, List.map_cons, List.cons_append, List.cons.injEq, Point.char.injEq] at h
      exact slash h.1
    | short differs h =>
      refine other fun more h => ?_
      simp only [ofChars, List.map_cons, List.cons_append, List.cons.injEq, Point.char.injEq] at h
      exact differs h.2.1
    | unit hq =>
      refine alone (hexUnit_hex hq (quoted s rest)) (joinUnits_eq_none ?_) rfl
      rintro ⟨first, high, second, low⟩
      obtain ⟨i, rfl⟩ := exists_half first (by omega)
      obtain ⟨j, rfl⟩ := exists_half (by omega) low
      simp only [Point.code] at high second
      have := unpaired.1 (by omega)
      omega
    | @pair c high low hh hl h =>
      have first := hexUnit_hex (n := high) (by omega)
        (ofChars ('\\' :: 'u' :: hex 4 low) ++ quoted s rest)
      refine alone first (joinUnits_eq_none ?_) ?_
      · omega
      · simp [ofChars]

theorem escapedUnit_pair {c : Char} {high low : Nat} (hh : high < 0xdc00) (hl : low < 0xe000)
    (h : joinUnits high low = some c) (rest : Text) :
    escapedUnit (ofChars (hex 4 high ++ '\\' :: 'u' :: hex 4 low) ++ rest) = some (.char c, rest) := by
  have text : ofChars (hex 4 high ++ '\\' :: 'u' :: hex 4 low) ++ rest =
      ofChars (hex 4 high) ++ .char '\\' :: .char 'u' :: (ofChars (hex 4 low) ++ rest) := by
    simp [ofChars]
  rw [text, escapedUnit, hexUnit_hex (by omega)]
  simp only [Option.bind_eq_bind, Option.bind_some, hexUnit_hex (Nat.lt_trans hl (by decide)), h]

theorem unpaired_ofString (s : String) : Unpaired (Text.ofString s) := by
  unfold Text.ofString ofChars
  induction s.toList with
  | nil => trivial
  | cons c cs ih => exact ih

theorem Unpaired.tail {p : Point} {s : Text} (h : Unpaired (p :: s)) : Unpaired s := by
  cases p with
  | char c => exact h
  | half i =>
    cases s with
    | nil => trivial
    | cons q s =>
      cases q with
      | char c => exact h
      | half j => exact h.2

theorem readText_short {e c : Char} (other : e ≠ 'u') (h : shortEscape e = some c) (fuel : Nat)
    (done rest : Text) : readText (fuel + 1) done (.char '\\' :: .char e :: rest) =
      readText fuel (.char c :: done) rest := by
  simp [readText, h]

theorem readText_unit {p : Point} {more after : Text} (h : escapedUnit more = some (p, after))
    (fuel : Nat) (done : Text) : readText (fuel + 1) done (.char '\\' :: .char 'u' :: more) =
      readText fuel (p :: done) after := by
  simp [readText, h]

theorem readText_quoted {s : Text} (unpaired : Unpaired s) (rest : Text) :
    ∀ {fuel : Nat} (done : Text), s.length < fuel →
      readText fuel done (quoted s rest) = some (done.reverse ++ s, rest) := by
  induction s with
  | nil =>
    intro fuel done enough
    obtain ⟨fuel, rfl⟩ : ∃ k, fuel = k + 1 := ⟨fuel - 1, by omega⟩
    simp [quoted, readText, ofChars]
  | cons p s ih =>
    intro fuel done enough
    obtain ⟨fuel, rfl⟩ : ∃ k, fuel = k + 1 := ⟨fuel - 1, by omega⟩
    have next : readText fuel (p :: done) (quoted s rest) = some (done.reverse ++ p :: s, rest) := by
      rw [ih unpaired.tail _ (Nat.lt_of_succ_lt_succ enough), List.reverse_cons, List.append_assoc]
      rfl
    rw [quoted_cons]
    have escape := escape_escapedPoint p
    generalize escapedPoint p = written at escape
    cases escape with
    | plain quote slash control =>
      exact (if_neg quote).trans ((if_neg slash).trans ((if_neg control).trans next))
    | short other h => exact (readText_short other h fuel done _).trans next
    | unit hp => exact (readText_unit (escapedUnit_unit hp unpaired rest) fuel done).trans next
    | pair hh hl h => exact (readText_unit (escapedUnit_pair hh hl h _) fuel done).trans next

theorem length_lt_quoted (s rest : Text) : s.length + rest.length < (quoted s rest).length := by
  induction s with
  | nil => simp [quoted, ofChars]
  | cons p s ih =>
    have some_char : 0 < (ofChars (escapedPoint p)).length := by
      have escape := escape_escapedPoint p
      generalize escapedPoint p = written at escape
      cases escape <;> exact Nat.succ_pos _
    rw [quoted_cons, List.length_append, List.length_cons]
    omega

theorem readText_name {s : Text} (unpaired : Unpaired s) (rest : Text) :
    readText ((quoted s rest).length + 1) [] (quoted s rest) = some (s, rest) := by
  refine readText_quoted unpaired rest [] ?_
  have := length_lt_quoted s rest
  omega

end Reannotate.Json
