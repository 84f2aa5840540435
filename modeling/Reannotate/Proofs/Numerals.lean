import Reannotate.Json.Reader
import Reannotate.Json.Writer
import Reannotate.Proofs.Doubles

/-!
# Numbers read back

A number that was written is read as the same number, off the front of any text that does not go on
with it (`readUnsigned_repr`, `readUnsigned_numeral`). A double is written in one of three forms; all
of them are numerals of a whole part, places and a power, of the value that was to be written
(`exists_numeral`).
-/

namespace Reannotate.Json

open Text (ofChars)
open Binary64

/-- The text does not start with what a number could go on with. -/
def Stops (rest : Text) : Prop :=
  ∀ p ∈ rest.head?, isDigit p = false ∧ p ≠ .char '.' ∧ p ≠ .char 'e' ∧ p ≠ .char 'E'

def IsDigits (ds : List Char) : Prop :=
  ∀ c ∈ ds, c.isDigit = true

/-! ## Digits -/

theorem ne_of_isDigit {c d : Char} (hc : c.isDigit = true) (hd : d.isDigit = false) : c ≠ d := by
  rintro rfl
  exact Bool.false_ne_true (hd.symm.trans hc)

theorem isDigit_char (c : Char) : isDigit (.char c) = c.isDigit := by
  simp only [isDigit, Point.code, Char.isDigit, ge_iff_le, Char.toNat, UInt32.le_iff_toNat_le]
  rfl

theorem digitsValue_ofChars (ds : List Char) : digitsValue (ofChars ds) = Nat.ofDigitChars 10 ds 0 := by
  rw [digitsValue, ofChars, List.foldl_map]
  rfl

theorem takeWhile_digits {ds : List Char} (hds : IsDigits ds) {rest : Text}
    (h : ∀ p ∈ rest.head?, isDigit p = false) :
    (ofChars ds ++ rest).takeWhile isDigit = ofChars ds ∧
      (ofChars ds ++ rest).dropWhile isDigit = rest := by
  have all : ∀ p ∈ ofChars ds, isDigit p = true := by
    rintro _ hp
    obtain ⟨c, hc, rfl⟩ := List.mem_map.1 hp
    rw [isDigit_char]
    exact hds c hc
  rw [List.takeWhile_append_of_pos all, List.dropWhile_append_of_pos all]
  cases rest with
  | nil => exact ⟨List.append_nil _, rfl⟩
  | cons p rest =>
    have none := h p rfl
    simp [none]

theorem isDigits_toDigits (n : Nat) : IsDigits (Nat.toDigits 10 n) :=
  fun _ hc => Nat.isDigit_of_mem_toDigits (by decide) (by decide) hc

theorem ofDigitChars_lt {ds : List Char} (h : IsDigits ds) :
    Nat.ofDigitChars 10 ds 0 < 10 ^ ds.length := by
  induction ds with
  | nil => simp
  | cons c ds ih =>
    have ⟨hc, hds⟩ := List.forall_mem_cons.1 h
    have digit : c.toNat - '0'.toNat ≤ 9 := by
      simp only [Char.isDigit, Bool.and_eq_true, decide_eq_true_eq, ge_iff_le,
        UInt32.le_iff_toNat_le] at hc
      have : c.toNat ≤ 57 := hc.2
      have : '0'.toNat = 48 := rfl
      omega
    rw [Nat.ofDigitChars_cons, Nat.ofDigitChars_eq_ofDigitChars_zero, List.length_cons, pow_succ]
    have := ih hds
    nlinarith

theorem head?_toDigits {n : Nat} (h : 0 < n) : (Nat.toDigits 10 n).head? ≠ some '0' := by
  induction n using Nat.strongRecOn with
  | ind n ih =>
    rw [Nat.toDigits_eq_if (by decide)]
    split
    · next small =>
      simp only [List.head?_cons, ne_eq, Option.some.injEq, Nat.digitChar_eq_zero]
      omega
    · next large =>
      rw [List.head?_append_of_ne_nil _ Nat.toDigits_ne_nil]
      exact ih (n / 10) (by omega) (by omega)

/-! ## Whole numbers -/

/-- What starts with no zero, or is a zero alone. -/
structure IsWhole (ds : List Char) : Prop where
  digits : IsDigits ds
  some_digit : ds ≠ []
  leading : ds.head? = some '0' → ds = ['0']

theorem isWhole_toDigits (n : Nat) : IsWhole (Nat.toDigits 10 n) where
  digits := isDigits_toDigits n
  some_digit := Nat.toDigits_ne_nil
  leading h := by
    obtain rfl : n = 0 := by
      by_contra pos
      exact head?_toDigits (Nat.pos_of_ne_zero pos) h
    rfl

theorem wholePart_append {ds : List Char} (whole : IsWhole ds) {rest : Text}
    (h : ∀ p ∈ rest.head?, isDigit p = false) :
    wholePart (ofChars ds ++ rest) = some (ofChars ds, rest) := by
  obtain ⟨taken, dropped⟩ := takeWhile_digits whole.digits h
  match ds, whole with
  | [], whole => exact absurd rfl whole.some_digit
  | c :: ds, whole =>
    by_cases zero : c = '0'
    · subst zero
      rw [whole.leading rfl]
      rfl
    · have general : wholePart (ofChars (c :: ds) ++ rest) =
          if ((ofChars (c :: ds) ++ rest).takeWhile isDigit).isEmpty then none
          else some ((ofChars (c :: ds) ++ rest).takeWhile isDigit,
            (ofChars (c :: ds) ++ rest).dropWhile isDigit) := by
        unfold wholePart
        split
        · next same =>
          simp only [ofChars, List.map_cons, List.cons_append, List.cons.injEq,
            Point.char.injEq] at same
          exact absurd same.1 zero
        · rfl
      rw [general, taken, dropped]
      rfl

theorem Stops.no_digit {rest : Text} (h : Stops rest) : ∀ p ∈ rest.head?, isDigit p = false :=
  fun p hp => (h p hp).1

theorem fractionPart_eq_none {rest : Text} (h : ∀ p ∈ rest.head?, p ≠ .char '.') :
    fractionPart rest = none := by
  unfold fractionPart
  split
  · exact absurd rfl (h _ rfl)
  · rfl

theorem Stops.no_point {rest : Text} (h : Stops rest) : ∀ p ∈ rest.head?, p ≠ .char '.' :=
  fun p hp => (h p hp).2.1

theorem Stops.exponentPart {rest : Text} (h : Stops rest) : exponentPart rest = none := by
  unfold Json.exponentPart
  split
  · next e rest =>
    have := (h _ rfl).2.2
    rw [if_neg]
    simpa using this
  · rfl

theorem readUnsigned_repr (negative : Bool) {n : Nat}
    (short : (Nat.toDigits 10 n).length ≤ Text.digitLimit) {rest : Text} (h : Stops rest) :
    readUnsigned negative (ofChars (Nat.toDigits 10 n) ++ rest) =
      some (.int (if negative then -n else n), rest) := by
  have length_eq : (ofChars (Nat.toDigits 10 n)).length = (Nat.toDigits 10 n).length :=
    List.length_map _
  simp only [readUnsigned, wholePart_append (isWhole_toDigits n) h.no_digit,
    fractionPart_eq_none h.no_point,
    Option.map_none, Option.getD_none, h.exponentPart, length_eq, short, digitsValue_ofChars,
    Nat.ofDigitChars_ten_toDigits, Option.bind_eq_bind, Option.bind_some]
  rfl

/-! ## Doubles -/

structure Numeral where
  whole : List Char
  places : List Char
  power : Option Int

namespace Numeral

def text (n : Numeral) : List Char :=
  n.whole ++ ((if n.places.isEmpty then [] else '.' :: n.places) ++ n.power.elim [] exponentText)

def digits (n : Numeral) : List Char :=
  n.whole ++ n.places

def exponent (n : Numeral) : Int :=
  n.power.getD 0 - n.places.length

def value (n : Numeral) : ℚ :=
  Nat.ofDigitChars 10 n.digits 0 * 10 ^ n.exponent

def double (n : Numeral) (negative : Bool) : Binary64 :=
  .ofDecimal negative (Nat.ofDigitChars 10 n.digits 0) n.digits.length n.exponent

structure Proper (n : Numeral) : Prop where
  whole : IsWhole n.whole
  places : IsDigits n.places
  broken : n.places.isEmpty = true → n.power.isNone = true → False

theorem Proper.digits {n : Numeral} (h : n.Proper) : IsDigits n.digits :=
  fun c hc => (List.mem_append.1 hc).elim (h.whole.digits c) (h.places c)

theorem Proper.exists_cons {n : Numeral} (h : n.Proper) :
    ∃ c t, n.text = c :: t ∧ c.isDigit = true := by
  obtain ⟨c, ds, hwhole⟩ := List.exists_cons_of_ne_nil h.whole.some_digit
  refine ⟨c, _, congrArg (· ++ _) hwhole, h.whole.digits c ?_⟩
  rw [hwhole]
  exact List.mem_cons_self

end Numeral

theorem exponentDigits_append (negative : Bool) {ds : List Char} (digits : IsDigits ds)
    (some_digit : ds ≠ []) {rest : Text} (h : Stops rest) :
    exponentDigits negative (ofChars ds ++ rest) =
      some (if negative then -(Nat.ofDigitChars 10 ds 0 : Int) else Nat.ofDigitChars 10 ds 0, rest) := by
  obtain ⟨taken, dropped⟩ := takeWhile_digits digits h.no_digit
  rw [exponentDigits, taken, dropped, digitsValue_ofChars, if_neg]
  simpa [ofChars] using some_digit

theorem exponentPart_exponentText (x : Int) {rest : Text} (h : Stops rest) :
    exponentPart (ofChars (exponentText x) ++ rest) = some (x, rest) := by
  obtain ⟨ds, hds⟩ : ∃ ds, ds =
    zerosText (2 - (Nat.repr x.natAbs).toList.length) ++ (Nat.repr x.natAbs).toList := ⟨_, rfl⟩
  have text : exponentText x = 'e' :: (if x < 0 then '-' else '+') :: ds := by
    rw [exponentText, hds]
  have digits : IsDigits ds := by
    intro c hc
    rw [hds, Nat.toList_repr] at hc
    rcases List.mem_append.1 hc with hc | hc
    · rw [List.eq_of_mem_replicate hc]
      rfl
    · exact isDigits_toDigits _ c hc
  have some_digit : ds ≠ [] := by simp [hds, Nat.toDigits_ne_nil]
  have value : Nat.ofDigitChars 10 ds 0 = x.natAbs := by
    simp only [hds, Nat.toList_repr, Nat.ofDigitChars_append, zerosText,
      Nat.ofDigitChars_replicate_zero, Nat.mul_zero, Nat.ofDigitChars_ten_toDigits]
  rw [text]
  by_cases negative : x < 0
  · have signed : exponentPart (ofChars ('e' :: '-' :: ds) ++ rest) =
      exponentDigits true (ofChars ds ++ rest) := rfl
    have same : -(x.natAbs : Int) = x := by omega
    rw [if_pos negative, signed, exponentDigits_append true digits some_digit h, value, if_pos rfl,
      same]
  · have signed : exponentPart (ofChars ('e' :: '+' :: ds) ++ rest) =
      exponentDigits false (ofChars ds ++ rest) := rfl
    have same : (x.natAbs : Int) = x := by omega
    rw [if_neg negative, signed, exponentDigits_append false digits some_digit h, value,
      if_neg Bool.false_ne_true, same]

theorem fractionPart_append {places : List Char} (digits : IsDigits places)
    (some_digit : places ≠ []) {rest : Text} (h : ∀ p ∈ rest.head?, isDigit p = false) :
    fractionPart (.char '.' :: (ofChars places ++ rest)) = some (ofChars places, rest) := by
  obtain ⟨taken, dropped⟩ := takeWhile_digits digits h
  rw [fractionPart, taken, dropped, if_neg]
  simpa [ofChars] using some_digit

theorem power_append (power : Option Int) {rest : Text} (h : Stops rest) :
    exponentPart (ofChars (power.elim [] exponentText) ++ rest) = power.map (·, rest) ∧
      ∀ p ∈ (ofChars (power.elim [] exponentText) ++ rest).head?,
        isDigit p = false ∧ p ≠ .char '.' := by
  cases power with
  | none => exact ⟨h.exponentPart, fun p hp => ⟨h.no_digit p hp, h.no_point p hp⟩⟩
  | some x =>
    refine ⟨exponentPart_exponentText x h, fun p hp => ?_⟩
    cases hp
    exact ⟨rfl, by decide⟩

theorem readUnsigned_of_parts (negative : Bool) {s whole afterWhole : Text}
    {fraction : Option (Text × Text)} {power : Option (Int × Text)}
    (hwhole : wholePart s = some (whole, afterWhole)) (hfraction : fractionPart afterWhole = fraction)
    (hpower : exponentPart ((fraction.map (·.2)).getD afterWhole) = power)
    (broken : ¬(fraction.isNone && power.isNone) = true) :
    readUnsigned negative s =
      let digits := whole ++ (fraction.map (·.1)).getD []
      some (.float (.ofDecimal negative (digitsValue digits) digits.length
          ((power.map (·.1)).getD 0 - ((fraction.map (·.1)).getD []).length)),
        (power.map (·.2)).getD ((fraction.map (·.2)).getD afterWhole)) := by
  subst hpower hfraction
  simp only [readUnsigned, hwhole, Option.bind_eq_bind, Option.bind_some, if_neg broken]

theorem readUnsigned_numeral (negative : Bool) {n : Numeral} (proper : n.Proper) {rest : Text}
    (h : Stops rest) :
    readUnsigned negative (ofChars n.text ++ rest) = some (.float (n.double negative), rest) := by
  obtain ⟨whole, places, power⟩ := n
  obtain ⟨powers, tail_head⟩ := power_append power h
  obtain ⟨tail, htail⟩ : ∃ tail, tail = ofChars (power.elim [] exponentText) ++ rest := ⟨_, rfl⟩
  rw [← htail] at powers tail_head
  have value : digitsValue (ofChars whole ++ ofChars places) =
      Nat.ofDigitChars 10 (whole ++ places) 0 := by
    rw [← digitsValue_ofChars]
    simp [ofChars]
  have ends : (power.map (·, rest)).map (·.1) = power ∧ (power.map (·, rest)).map (·.2) =
      power.map fun _ => rest := by
    cases power <;> exact ⟨rfl, rfl⟩
  by_cases none : places = []
  · subst none
    obtain ⟨x, rfl⟩ : ∃ x, power = some x := by
      cases power with
      | none => exact (proper.broken rfl rfl).elim
      | some x => exact ⟨x, rfl⟩
    have text : ofChars (Numeral.text ⟨whole, [], some x⟩) ++ rest = ofChars whole ++ tail := by
      simp [Numeral.text, ofChars, htail]
    rw [text, readUnsigned_of_parts negative
      (wholePart_append proper.whole fun p hp => (tail_head p hp).1)
      (fractionPart_eq_none fun p hp => (tail_head p hp).2) powers Bool.false_ne_true]
    simp only [Option.map_none, Option.getD_none, List.append_nil, digitsValue_ofChars]
    simp [ofChars, Numeral.double, Numeral.digits, Numeral.exponent]
  · have text : ofChars (Numeral.text ⟨whole, places, power⟩) ++ rest =
        ofChars whole ++ .char '.' :: (ofChars places ++ tail) := by
      simp [Numeral.text, ofChars, htail, none]
    have point : ∀ p ∈ List.head? (Point.char '.' :: (ofChars places ++ tail)), isDigit p = false := by
      rintro _ ⟨⟩
      rfl
    rw [text, readUnsigned_of_parts negative (wholePart_append proper.whole point)
      (fractionPart_append proper.places none fun p hp => (tail_head p hp).1) powers
      Bool.false_ne_true]
    have stopped : (power.map fun _ => rest).getD tail = rest := by
      cases power with
      | none => exact htail
      | some x => rfl
    simp only [Option.map_some, Option.getD_some, ends, stopped, value]
    simp [ofChars, Numeral.double, Numeral.digits, Numeral.exponent]

/-! ## The forms of a double -/

/-- The text is a numeral of that value. -/
def Spells (text : List Char) (v : ℚ) : Prop :=
  ∃ n : Numeral, n.Proper ∧ n.text = text ∧ n.value = v

structure Significant (ds : List Char) : Prop where
  digits : IsDigits ds
  some_digit : ds ≠ []
  leading : ds.head? ≠ some '0'

theorem significant_toDigits {n : Nat} (h : 0 < n) : Significant (Nat.toDigits 10 n) :=
  ⟨isDigits_toDigits n, Nat.toDigits_ne_nil, head?_toDigits h⟩

theorem IsDigits.append {ds es : List Char} (hd : IsDigits ds) (he : IsDigits es) :
    IsDigits (ds ++ es) :=
  fun c hc => (List.mem_append.1 hc).elim (hd c) (he c)

theorem isDigits_zerosText (n : Nat) : IsDigits (zerosText n) := by
  intro c hc
  rw [List.eq_of_mem_replicate hc]
  rfl

section
variable {ds : List Char} {point : Int}

theorem Significant.take {n : Nat} (h : Significant ds) (hn : 0 < n) (zeros : Nat) :
    IsWhole (ds.take n ++ zerosText zeros) := by
  obtain ⟨digits, some_digit, leading⟩ := h
  match ds, n with
  | [], _ => exact absurd rfl some_digit
  | c :: ds, n + 1 =>
    refine ⟨IsDigits.append ?_ (isDigits_zerosText zeros), List.cons_ne_nil _ _,
      fun zero => absurd zero leading⟩
    exact fun d hd => digits d (List.mem_of_mem_take hd)

theorem Significant.spells_power (h : Significant ds) (point : Int) :
    Spells (ds.take 1 ++ (if (ds.drop 1).isEmpty then [] else '.' :: ds.drop 1) ++
      exponentText (point - 1)) (Nat.ofDigitChars 10 ds 0 * 10 ^ (point - ds.length)) := by
  refine ⟨⟨ds.take 1, ds.drop 1, some (point - 1)⟩, ⟨?_, ?_, nofun⟩, ?_, ?_⟩
  · simpa [zerosText] using h.take Nat.one_pos 0
  · exact fun c hc => h.digits c (List.mem_of_mem_drop hc)
  · simp [Numeral.text]
  · have pos := List.length_pos_iff.2 h.some_digit
    have exponent : point - 1 - (ds.drop 1).length = point - ds.length := by
      rw [List.length_drop]
      omega
    simp only [Numeral.value, Numeral.digits, Numeral.exponent, Option.getD_some, exponent,
      List.take_append_drop]

theorem Significant.spells_fraction (h : Significant ds) (small : point ≤ 0) :
    Spells ('0' :: '.' :: (zerosText (-point).toNat ++ ds))
      (Nat.ofDigitChars 10 ds 0 * 10 ^ (point - ds.length)) := by
  refine ⟨⟨['0'], zerosText (-point).toNat ++ ds, none⟩,
    ⟨⟨isDigits_zerosText 1, List.cons_ne_nil _ _, fun _ => rfl⟩, ?_, ?_⟩, ?_, ?_⟩
  · exact (isDigits_zerosText _).append h.digits
  · simp [h.some_digit]
  · simp [Numeral.text, h.some_digit]
  · have exponent : 0 - ((zerosText (-point).toNat ++ ds).length : Int) = point - ds.length := by
      rw [List.length_append, zerosText, List.length_replicate]
      omega
    have value : Nat.ofDigitChars 10 (['0'] ++ (zerosText (-point).toNat ++ ds)) 0 =
        Nat.ofDigitChars 10 ds 0 := by
      rw [Nat.ofDigitChars_append, Nat.ofDigitChars_append, zerosText,
        Nat.ofDigitChars_replicate_zero]
      rfl
    simp only [Numeral.value, Numeral.digits, Numeral.exponent, Option.getD_none, exponent, value]

theorem Significant.spells_places (h : Significant ds) (large : 0 < point) :
    Spells (ds.take point.toNat ++ zerosText (point.toNat - ds.length) ++
      '.' :: (if (ds.drop point.toNat).isEmpty then ['0'] else ds.drop point.toNat))
      (Nat.ofDigitChars 10 ds 0 * 10 ^ (point - ds.length)) := by
  obtain ⟨k, rfl⟩ := Int.eq_ofNat_of_zero_le large.le
  rw [Int.toNat_natCast]
  have whole := h.take (n := k) (by omega) (k - ds.length)
  by_cases inside : k < ds.length
  · -- The point stands between two digits.
    have some_place : ds.drop k ≠ [] := by simpa using inside
    have no_zeros : k - ds.length = 0 := by omega
    rw [no_zeros] at whole ⊢
    refine ⟨⟨ds.take k ++ zerosText 0, ds.drop k, none⟩, ⟨whole, ?_, ?_⟩, ?_, ?_⟩
    · exact fun c hc => h.digits c (List.mem_of_mem_drop hc)
    · simpa using some_place
    · simp [Numeral.text, some_place]
    · have exponent : 0 - ((ds.drop k).length : Int) = k - ds.length := by
        rw [List.length_drop]
        omega
      simp only [Numeral.value, Numeral.digits, Numeral.exponent, Option.getD_none, exponent,
        zerosText, List.replicate_zero, List.append_nil, List.take_append_drop]
  · have no_place : ds.drop k = [] := List.drop_eq_nil_of_le (by omega)
    have all : ds.take k = ds := List.take_of_length_le (by omega)
    obtain ⟨z, rfl⟩ : ∃ z, k = ds.length + z := ⟨k - ds.length, by omega⟩
    rw [all, Nat.add_sub_cancel_left] at whole ⊢
    rw [no_place]
    refine ⟨⟨ds ++ zerosText z, ['0'], none⟩, ⟨whole, isDigits_zerosText 1, nofun⟩, ?_, ?_⟩
    · simp [Numeral.text]
    · have value : Nat.ofDigitChars 10 (ds ++ zerosText z ++ ['0']) 0 =
          10 * (10 ^ z * Nat.ofDigitChars 10 ds 0) := by
        rw [Nat.ofDigitChars_append, Nat.ofDigitChars_append, zerosText,
          Nat.ofDigitChars_replicate_zero]
        rfl
      simp only [Numeral.value, Numeral.digits, Numeral.exponent, Option.getD_none, value]
      push_cast
      rw [add_sub_cancel_left, zpow_natCast, zpow_sub₀ (by norm_num)]
      simp
      ring

theorem Significant.spells_placed (h : Significant ds) (point : Int) :
    Spells (placed ds point) (Nat.ofDigitChars 10 ds 0 * 10 ^ (point - ds.length)) := by
  unfold placed
  split
  · exact h.spells_power point
  · split
    · next small => exact h.spells_fraction small
    · next large => exact h.spells_places (not_le.1 large)

end

/-- What is written for a double is a numeral that is rounded to that double. -/
theorem exists_numeral {m : Nat} {e : Int} (c : Canonical m e) : ∃ n : Numeral, n.Proper ∧
    n.text = unsigned m e ∧ ∀ negative, n.double negative = .finite negative m e := by
  by_cases hm : m = 0
  · subst hm
    obtain rfl : e = minExponent := c.normal.resolve_right (by decide)
    exact ⟨⟨['0'], ['0'], none⟩, ⟨⟨isDigits_zerosText 1, List.cons_ne_nil _ _, fun _ => rfl⟩,
      isDigits_zerosText 1, nofun⟩, rfl, fun _ => rfl⟩
  · have digits_pos : 0 < (shortest m e).1 := by
      by_contra none
      have pos := (rounds_shortest c hm).pos hm
      rw [Nat.eq_zero_of_not_pos none] at pos
      simp at pos
    obtain ⟨n, proper, text, value⟩ := (significant_toDigits digits_pos).spells_placed
      ((Nat.toDigits 10 (shortest m e).1).length + (shortest m e).2)
    rw [add_sub_cancel_left, Nat.ofDigitChars_ten_toDigits] at value
    refine ⟨n, proper, ?_, fun negative =>
      ofDecimal_shortest negative c hm (ofDigitChars_lt proper.digits) value⟩
    rw [text, unsigned, if_neg hm]
    simp only [Nat.toList_repr]

end Reannotate.Json
