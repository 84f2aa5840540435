import Mathlib.Algebra.Order.Field.Power
import Mathlib.Algebra.Order.Ring.Rat
import Mathlib.Tactic.FieldSimp
import Mathlib.Tactic.GCongr
import Mathlib.Tactic.Linarith
import Mathlib.Tactic.NormNum
import Mathlib.Tactic.Positivity
import Mathlib.Tactic.Ring
import Reannotate.Decimal.Shortest

/-!
# Doubles read back

The shortest decimal of a double is rounded to that double again (`ofDecimal_shortest`). Between the
two stand the numbers that round to it: all up to half a unit away, or a quarter below a power of two,
where the doubles lie closer.
-/

namespace Reannotate.Binary64

/-- The significand is as large as it can be, unless the exponent is as small as it can be. -/
structure Canonical (m : Nat) (e : Int) : Prop where
  below : m < 2 ^ 53
  low : minExponent ≤ e
  high : e ≤ maxExponent
  normal : e = minExponent ∨ 2 ^ 52 ≤ m

/-- The number rounds to `m * 2 ^ e`. -/
structure Rounds (m : Nat) (e : Int) (v : ℚ) : Prop where
  low : (m - (if m = 2 ^ 52 ∧ minExponent < e then 1 / 4 else 1 / 2)) * 2 ^ e ≤ v
  high : v ≤ (m + 1 / 2) * 2 ^ e
  tie : ¬m % 2 = 0 → (m - 1 / 2) * 2 ^ e < v ∧ v < (m + 1 / 2) * 2 ^ e

/-! ## Rounding of ratios -/

theorem roundDiv_eq {a b m : Nat} (hb : 0 < b) (low : 2 * m * b ≤ 2 * a + b)
    (high : 2 * a ≤ (2 * m + 1) * b)
    (tie : ¬m % 2 = 0 → 2 * m * b < 2 * a + b ∧ 2 * a < (2 * m + 1) * b) : roundDiv a b = m := by
  have split : a = b * (a / b) + a % b := (Nat.div_add_mod a b).symm
  have less : a % b < b := Nat.mod_lt a hb
  unfold roundDiv
  generalize a / b = q at split ⊢
  generalize a % b = r at split less ⊢
  subst split
  -- The ratio lies between `q` and `q + 1`, so nothing else can be within half a unit.
  have near : m = q ∨ m = q + 1 := by
    have above : q ≤ m := by
      by_contra h
      have : b * (m + 1) ≤ b * q := Nat.mul_le_mul_left b (by omega)
      nlinarith
    have below : m ≤ q + 1 := by
      by_contra h
      have : b * (q + 2) ≤ b * m := Nat.mul_le_mul_left b (by omega)
      nlinarith
    omega
  rcases near with rfl | rfl
  · have half : 2 * r ≤ b := by nlinarith
    have even : 2 * r = b → m % 2 = 0 := by
      intro same
      by_contra odd
      have := (tie odd).2
      nlinarith
    simp only [Bool.or_eq_true, Bool.and_eq_true, decide_eq_true_eq]
    rw [if_pos]
    by_cases same : 2 * r = b
    · exact .inr ⟨same, even same⟩
    · exact .inl (by omega)
  · have half : b ≤ 2 * r := by nlinarith
    have odd : 2 * r = b → ¬q % 2 = 0 := by
      intro same
      by_contra even
      have := (tie (by omega)).1
      nlinarith
    simp only [Bool.or_eq_true, Bool.and_eq_true, decide_eq_true_eq]
    rw [if_neg]
    rintro (low | ⟨same, even⟩)
    · omega
    · exact odd same even

theorem scaleDown_eq {n d : Nat} (hd : 0 < d) (e : Int) : 0 < (scaleDown n d e).2 ∧
    ((scaleDown n d e).1 : ℚ) / (scaleDown n d e).2 = n / d / 2 ^ e := by
  unfold scaleDown
  split
  · next h =>
    obtain ⟨k, rfl⟩ := Int.eq_ofNat_of_zero_le h
    refine ⟨Nat.mul_pos hd (Nat.pow_pos (by decide)), ?_⟩
    simp only [Nat.pow_eq, Int.toNat_natCast, Nat.cast_mul, Nat.cast_pow,
      Nat.cast_ofNat, zpow_natCast]
    field_simp
  · next h =>
    obtain ⟨k, hk⟩ : ∃ k : Nat, e = -k := ⟨e.natAbs, by omega⟩
    subst hk
    refine ⟨hd, ?_⟩
    simp only [Nat.pow_eq, neg_neg, Int.toNat_natCast, Nat.cast_mul, Nat.cast_pow,
      Nat.cast_ofNat, zpow_neg, zpow_natCast]
    field_simp

/-- The exponent that a positive number has as a double, if it is small enough for one. -/
structure Fits (v : ℚ) (e : Int) : Prop where
  low : minExponent ≤ e
  below : v < 2 ^ (53 + e)
  normal : e = minExponent ∨ (2 : ℚ) ^ (52 + e) ≤ v

theorem Fits.unique {v : ℚ} {e e' : Int} (h : Fits v e) (h' : Fits v e') : e = e' := by
  have le : ∀ {e e' : Int}, Fits v e → Fits v e' → e ≤ e' := by
    intro e e' h h'
    by_contra less
    rcases h.normal with rfl | normal
    · exact less h'.low
    · have : (2 : ℚ) ^ (53 + e') ≤ 2 ^ (52 + e) := zpow_le_zpow_right₀ (by norm_num) (by omega)
      linarith [h'.below]
  exact le_antisymm (le h h') (le h' h)

def ratioExponent (n d : Nat) : Int :=
  let guess := max ((n.log2 : Int) - d.log2 - 53) minExponent
  if (scaleDown n d guess).1 / (scaleDown n d guess).2 < Nat.pow 2 53 then guess else guess + 1

theorem ofRatio_eq (negative : Bool) (n d : Nat) : ofRatio negative n d =
    pack negative (roundDiv (scaleDown n d (ratioExponent n d)).1
      (scaleDown n d (ratioExponent n d)).2) (ratioExponent n d) := rfl

theorem log2_bounds {n : Nat} (hn : 0 < n) :
    (2 : ℚ) ^ (n.log2 : Int) ≤ n ∧ (n : ℚ) < 2 ^ ((n.log2 : Int) + 1) := by
  constructor
  · rw [zpow_natCast]
    exact_mod_cast Nat.log2_self_le hn.ne'
  · have : n < 2 ^ (n.log2 + 1) := Nat.lt_log2_self
    exact_mod_cast this

/-- A ratio lies within a factor of two of the ratio of the powers of two below. -/
theorem ratio_bounds {n d : Nat} (hn : 0 < n) (hd : 0 < d) :
    (2 : ℚ) ^ ((n.log2 : Int) - d.log2 - 1) ≤ n / d ∧
      (n : ℚ) / d < 2 ^ ((n.log2 : Int) - d.log2 + 1) := by
  have hd' : (0 : ℚ) < d := by exact_mod_cast hd
  obtain ⟨nlow, nhigh⟩ := log2_bounds hn
  obtain ⟨dlow, dhigh⟩ := log2_bounds hd
  constructor
  · rw [le_div_iff₀ hd']
    calc (2 : ℚ) ^ ((n.log2 : Int) - d.log2 - 1) * d
        ≤ 2 ^ ((n.log2 : Int) - d.log2 - 1) * 2 ^ ((d.log2 : Int) + 1) := by gcongr
      _ = 2 ^ (n.log2 : Int) := by
        rw [← zpow_add₀ two_ne_zero]
        congr 1
        ring
      _ ≤ n := nlow
  · rw [div_lt_iff₀ hd']
    calc (n : ℚ) < 2 ^ ((n.log2 : Int) + 1) := nhigh
      _ = 2 ^ ((n.log2 : Int) - d.log2 + 1) * 2 ^ (d.log2 : Int) := by
        rw [← zpow_add₀ two_ne_zero]
        congr 1
        ring
      _ ≤ 2 ^ ((n.log2 : Int) - d.log2 + 1) * d := by gcongr

theorem fits_ratioExponent {n d : Nat} (hn : 0 < n) (hd : 0 < d) :
    Fits (n / d) (ratioExponent n d) := by
  obtain ⟨low, high⟩ := ratio_bounds hn hd
  unfold ratioExponent
  generalize (n.log2 : Int) - d.log2 = k at high low ⊢
  obtain ⟨hb, scaled⟩ := scaleDown_eq (n := n) hd (max (k - 53) minExponent)
  have guess_low : minExponent ≤ max (k - 53) minExponent := le_max_right _ _
  have guess_k : k - 53 ≤ max (k - 53) minExponent := le_max_left _ _
  have guess_eq : max (k - 53) minExponent = k - 53 ∨ max (k - 53) minExponent = minExponent :=
    max_choice _ _
  simp only
  generalize max (k - 53) minExponent = guess at *
  generalize scaleDown n d guess = ab at hb scaled ⊢
  obtain ⟨a, b⟩ := ab
  simp only at hb scaled ⊢
  have hb' : (0 : ℚ) < b := by exact_mod_cast hb
  have guess_pos : (0 : ℚ) < 2 ^ guess := by positivity
  split
  · next small =>
    have below : a < 2 ^ 53 * b := (Nat.div_lt_iff_lt_mul hb).1 small
    have below' : (a : ℚ) / b < 2 ^ 53 := by
      rw [div_lt_iff₀ hb']
      exact_mod_cast below
    rw [scaled, div_lt_iff₀ guess_pos] at below'
    refine ⟨guess_low, ?_, ?_⟩
    · rwa [zpow_add₀ two_ne_zero]
    · rcases guess_eq with h | h
      · refine .inr ?_
        rwa [h, show 52 + (k - 53) = k - 1 by ring]
      · exact .inl h
  · next large =>
    have above : 2 ^ 53 * b ≤ a := by
      rw [← Nat.le_div_iff_mul_le hb]
      exact Nat.not_lt.1 large
    have above' : (2 : ℚ) ^ 53 ≤ a / b := by
      rw [le_div_iff₀ hb']
      exact_mod_cast above
    rw [scaled, le_div_iff₀ guess_pos] at above'
    refine ⟨by omega, ?_, .inr ?_⟩
    · refine high.trans_le (zpow_le_zpow_right₀ (by norm_num) (by omega))
    · rw [show 52 + (guess + 1) = 53 + guess by ring, zpow_add₀ two_ne_zero]
      exact above'

section
variable {m : Nat} {e : Int} {v : ℚ}

theorem Rounds.half_low (h : Rounds m e v) : (m - 1 / 2) * 2 ^ e ≤ v := by
  refine le_trans ?_ h.low
  gcongr
  split <;> norm_num

theorem Rounds.pos (hm : m ≠ 0) (h : Rounds m e v) : 0 < v := by
  have one : (1 : ℚ) ≤ m := by exact_mod_cast Nat.one_le_iff_ne_zero.2 hm
  refine lt_of_lt_of_le ?_ h.half_low
  have : (0 : ℚ) < m - 1 / 2 := by linarith
  positivity

/-- Only just below a power of two does a number round to a double of another exponent. -/
theorem Canonical.fits (c : Canonical m e) (h : Rounds m e v) :
    Fits v e ∨ m = 2 ^ 52 ∧ Fits v (e - 1) ∧ (2 ^ 53 - 1 / 2) * 2 ^ (e - 1) ≤ v := by
  have pos : (0 : ℚ) < 2 ^ e := by positivity
  have below : v < 2 ^ (53 + e) := by
    have m_le : (m : ℚ) + 1 ≤ 2 ^ (53 : ℤ) := by exact_mod_cast c.below
    refine lt_of_le_of_lt h.high ?_
    rw [zpow_add₀ two_ne_zero]
    gcongr
    linarith
  by_cases normal : e = minExponent ∨ (2 : ℚ) ^ (52 + e) ≤ v
  · exact .inl ⟨c.low, below, normal⟩
  · obtain ⟨notLow, less⟩ := not_or.1 normal
    have bound := c.normal.resolve_left notLow
    have power : m = 2 ^ 52 := by
      by_contra other
      have m_ge : (2 : ℚ) ^ (52 : ℤ) + 1 ≤ m := by
        exact_mod_cast Nat.lt_of_le_of_ne bound (Ne.symm other)
      refine less (le_trans ?_ h.half_low)
      rw [zpow_add₀ two_ne_zero]
      gcongr
      linarith
    have above : minExponent < e := lt_of_le_of_ne c.low (Ne.symm notLow)
    have quarter := h.low
    rw [if_pos ⟨power, above⟩, power] at quarter
    have step : (2 : ℚ) ^ e = 2 * 2 ^ (e - 1) := by
      rw [← zpow_one_add₀ two_ne_zero]
      congr 1
      ring
    have low : ((2 : ℚ) ^ 53 - 1 / 2) * 2 ^ (e - 1) ≤ v := by
      rw [step] at quarter
      push_cast at quarter
      linarith
    refine .inr ⟨power, ⟨by omega, ?_, .inr ?_⟩, low⟩
    · rw [show 53 + (e - 1) = 52 + e by ring]
      exact not_le.1 less
    · refine le_trans ?_ low
      rw [zpow_add₀ two_ne_zero]
      gcongr
      norm_num

theorem roundDiv_scaleDown {n d : Nat} (hd : 0 < d) (low : (m - 1 / 2) * 2 ^ e ≤ (n : ℚ) / d)
    (high : (n : ℚ) / d ≤ (m + 1 / 2) * 2 ^ e)
    (tie : ¬m % 2 = 0 → (m - 1 / 2) * 2 ^ e < (n : ℚ) / d ∧ (n : ℚ) / d < (m + 1 / 2) * 2 ^ e) :
    roundDiv (scaleDown n d e).1 (scaleDown n d e).2 = m := by
  obtain ⟨hb, scaled⟩ := scaleDown_eq (n := n) hd e
  generalize scaleDown n d e = ab at hb scaled
  obtain ⟨a, b⟩ := ab
  simp only at hb scaled ⊢
  have hb' : (0 : ℚ) < b := by exact_mod_cast hb
  have pos : (0 : ℚ) < 2 ^ e := by positivity
  have value : (n : ℚ) / d = a / b * 2 ^ e := by
    rw [scaled]
    field_simp
  rw [value] at low high tie
  simp only [mul_le_mul_iff_left₀ pos, mul_lt_mul_iff_left₀ pos, le_div_iff₀ hb', lt_div_iff₀ hb',
    div_le_iff₀ hb', div_lt_iff₀ hb'] at low high tie
  apply roundDiv_eq hb
  · have : (2 * m * b : ℚ) ≤ 2 * a + b := by linarith
    exact_mod_cast this
  · have : (2 * a : ℚ) ≤ (2 * m + 1) * b := by linarith
    exact_mod_cast this
  · intro odd
    obtain ⟨low, high⟩ := tie odd
    constructor
    · have : (2 * m * b : ℚ) < 2 * a + b := by linarith
      exact_mod_cast this
    · have : (2 * a : ℚ) < (2 * m + 1) * b := by linarith
      exact_mod_cast this

theorem ofRatio_of_rounds (negative : Bool) (c : Canonical m e) (hm : m ≠ 0) {n d : Nat} (hn : 0 < n)
    (hd : 0 < d) (h : Rounds m e (n / d)) : ofRatio negative n d = .finite negative m e := by
  have exponent := fits_ratioExponent hn hd
  rw [ofRatio_eq]
  rcases c.fits h with fits | ⟨rfl, fits, low⟩
  · rw [exponent.unique fits, roundDiv_scaleDown hd h.half_low h.high h.tie, pack,
      if_neg (by have := c.below; simp only [Nat.pow_eq]; omega)]
    exact if_neg (not_lt.2 c.high)
  · -- The ratio rounds up to the power of two, with the exponent one less.
    have rounded : roundDiv (scaleDown n d (e - 1)).1 (scaleDown n d (e - 1)).2 = 2 ^ 53 := by
      refine roundDiv_scaleDown hd (by exact_mod_cast low) ?_ fun odd => absurd rfl odd
      refine fits.below.le.trans ?_
      rw [zpow_add₀ two_ne_zero]
      gcongr
      norm_num
    rw [exponent.unique fits, rounded, pack, if_pos (show 2 ^ 53 = Nat.pow 2 53 from rfl)]
    simp only [sub_add_cancel]
    exact if_neg (not_lt.2 c.high)

/-! ## Rounding of decimals -/

theorem Canonical.lt_of_rounds (c : Canonical m e) (h : Rounds m e v) : v < 2 ^ (1024 : ℤ) := by
  have m_le : (m : ℚ) + 1 ≤ 2 ^ (53 : ℤ) := by exact_mod_cast c.below
  have high : (2 : ℚ) ^ e ≤ 2 ^ (971 : ℤ) := zpow_le_zpow_right₀ (by norm_num) c.high
  have pos : (0 : ℚ) < 2 ^ e := by positivity
  calc v ≤ (m + 1 / 2) * 2 ^ e := h.high
    _ < 2 ^ (53 : ℤ) * 2 ^ e := by
      gcongr
      linarith
    _ ≤ 2 ^ (53 : ℤ) * 2 ^ (971 : ℤ) := by gcongr
    _ = 2 ^ (1024 : ℤ) := by
      rw [← zpow_add₀ two_ne_zero]
      rfl

theorem Canonical.le_of_rounds (c : Canonical m e) (hm : m ≠ 0) (h : Rounds m e v) :
    2 ^ (-1075 : ℤ) ≤ v := by
  have one : (1 : ℚ) ≤ m := by exact_mod_cast Nat.one_le_iff_ne_zero.2 hm
  have low : (2 : ℚ) ^ (-1074 : ℤ) ≤ 2 ^ e := zpow_le_zpow_right₀ (by norm_num) c.low
  calc (2 : ℚ) ^ (-1075 : ℤ) = 1 / 2 * 2 ^ (-1074 : ℤ) := by
        rw [show (-1075 : ℤ) = -1 + -1074 by norm_num, zpow_add₀ two_ne_zero]
        norm_num
    _ ≤ (m - 1 / 2) * 2 ^ e := by
      have half : (1 : ℚ) / 2 ≤ m - 1 / 2 := by linarith
      gcongr
    _ ≤ v := h.half_low

theorem two_zpow_lt : (2 : ℚ) ^ (1024 : ℤ) < 10 ^ (401 : ℤ) := by
  have : 2 ^ 1024 < 10 ^ 401 := by decide +kernel
  exact_mod_cast this

theorem ten_zpow_lt : (10 : ℚ) ^ (-401 : ℤ) < 2 ^ (-1075 : ℤ) := by
  have : 2 ^ 1075 < 10 ^ 401 := by decide +kernel
  rw [zpow_neg, zpow_neg]
  refine inv_strictAnti₀ (by positivity) ?_
  exact_mod_cast this

theorem ofDecimal_of_rounds (negative : Bool) (c : Canonical m e) (hm : m ≠ 0)
    {digits length : Nat} {power : Int} (bound : digits < 10 ^ length)
    (h : Rounds m e (digits * 10 ^ power)) :
    ofDecimal negative digits length power = .finite negative m e := by
  have pos := h.pos hm
  have some_digits : digits ≠ 0 := by
    rintro rfl
    simp at pos
  have one : (1 : ℚ) ≤ digits := by exact_mod_cast Nat.one_le_iff_ne_zero.2 some_digits
  have not_high : ¬400 < power := by
    intro high
    have : (10 : ℚ) ^ (401 : ℤ) ≤ digits * 10 ^ power :=
      calc (10 : ℚ) ^ (401 : ℤ) ≤ 10 ^ power := zpow_le_zpow_right₀ (by norm_num) high
        _ ≤ digits * 10 ^ power := le_mul_of_one_le_left (by positivity) one
    exact absurd (c.lt_of_rounds h) (not_lt.2 (two_zpow_lt.le.trans this))
  have not_low : ¬(length : Int) + power < -400 := by
    intro low
    have : (digits : ℚ) * 10 ^ power < 10 ^ (-401 : ℤ) :=
      calc (digits : ℚ) * 10 ^ power < 10 ^ (length : ℤ) * 10 ^ power := by
            gcongr
            exact_mod_cast bound
        _ = 10 ^ ((length : ℤ) + power) := (zpow_add₀ (by norm_num) _ _).symm
        _ ≤ 10 ^ (-401 : ℤ) := zpow_le_zpow_right₀ (by norm_num) (by omega)
    exact absurd (c.le_of_rounds hm h) (not_le.2 (this.trans ten_zpow_lt))
  rw [ofDecimal, if_neg some_digits, if_neg not_high, if_neg not_low]
  split
  · next nonneg =>
    obtain ⟨k, rfl⟩ := Int.eq_ofNat_of_zero_le nonneg
    refine ofRatio_of_rounds negative c hm
      (Nat.mul_pos (Nat.pos_of_ne_zero some_digits) (Nat.pow_pos (by decide))) Nat.one_pos ?_
    have value : ((digits * Nat.pow 10 (k : ℤ).toNat : ℕ) : ℚ) / (1 : ℕ) =
        digits * 10 ^ (k : ℤ) := by
      simp
    rwa [value]
  · next neg =>
    obtain ⟨k, hk⟩ : ∃ k : Nat, power = -k := ⟨power.natAbs, by omega⟩
    subst hk
    refine ofRatio_of_rounds negative c hm (Nat.pos_of_ne_zero some_digits)
      (Nat.pow_pos (by decide)) ?_
    have value : (digits : ℚ) / (Nat.pow 10 (- -(k : ℤ)).toNat : ℕ) =
        digits * 10 ^ (-(k : ℤ)) := by
      simp [div_eq_mul_inv]
    rwa [value]

end

/-! ## The search for the shortest decimal -/

theorem zpow_mul_toNat {b : ℚ} (hb : b ≠ 0) (e : Int) : b ^ e * b ^ (-e).toNat = b ^ e.toNat := by
  rw [← zpow_natCast, ← zpow_natCast, ← zpow_add₀ hb]
  congr 1
  omega

section
variable {m : Nat} {e : Int}

theorem quarters_scaled (a : Nat) (e power : Int) :
    (a / 4 * 2 ^ e : ℚ) * (4 * 2 ^ (-e).toNat * 10 ^ (-power).toNat) =
      (a * Nat.pow 2 e.toNat * Nat.pow 10 (-power).toNat : ℕ) := by
  push_cast [Nat.pow_eq]
  rw [← zpow_mul_toNat two_ne_zero e]
  ring

theorem point_scaled (t : Nat) (e power : Int) :
    (t * 10 ^ power : ℚ) * (4 * 2 ^ (-e).toNat * 10 ^ (-power).toNat) =
      (t * (4 * Nat.pow 2 (-e).toNat * Nat.pow 10 power.toNat) : ℕ) := by
  push_cast [Nat.pow_eq]
  rw [← zpow_mul_toNat (by norm_num : (10 : ℚ) ≠ 0) power]
  ring

theorem le_point_iff {a t : Nat} {power : Int} :
    a * Nat.pow 2 e.toNat * Nat.pow 10 (-power).toNat ≤
      t * (4 * Nat.pow 2 (-e).toNat * Nat.pow 10 power.toNat) ↔
    (a / 4 * 2 ^ e : ℚ) ≤ t * 10 ^ power := by
  rw [← Nat.cast_le (α := ℚ), ← quarters_scaled, ← point_scaled]
  exact mul_le_mul_iff_left₀ (by positivity)

theorem point_le_iff {a t : Nat} {power : Int} :
    t * (4 * Nat.pow 2 (-e).toNat * Nat.pow 10 power.toNat) ≤
      a * Nat.pow 2 e.toNat * Nat.pow 10 (-power).toNat ↔
    (t * 10 ^ power : ℚ) ≤ a / 4 * 2 ^ e := by
  rw [← Nat.cast_le (α := ℚ), ← quarters_scaled, ← point_scaled]
  exact mul_le_mul_iff_left₀ (by positivity)

theorem admits_iff {n : Neighbourhood} {point unit : Nat} : n.admits point unit = true ↔
    (n.low * unit ≤ point ∧ point ≤ n.high * unit) ∧
      (n.closed = false → n.low * unit < point ∧ point < n.high * unit) := by
  unfold Neighbourhood.admits
  cases n.closed
  · simp
    omega
  · simp

theorem exists_quarters (m : Nat) (e : Int) : ∃ q, 1 ≤ q ∧ q ≤ 2 ∧
    (neighbourhood m e).low = (4 * m - q) * Nat.pow 2 e.toNat ∧
    (q / 4 : ℚ) = if m = 2 ^ 52 ∧ minExponent < e then 1 / 4 else 1 / 2 := by
  by_cases power : m = 2 ^ 52 ∧ minExponent < e
  · refine ⟨1, le_refl _, by decide, ?_, ?_⟩
    · simp only [neighbourhood, Nat.pow_eq, Bool.and_eq_true, decide_eq_true_eq, if_pos power]
    · rw [if_pos power]
      norm_num
  · refine ⟨2, by decide, le_refl _, ?_, ?_⟩
    · simp only [neighbourhood, Nat.pow_eq, Bool.and_eq_true, decide_eq_true_eq, if_neg power]
    · rw [if_neg power]
      norm_num

theorem rounds_of_admits (hm : m ≠ 0) {t : Nat} {power : Int}
    (h : (neighbourhood m e).admits (t * ((neighbourhood m e).scale * Nat.pow 10 power.toNat))
      (Nat.pow 10 (-power).toNat) = true) : Rounds m e (t * 10 ^ power) := by
  obtain ⟨⟨low, high⟩, opened⟩ := admits_iff.1 h
  obtain ⟨q, -, q_le, low_eq, quarters⟩ := exists_quarters m e
  have lower : (((4 * m - q : ℕ) : ℚ) / 4) = m - q / 4 := by
    push_cast [show q ≤ 4 * m by omega]
    ring
  have higher : (((4 * m + 2 : ℕ) : ℚ) / 4) = m + 1 / 2 := by
    push_cast
    ring
  rw [low_eq] at low opened
  refine ⟨?_, ?_, fun odd => ?_⟩
  · rw [← quarters, ← lower]
    exact le_point_iff.1 low
  · rw [← higher]
    exact point_le_iff.1 high
  · obtain ⟨low, high⟩ := opened (decide_eq_false odd)
    have two : (q / 4 : ℚ) = 1 / 2 := by
      rw [quarters, if_neg]
      rintro ⟨rfl, -⟩
      exact odd rfl
    constructor
    · rw [← two, ← lower]
      exact not_le.1 (mt point_le_iff.2 (not_le.2 low))
    · rw [← higher]
      exact not_le.1 (mt le_point_iff.2 (not_le.2 high))

theorem ten_zpow_le {q : Int} (low : minExponent ≤ e) (high : e ≤ maxExponent)
    (h : 100000 * (q + 20) ≤ 30103 * (e + 53)) : (10 : ℚ) ^ q ≤ 2 ^ (e - 2) := by
  unfold minExponent at low
  unfold maxExponent at high
  rcases le_or_gt 0 q with nonneg | neg
  · have : ((10 : ℚ) ^ q) ^ 3 ≤ (2 ^ (e - 2)) ^ 3 :=
      calc ((10 : ℚ) ^ q) ^ 3 = (10 ^ 3) ^ q := by rw [← zpow_natCast, zpow_comm, zpow_natCast]
        _ ≤ (2 ^ 10) ^ q := zpow_le_zpow_left₀ nonneg (by norm_num) (by norm_num)
        _ = 2 ^ (10 * q) := by rw [zpow_mul]; norm_num
        _ ≤ 2 ^ ((e - 2) * 3) := zpow_le_zpow_right₀ (by norm_num) (by omega)
        _ = (2 ^ (e - 2)) ^ 3 := by rw [zpow_mul]; rfl
    exact le_of_pow_le_pow_left₀ (by norm_num) (by positivity) this
  · obtain ⟨k, rfl⟩ : ∃ k : Nat, q = -k := ⟨q.natAbs, by omega⟩
    have : ((10 : ℚ) ^ (-k : ℤ)) ^ 28 ≤ (2 ^ (e - 2)) ^ 28 :=
      calc ((10 : ℚ) ^ (-k : ℤ)) ^ 28 = ((10 ^ 28) ^ k)⁻¹ := by
            rw [zpow_neg, zpow_natCast, inv_pow, ← pow_mul, ← pow_mul, mul_comm]
        _ ≤ ((2 ^ 93) ^ k)⁻¹ := by
          refine inv_anti₀ (by positivity) ?_
          gcongr
          norm_num
        _ = 2 ^ (93 * -k : ℤ) := by
          rw [mul_neg, zpow_neg, zpow_mul, zpow_natCast]
          rfl
        _ ≤ 2 ^ ((e - 2) * 28) := zpow_le_zpow_right₀ (by norm_num) (by omega)
        _ = (2 ^ (e - 2)) ^ 28 := by rw [zpow_mul]; rfl
    exact le_of_pow_le_pow_left₀ (by norm_num) (by positivity) this

theorem admits_of_onGrid {n : Neighbourhood} {power : Int} {t : Nat}
    (h : n.onGrid power = some t) :
    n.admits (t * (n.scale * Nat.pow 10 power.toNat)) (Nat.pow 10 (-power).toNat) = true := by
  simp only [Neighbourhood.onGrid] at h
  split at h
  · next here there =>
    cases h
    exact here
  · next here there =>
    cases h
    exact there
  · nomatch h
  · next here there =>
    split at h
    · cases h
      exact here
    · cases h
      exact there

theorem onGrid_isSome {n : Neighbourhood} {power : Int}
    (h : n.admits (n.value * Nat.pow 10 (-power).toNat / (n.scale * Nat.pow 10 power.toNat) *
      (n.scale * Nat.pow 10 power.toNat)) (Nat.pow 10 (-power).toNat) = true) :
    (n.onGrid power).isSome = true := by
  simp only [Neighbourhood.onGrid, h]
  split
  · rfl
  · next impossible _ => nomatch impossible
  · next impossible _ => nomatch impossible
  · split <;> rfl

theorem onGrid_neighbourhood (hm : m ≠ 0) {power : Int} (fine : (10 : ℚ) ^ power ≤ 2 ^ (e - 2)) :
    ((neighbourhood m e).onGrid power).isSome = true := by
  have step_le : 4 * Nat.pow 2 (-e).toNat * Nat.pow 10 power.toNat ≤
      Nat.pow 2 e.toNat * Nat.pow 10 (-power).toNat := by
    have quarter : (2 : ℚ) ^ (e - 2) = (1 : ℕ) / 4 * 2 ^ e := by
      rw [zpow_sub₀ two_ne_zero]
      push_cast
      ring
    rw [quarter] at fine
    have := (point_le_iff (t := 1) (a := 1)).2 (by simpa using fine)
    simpa using this
  have step_pos : 0 < 4 * Nat.pow 2 (-e).toNat * Nat.pow 10 power.toNat :=
    Nat.mul_pos (Nat.mul_pos (by decide) (Nat.pow_pos (by decide))) (Nat.pow_pos (by decide))
  obtain ⟨q, one, -, low_eq, -⟩ := exists_quarters m e
  have value_eq : (neighbourhood m e).value = 4 * m * Nat.pow 2 e.toNat := rfl
  have scale_eq : (neighbourhood m e).scale = 4 * Nat.pow 2 (-e).toNat := rfl
  have high_eq : (neighbourhood m e).high = (4 * m + 2) * Nat.pow 2 e.toNat := rfl
  refine onGrid_isSome (admits_iff.2 ?_)
  rw [low_eq, value_eq, scale_eq, high_eq]
  generalize 4 * Nat.pow 2 (-e).toNat * Nat.pow 10 power.toNat = step at *
  generalize Nat.pow 2 e.toNat = up at *
  generalize Nat.pow 10 (-power).toNat = unit at *
  -- The point of the grid below the double is less than a step away.
  have split := Nat.div_add_mod (4 * m * up * unit) step
  have less := Nat.mod_lt (4 * m * up * unit) step_pos
  rw [Nat.mul_comm step] at split
  generalize 4 * m * up * unit / step * step = point at *
  have low : (4 * m - q) * up * unit < point := by
    have : (4 * m - q) * up * unit + up * unit ≤ 4 * m * up * unit :=
      calc (4 * m - q) * up * unit + up * unit
          = (4 * m - q + 1) * (up * unit) := by ring
        _ ≤ 4 * m * (up * unit) := Nat.mul_le_mul_right _ (by omega)
        _ = 4 * m * up * unit := by ring
    omega
  have high : point < (4 * m + 2) * up * unit := by
    have : (4 * m + 2) * up * unit = 4 * m * up * unit + 2 * (up * unit) := by ring
    omega
  exact ⟨⟨low.le, high.le⟩, fun _ => ⟨low, high⟩⟩

theorem onGrid_firstGrid {n : Neighbourhood} : ∀ {count : Nat} {power : Int} (i : Nat), i < count →
    (n.onGrid (power - i)).isSome = true →
      n.onGrid (n.firstGrid count power).2 = some (n.firstGrid count power).1
  | 0, _, _, h, _ => nomatch h
  | count + 1, power, i, h, there => by
    unfold Neighbourhood.firstGrid
    cases here : n.onGrid power with
    | some digits => exact here
    | none =>
      cases i with
      | zero => simp [here] at there
      | succ i =>
        refine onGrid_firstGrid i (Nat.lt_of_succ_lt_succ h) ?_
        rwa [show power - 1 - i = power - (i + 1 : ℕ) by push_cast; ring]

theorem rounds_shortest (c : Canonical m e) (hm : m ≠ 0) :
    Rounds m e ((shortest m e).1 * 10 ^ (shortest m e).2) := by
  refine rounds_of_admits hm (admits_of_onGrid (onGrid_firstGrid 21 (by decide) ?_))
  refine onGrid_neighbourhood hm (ten_zpow_le c.low c.high ?_)
  have bits : m.log2 < 53 := (Nat.log2_lt hm).2 c.below
  have estimate : powerAbove m e = (m.log2 + 1 + e) * 30103 / 100000 + 1 := by
    rw [powerAbove, Int.fdiv_eq_ediv_of_nonneg _ (by decide)]
  omega

/-- The shortest decimal of a double reads back as that double. -/
theorem ofDecimal_shortest (negative : Bool) (c : Canonical m e) (hm : m ≠ 0) {digits length : Nat}
    {power : Int} (bound : digits < 10 ^ length)
    (same : (digits * 10 ^ power : ℚ) = (shortest m e).1 * 10 ^ (shortest m e).2) :
    ofDecimal negative digits length power = .finite negative m e :=
  ofDecimal_of_rounds negative c hm bound (same ▸ rounds_shortest c hm)

end

end Reannotate.Binary64
