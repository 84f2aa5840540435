import Mathlib.Data.List.Shortlex
import Mathlib.Data.Set.Function
import Reannotate.Proofs.Search

/-!
# Words in order

The words a, b, …, z, aa, ab, … are all names of small letters there are. Each comes once, the
shorter ones first and those of one length as in a dictionary (`words_in_order`).
-/

namespace Reannotate

/-- The order of points by their numbers. -/
def Point.Precedes (p q : Point) : Prop :=
  p.code < q.code

instance : Std.Asymm Point.Precedes :=
  ⟨fun _ _ => Nat.lt_asymm⟩

def letter (i : Nat) : Point :=
  .char (Char.ofNat (97 + i))

theorem nthWord_pos {n : Nat} (h : 0 < n) :
    nthWord n = nthWord ((n - 1) / 26) ++ [letter ((n - 1) % 26)] := by
  rw [nthWord, letters_pos h, Text.ofChars, List.map_append]
  rfl

theorem letter_precedes {a b : Nat} (hb : b < 26) (h : a < b) :
    (letter a).Precedes (letter b) := by
  rw [Point.Precedes, letter, letter, Point.code, Point.code, toNat_letter hb,
    toNat_letter (by omega)]
  omega

/-! ## The order of the words -/

theorem shortlex_concat {α : Type} {r : α → α → Prop} {s t : List α} (h : s.Shortlex r t)
    (a b : α) : (s ++ [a]).Shortlex r (t ++ [b]) := by
  rcases List.shortlex_def.1 h with shorter | ⟨same, before⟩
  · apply List.Shortlex.of_length_lt
    simp [shorter]
  · apply List.Shortlex.of_lex
    · simp [same]
    · clear h
      induction before with
      | nil => cases same
      | cons _ ih => exact .cons (ih (Nat.succ.inj same))
      | rel hr => exact .rel hr

theorem nthWord_shortlex {m n : Nat} (h : m < n) :
    (nthWord m).Shortlex Point.Precedes (nthWord n) := by
  induction n using Nat.strongRecOn generalizing m with
  | ind n ih =>
    rw [nthWord_pos (by omega : 0 < n)]
    rcases Nat.eq_zero_or_pos m with rfl | hm
    · apply List.Shortlex.of_length_lt
      simp [nthWord, letters_zero, Text.ofChars]
    · rw [nthWord_pos hm]
      rcases Nat.lt_or_ge ((m - 1) / 26) ((n - 1) / 26) with less | notLess
      · apply shortlex_concat
        apply ih _ (by omega) less
      · have same : (m - 1) / 26 = (n - 1) / 26 := by omega
        rw [same]
        apply List.Shortlex.append_left
        rw [List.shortlex_singleton_iff]
        apply letter_precedes <;> omega

theorem lt_iff_shortlex {m n : Nat} :
    m < n ↔ (nthWord m).Shortlex Point.Precedes (nthWord n) := by
  refine ⟨nthWord_shortlex, fun h => ?_⟩
  rcases Nat.lt_trichotomy m n with less | rfl | more
  · exact less
  · exact absurd h (Std.Asymm.asymm _ _ h)
  · exact absurd (nthWord_shortlex more) (Std.Asymm.asymm _ _ h)

/-! ## All words -/

theorem exists_nthWord (t : Text) (h : ∀ p ∈ t, ∃ c, p = .char c ∧ 'a' ≤ c ∧ c ≤ 'z') :
    ∃ n, nthWord n = t := by
  induction t using List.reverseRecOn with
  | nil => exact ⟨0, by simp [nthWord, letters_zero, Text.ofChars]⟩
  | append_singleton t p ih =>
    obtain ⟨k, hk⟩ := ih fun q hq => h q (List.mem_append_left _ hq)
    obtain ⟨c, rfl, low, high⟩ := h p (by simp)
    have low' : 97 ≤ c.toNat := low
    have high' : c.toNat ≤ 122 := high
    refine ⟨26 * k + (c.toNat - 96), ?_⟩
    rw [nthWord_pos (by omega), ← hk]
    have quotient : (26 * k + (c.toNat - 96) - 1) / 26 = k := by omega
    have remainder : (26 * k + (c.toNat - 96) - 1) % 26 = c.toNat - 97 := by omega
    rw [quotient, remainder, letter, Nat.add_sub_cancel' low', Char.ofNat_toNat]

theorem lowerCase_iff {t : Text} : t.LowerCase ↔ ∃ n, 0 < n ∧ nthWord n = t := by
  constructor
  · intro ⟨nonempty, small⟩
    obtain ⟨n, rfl⟩ := exists_nthWord t small
    refine ⟨n, Nat.pos_of_ne_zero ?_, rfl⟩
    rintro rfl
    exact nonempty (by simp [nthWord, letters_zero, Text.ofChars])
  · rintro ⟨n, hn, rfl⟩
    exact lowerCase_nthWord hn

/-- Counting from one goes through all names of small letters, each of them once, and in order. -/
theorem words_in_order :
    Set.BijOn nthWord (Set.Ioi 0) {t | t.LowerCase} ∧
    (∀ m n, m < n ↔ (nthWord m).Shortlex Point.Precedes (nthWord n)) ∧
    ∀ t : Text, t.LowerCase ↔ ∃! n, 0 < n ∧ nthWord n = t := by
  refine ⟨⟨?_, nthWord_injective.injOn, ?_⟩, fun _ _ => lt_iff_shortlex, fun t => ?_⟩
  · intro n hn
    exact lowerCase_nthWord hn
  · intro t ht
    exact lowerCase_iff.1 ht
  · rw [lowerCase_iff]
    constructor
    · rintro ⟨n, hn, rfl⟩
      exact ⟨n, ⟨hn, rfl⟩, fun m hm => nthWord_injective hm.2⟩
    · exact ExistsUnique.exists

end Reannotate
