import Mathlib.Data.Finset.Card
import Reannotate.Proofs.Words

/-!
# The search for a name

`unusedName` tries a bounded number of words. `Searches` is the search as such, which goes from word
to word until one is free and knows no bound. It always ends, after at most one word more than there
are different names to avoid, and with the answer of `unusedName` (`search_ends`).
-/

namespace Reannotate

/-! ## Letters -/

theorem letters_ne_nil {n : Nat} (h : 0 < n) : letters n ≠ [] := by
  rw [letters_pos h]
  simp

theorem mem_letters {n : Nat} {c : Char} (h : c ∈ letters n) : 'a' ≤ c ∧ c ≤ 'z' := by
  induction n using Nat.strongRecOn with
  | ind n ih =>
    by_cases hn : 0 < n
    · rw [letters_pos hn, List.mem_append, List.mem_singleton] at h
      rcases h with before | rfl
      · apply ih _ _ before
        omega
      · have code := toNat_letter (Nat.mod_lt (n - 1) (by omega : 0 < 26))
        have low : 97 ≤ (Char.ofNat (97 + (n - 1) % 26)).toNat := by omega
        have high : (Char.ofNat (97 + (n - 1) % 26)).toNat ≤ 122 := by omega
        exact ⟨low, high⟩
    · obtain rfl : n = 0 := by omega
      simp [letters_zero] at h

def Text.LowerCase (t : Text) : Prop :=
  t ≠ [] ∧ ∀ p ∈ t, ∃ c, p = .char c ∧ 'a' ≤ c ∧ c ≤ 'z'

theorem lowerCase_nthWord {n : Nat} (h : 0 < n) : (nthWord n).LowerCase := by
  constructor
  · simp [nthWord, Text.ofChars, letters_ne_nil h]
  · intro p hp
    simp only [nthWord, Text.ofChars, List.mem_map] at hp
    obtain ⟨c, hc, rfl⟩ := hp
    exact ⟨c, rfl, mem_letters hc⟩

/-! ## The search -/

/-- The search from the `n`-th word on looks at `count` words and ends with `word`. -/
inductive Searches (taken : Text → Prop) : (n count : Nat) → (word : Text) → Prop
  | found {n} (free : ¬taken (nthWord n)) : Searches taken n 1 (nthWord n)
  | next {n count word} (h : taken (nthWord n)) (rest : Searches taken (n + 1) count word) :
      Searches taken n (count + 1) word

section
variable {taken : Text → Prop}

theorem Searches.unique {n count count' : Nat} {word word' : Text}
    (h : Searches taken n count word) (h' : Searches taken n count' word') :
    count = count' ∧ word = word' := by
  induction h generalizing count' with
  | found free =>
    cases h' with
    | found => exact ⟨rfl, rfl⟩
    | next now => exact absurd now free
  | next now rest ih =>
    cases h' with
    | found free => exact absurd now free
    | next now' rest' =>
      obtain ⟨rfl, same⟩ := ih rest'
      exact ⟨rfl, same⟩

theorem searches_first {m count n : Nat} (hn : m + count = n) (free : ¬taken (nthWord n))
    (before : ∀ i, m ≤ i → i < n → taken (nthWord i)) :
    Searches taken m (count + 1) (nthWord n) := by
  induction count generalizing m with
  | zero =>
    obtain rfl : m = n := hn
    exact .found free
  | succ count ih =>
    apply Searches.next
    · exact before m (by omega) (by omega)
    · apply ih
      · omega
      · intro i hi
        exact before i (by omega)

end

theorem mapM_str (names : List Text) :
    (names.map Json.str).mapM Json.toScalar = .ok (names.map .str) := by
  induction names with
  | nil => rfl
  | cons name names ih =>
    rw [List.map_cons, List.mapM_cons, ih]
    rfl

theorem exists_vacant_le (existing : List Text) :
    ∃ n ≤ existing.toFinset.card + forbiddenNames.toFinset.card + 1,
      Vacant (existing.map .str) n := by
  let avoid := existing.toFinset ∪ forbiddenNames.toFinset
  obtain ⟨k, hk, free⟩ := exists_nthWord_notMem (avoid.toList.map .str)
  have bound : avoid.card ≤ existing.toFinset.card + forbiddenNames.toFinset.card :=
    Finset.card_union_le _ _
  rw [List.length_map, Finset.length_toList] at hk
  refine ⟨1 + k, by omega, by omega, ?_⟩
  simpa [avoid, and_comm] using free

/-- Whatever names exist, the search comes to an end, in one way only. It looks at no more than one
word for each different name that exists or is reserved, and at one more. What it ends with is the
answer: a name of small letters that neither exists nor is reserved. All words before the answer
exist or are reserved. -/
theorem search_ends (existing : List Text) :
    ∃ n, unusedAmong (existing.map .str) = .ok (nthWord n) ∧
      (∀ count word,
        Searches (fun w => w ∈ existing ∨ w ∈ forbiddenNames) 1 count word ↔
          count = n ∧ word = nthWord n) ∧
      n ≤ existing.toFinset.card + forbiddenNames.toFinset.card + 1 ∧
      (nthWord n).LowerCase ∧ nthWord n ∉ existing ∧ nthWord n ∉ forbiddenNames ∧
      ∀ m, 0 < m → m < n → nthWord m ∈ existing ∨ nthWord m ∈ forbiddenNames := by
  obtain ⟨n, answer, vacant, least⟩ := unusedName_least (existing.map .str)
  rw [List.map_map] at vacant least
  let taken : Text → Prop := fun w => w ∈ existing ∨ w ∈ forbiddenNames
  have free_iff : ∀ m, 0 < m → (¬taken (nthWord m) ↔ Vacant (existing.map .str) m) := by
    intro m hm
    simp [taken, Vacant, hm, and_comm]
  have before : ∀ m, 0 < m → m < n → taken (nthWord m) := by
    intro m hm hmn
    by_contra free
    exact least m hmn ((free_iff m hm).1 free)
  have positive : 0 < n := vacant.1
  have ends : Searches taken 1 n (nthWord n) := by
    obtain ⟨k, rfl⟩ := Nat.exists_eq_add_of_lt positive
    exact searches_first (by omega) ((free_iff _ positive).2 vacant) before
  obtain ⟨-, notForbidden, notExisting⟩ := vacant
  refine ⟨n, ?_, ?_, ?_, lowerCase_nthWord positive, by simpa using notExisting, notForbidden,
    before⟩
  · rw [unusedAmong, mapM_str, ← answer]
    rfl
  · intro count word
    constructor
    · intro found
      exact found.unique ends
    · rintro ⟨rfl, rfl⟩
      exact ends
  · obtain ⟨m, hm, free⟩ := exists_vacant_le existing
    by_contra beyond
    exact least m (by omega) free

end Reannotate
