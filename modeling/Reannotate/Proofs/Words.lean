import Mathlib.Data.List.Perm.Subperm
import Mathlib.Data.Nat.Nth
import Mathlib.Order.Interval.Set.Infinite
import Reannotate.Proofs.Ending

/-!
# Words for parameters

No two of the words a, b, …, z, aa, ab, … are the same (`nthWord_injective`), so among as many words
as there are names to avoid, and one more, one is vacant, and `unusedName` finds the first of them
(`unusedName_least`). Asked again and again, with its own answers among the names in use, it goes
through all vacant words in order (`unusedAmong_vacantWords`).
-/

namespace Reannotate

/-! ## The words -/

theorem letters_zero : letters 0 = [] := by simp [letters]

theorem letters_pos {n : Nat} (h : 0 < n) :
    letters n = letters ((n - 1) / 26) ++ [Char.ofNat (97 + (n - 1) % 26)] := by
  rw [letters, if_neg (by omega)]

theorem toNat_letter {i : Nat} (hi : i < 26) : (Char.ofNat (97 + i)).toNat = 97 + i := by
  have valid : (97 + i).isValidChar := .inl (by omega)
  rw [Char.ofNat, dif_pos valid]
  rfl

theorem letter_inj {a b : Nat} (ha : a < 26) (hb : b < 26)
    (h : Char.ofNat (97 + a) = Char.ofNat (97 + b)) : a = b := by
  have same := congrArg Char.toNat h
  rw [toNat_letter ha, toNat_letter hb] at same
  omega

theorem letters_inj {m n : Nat} (h : letters m = letters n) : m = n := by
  induction m using Nat.strongRecOn generalizing n with
  | ind m ih =>
    rcases Nat.eq_zero_or_pos m with rfl | hm
    · rcases Nat.eq_zero_or_pos n with rfl | hn
      · rfl
      · simp [letters_zero, letters_pos hn] at h
    · rcases Nat.eq_zero_or_pos n with rfl | hn
      · simp [letters_zero, letters_pos hm] at h
      · rw [letters_pos hm, letters_pos hn] at h
        obtain ⟨before, last⟩ := List.append_inj' h rfl
        have quotient : (m - 1) / 26 = (n - 1) / 26 := ih _ (by omega) before
        have remainder : (m - 1) % 26 = (n - 1) % 26 :=
          letter_inj (by omega) (by omega) (List.singleton_inj.1 last)
        omega

theorem nthWord_injective : Function.Injective nthWord := by
  intro m n h
  exact letters_inj ((List.map_inj_right fun _ _ => Point.char.inj).1 h)

/-! ## The first that is not taken -/

theorem firstFree_eq {taken : Text → Bool} {tries n : Nat}
    (h : ∃ k ≤ tries, taken (nthWord (n + k)) = false) :
    ∃ k, firstFree taken tries n = nthWord (n + k) ∧ taken (nthWord (n + k)) = false ∧
      ∀ i < k, taken (nthWord (n + i)) = true := by
  induction tries generalizing n with
  | zero =>
    obtain ⟨k, hk, free⟩ := h
    obtain rfl : k = 0 := by omega
    exact ⟨0, rfl, free, by omega⟩
  | succ tries ih =>
    rw [firstFree]
    by_cases now : taken (nthWord n) = true
    · obtain ⟨k, hk, free⟩ := h
      have later : ∃ k ≤ tries, taken (nthWord (n + 1 + k)) = false := by
        cases k with
        | zero => simp [now] at free
        | succ k => exact ⟨k, by omega, by rwa [Nat.add_right_comm, Nat.add_assoc]⟩
      obtain ⟨j, found, free', before⟩ := ih later
      rw [Nat.add_right_comm, Nat.add_assoc] at found free'
      refine ⟨j + 1, by rw [if_pos now, found], free', fun i hi => ?_⟩
      cases i with
      | zero => exact now
      | succ i =>
        have := before i (by omega)
        rwa [Nat.add_right_comm, Nat.add_assoc] at this
    · exact ⟨0, if_neg now, by simpa using now, by omega⟩

theorem exists_nthWord_notMem (avoid : List Scalar) :
    ∃ k ≤ avoid.length, Scalar.str (nthWord (1 + k)) ∉ avoid := by
  by_contra all
  push Not at all
  let words := (List.range (avoid.length + 1)).map fun k => Scalar.str (nthWord (1 + k))
  have distinct : words.Nodup := by
    refine List.nodup_range.map fun i j h => ?_
    have := nthWord_injective (Scalar.str.inj h)
    omega
  have inside : words ⊆ avoid := by
    intro s hs
    obtain ⟨k, hk, rfl⟩ := List.mem_map.1 hs
    exact all k (by simpa [Nat.lt_succ_iff] using hk)
  have := (distinct.subperm inside).length_le
  simp [words] at this

/-- The `n`-th word is a name, and neither taken nor reserved. -/
def Vacant (taken : List Json) (n : Nat) : Prop :=
  0 < n ∧ nthWord n ∉ forbiddenNames ∧ .str (nthWord n) ∉ taken

theorem unusedName_least (used : List Scalar) : ∃ n, unusedName used = nthWord n ∧
    Vacant (used.map .scalar) n ∧ ∀ m < n, ¬Vacant (used.map .scalar) m := by
  let taken : Text → Bool := fun name => used.contains (.str name) || forbiddenNames.contains name
  have taken_iff : ∀ n, 0 < n → (taken (nthWord n) = false ↔ Vacant (used.map .scalar) n) := by
    intro n hn
    simp [taken, Vacant, hn, and_comm]
  have free : ∃ k ≤ used.length + forbiddenNames.length, taken (nthWord (1 + k)) = false := by
    obtain ⟨k, hk, h⟩ := exists_nthWord_notMem (used ++ forbiddenNames.map .str)
    refine ⟨k, by simpa using hk, ?_⟩
    simpa [taken] using h
  obtain ⟨k, found, vacant, before⟩ := firstFree_eq free
  refine ⟨1 + k, found, (taken_iff _ (by omega)).1 vacant, fun m hm hv => ?_⟩
  have hpos := hv.1
  have := before (m - 1) (by omega)
  rw [Nat.add_sub_cancel' hpos, (taken_iff m hpos).2 hv] at this
  cases this

theorem mapM_toScalar {js : List Json} {ss : List Scalar} (h : js.mapM Json.toScalar = .ok ss) :
    js = ss.map .scalar := by
  have each := forall₂_of_mapM h
  clear h
  induction each with
  | nil => rfl
  | cons hj _ ih => rw [List.map_cons, eq_of_toScalar hj, ih]

theorem unusedAmong_least {used : List Json} {name : Text} (h : unusedAmong used = .ok name) :
    ∃ n, name = nthWord n ∧ Vacant used n ∧ ∀ m < n, ¬Vacant used m := by
  obtain ⟨ss, hss, h⟩ := exists_of_bind h
  cases h
  rw [mapM_toScalar hss]
  exact unusedName_least ss

/-! ## The vacant words in order -/

noncomputable def vacantWord (taken : List Json) (i : Nat) : Text :=
  nthWord (Nat.nth (Vacant taken) i)

theorem infinite_vacant (taken : List Json) : (Set.ofPred (Vacant taken)).Infinite := by
  have finite : {n | nthWord n ∈ forbiddenNames ∨ Json.str (nthWord n) ∈ taken}.Finite := by
    have inj : Function.Injective fun n => Json.str (nthWord n) :=
      fun m n h => nthWord_injective (by simpa using h)
    exact ((forbiddenNames.finite_toSet).preimage nthWord_injective.injOn).union
      ((taken.finite_toSet).preimage inj.injOn)
  have rest := (Set.Ioi_infinite 0).sdiff finite
  refine rest.mono fun n hn => ?_
  obtain ⟨pos, free⟩ := hn
  exact ⟨pos, not_or.1 free⟩

theorem vacant_nth (taken : List Json) (i : Nat) : Vacant taken (Nat.nth (Vacant taken) i) :=
  Nat.nth_mem_of_infinite (infinite_vacant taken) i

theorem vacantWord_injective (taken : List Json) : Function.Injective (vacantWord taken) :=
  nthWord_injective.comp (Nat.nth_injective (infinite_vacant taken))

theorem vacant_append_iff {taken : List Json} {k n : Nat} :
    Vacant (taken ++ (List.range k).map fun i => .str (vacantWord taken i)) n ↔
      Vacant taken n ∧ ∀ i < k, n ≠ Nat.nth (Vacant taken) i := by
  have other : (∀ i < k, vacantWord taken i ≠ nthWord n) ↔
      ∀ i < k, n ≠ Nat.nth (Vacant taken) i := by
    refine forall₂_congr fun i _ => ?_
    rw [vacantWord, nthWord_injective.ne_iff, ne_comm]
  simp only [Vacant, List.mem_append, not_or, List.mem_map, List.mem_range, not_exists, not_and,
    ← other]
  simp [and_assoc]

theorem unusedAmong_vacantWords {taken : List Json} {k : Nat} {name : Text}
    (h : unusedAmong (taken ++ (List.range k).map fun i => .str (vacantWord taken i)) = .ok name) :
    name = vacantWord taken k := by
  have infinite := infinite_vacant taken
  obtain ⟨n, rfl, vacant, least⟩ := unusedAmong_least h
  rw [vacant_append_iff] at vacant
  obtain ⟨i, -, hi⟩ := Nat.exists_lt_card_nth_eq vacant.1
  have late : k ≤ i := by
    by_contra early
    exact vacant.2 i (by omega) hi.symm
  have upper : ¬Nat.nth (Vacant taken) k < n := by
    intro lt
    refine least _ lt (vacant_append_iff.2 ⟨vacant_nth taken k, fun j hj => ?_⟩)
    exact ((Nat.nth_lt_nth infinite).2 hj).ne'
  have lower : Nat.nth (Vacant taken) k ≤ n := by
    rw [← hi]
    exact (Nat.nth_le_nth infinite).2 late
  rw [vacantWord, Nat.le_antisymm lower (Nat.not_lt.1 upper)]

end Reannotate
