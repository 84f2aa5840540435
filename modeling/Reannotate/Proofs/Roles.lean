import Reannotate.Flow.Role

/-!
# Roles of parameters

`parameterRoles` goes from the last parameter to the first and carries along whether all so far may
be left off. So each parameter gets to know of those after it alone, not of itself
(`parameterRoles_forward`).
-/

namespace Reannotate.Flow

theorem rolesAndAll_cons (o : Bool) (flags : List Bool) :
    rolesAndAll (o :: flags) =
      (.parameter o (rolesAndAll flags).2 :: (rolesAndAll flags).1, (rolesAndAll flags).2 && o) :=
  rfl

theorem rolesAndAll_snd (flags : List Bool) : (rolesAndAll flags).2 = flags.all id := by
  induction flags with
  | nil => rfl
  | cons o flags ih => simp [rolesAndAll_cons, ih, Bool.and_comm]

theorem parameterRoles_cons (o : Bool) (flags : List Bool) :
    parameterRoles (o :: flags) = .parameter o (flags.all id) :: parameterRoles flags := by
  rw [parameterRoles, rolesAndAll_cons, rolesAndAll_snd, parameterRoles]

theorem length_parameterRoles (flags : List Bool) :
    (parameterRoles flags).length = flags.length := by
  induction flags with
  | nil => rfl
  | cons o flags ih => rw [parameterRoles_cons, List.length_cons, List.length_cons, ih]

theorem getElem?_parameterRoles (flags : List Bool) (i : Nat) :
    (parameterRoles flags)[i]? =
      flags[i]?.map fun o => .parameter o ((flags.drop (i + 1)).all id) := by
  induction flags generalizing i with
  | nil => rfl
  | cons o flags ih =>
    rw [parameterRoles_cons]
    cases i with
    | zero => rfl
    | succ i => exact ih i

/-- There is a role for each parameter in turn. It says whether the parameter may be left off, and
whether each one that comes later may be. -/
theorem parameterRoles_forward {α : Type} (optional : α → Bool) (ps : List α) :
    (parameterRoles (ps.map optional)).length = ps.length ∧
    ∀ i : Fin ps.length, ∃ later : Bool,
      (parameterRoles (ps.map optional))[i.val]? = some (.parameter (optional ps[i]) later) ∧
      (later = true ↔ ∀ j : Fin ps.length, i < j → optional ps[j] = true) := by
  refine ⟨by rw [length_parameterRoles, List.length_map], fun i => ?_⟩
  refine ⟨(ps.drop (i + 1)).all optional, ?_, ?_⟩
  · rw [getElem?_parameterRoles, ← List.map_drop, List.all_map]
    simp
  · rw [List.all_eq_true]
    constructor
    · intro all j hij
      apply all
      rw [List.mem_drop_iff_getElem]
      have after : i.val + 1 ≤ j.val := hij
      refine ⟨j - (i + 1), by omega, ?_⟩
      simp only [Nat.add_sub_cancel' after, Fin.getElem_fin]
    · intro all p hp
      obtain ⟨k, hk, rfl⟩ := List.mem_drop_iff_getElem.1 hp
      apply all ⟨i + 1 + k, by omega⟩
      rw [Fin.lt_def]
      simp only
      omega

example : parameterRoles [false, false, true, true] = [.parameter false false,
    .parameter false true, .parameter true true, .parameter true true] :=
  rfl

end Reannotate.Flow
