import Reannotate.Command.Folder

/-!
# What is written can be read

A text that was written to a file of a folder is what the file then holds, and no other file of the
folder has changed (`read_write`, `read_write_other`). A new file may make no folder out of a name
that was none, or other names would lead to other places than before.
-/

namespace Reannotate.Command.Folder

variable {f g : Folder} {path p q : List Text} {text : Text}

/-! ## Paths -/

theorem isFolder_iff : f.isFolder p = true ↔
    p = [] ∨ ∃ q ∈ f.files.map Prod.fst, p.length < q.length ∧ p <+: q := by
  simp [isFolder]

theorem isFolder_nil : f.isFolder [] = true := rfl

theorem isFolder_of_isPrefix (h : p <+: q) (hq : f.isFolder q = true) : f.isFolder p = true := by
  rw [isFolder_iff] at hq ⊢
  rcases hq with rfl | ⟨r, hr, longer, isPrefix⟩
  · exact .inl (List.prefix_nil.1 h)
  · exact .inr ⟨r, hr, Nat.lt_of_le_of_lt h.length_le longer, h.trans isPrefix⟩

theorem mem_paths_put : ∀ {files : List (List Text × Option Text)},
    p ∈ (put path text files).map Prod.fst ↔ p ∈ files.map Prod.fst ∨ p = path
  | [] => by simp [put]
  | (q, old) :: rest => by
    unfold put
    split
    · next same => simp [same, or_comm]
    · simp [mem_paths_put, or_assoc]

theorem lookup_cons_eq {α β : Type} [BEq α] [LawfulBEq α] [DecidableEq α] (a k : α) (v : β)
    (l : List (α × β)) : ((k, v) :: l).lookup a = if a = k then some v else l.lookup a := by
  by_cases h : a = k
  · simp [h]
  · rw [List.lookup_cons, beq_false_of_ne h, if_neg h]

theorem lookup_put : ∀ {files : List (List Text × Option Text)},
    (put path text files).lookup p = if p = path then some (some text) else files.lookup p
  | [] => lookup_cons_eq _ _ _ _
  | (q, old) :: rest => by
    unfold put
    by_cases same : q = path
    · rw [if_pos same, lookup_cons_eq, lookup_cons_eq, same]
      split <;> rfl
    · rw [if_neg same, lookup_cons_eq, lookup_cons_eq, lookup_put]
      by_cases h : p = q
      · rw [if_pos h, if_neg fun e => same (h.symm.trans e), if_pos h]
      · rw [if_neg h, if_neg h]

/-- A file in a folder that is there makes no folder of anything else. -/
theorem isFolder_put (h : f.isFolder path.dropLast = true) (p : List Text) :
    isFolder ⟨put path text f.files⟩ p = f.isFolder p := by
  rw [Bool.eq_iff_iff]
  constructor
  · intro hp
    rcases isFolder_iff.1 hp with rfl | ⟨q, hq, longer, isPrefix⟩
    · rfl
    · rcases mem_paths_put.1 hq with hq | rfl
      · exact isFolder_iff.2 (.inr ⟨q, hq, longer, isPrefix⟩)
      · refine isFolder_of_isPrefix ?_ h
        refine List.prefix_of_prefix_length_le isPrefix (List.dropLast_prefix q) ?_
        rw [List.length_dropLast]
        omega
  · intro hp
    rcases isFolder_iff.1 hp with rfl | ⟨q, hq, longer, isPrefix⟩
    · rfl
    · exact isFolder_iff.2 (.inr ⟨q, mem_paths_put.2 (.inl hq), longer, isPrefix⟩)

/-! ## Names -/

theorem isFolder_of_follow {here parts : List Text} (h : f.follow here parts = .ok (.file path))
    (folder : f.isFolder here = true) : f.isFolder path.dropLast = true := by
  induction parts generalizing here with
  | nil => cases h
  | cons part rest ih =>
    simp only [follow] at h
    split at h
    · split at h
      · cases h
      · exact ih h (isFolder_of_isPrefix (List.dropLast_prefix here) folder)
    · split at h
      · cases h
      · split at h
        · exact ih h ‹_›
        · split at h
          · cases h
            rwa [List.dropLast_concat]
          · cases h

theorem follow_congr (same : ∀ p, g.isFolder p = f.isFolder p) {here parts : List Text} :
    (g.follow here parts).toOption = (f.follow here parts).toOption := by
  induction parts generalizing here with
  | nil => rfl
  | cons part rest ih =>
    simp only [follow, same]
    split
    · split
      · rfl
      · exact ih
    · split
      · rfl
      · split
        · exact ih
        · split <;> rfl

theorem target_congr (same : ∀ p, g.isFolder p = f.isFolder p) (name : Text) :
    (g.target name).toOption = (f.target name).toOption := by
  simp only [target]
  split
  · rfl
  · split
    · rfl
    · split
      · rfl
      · exact follow_congr same

theorem isFolder_of_target {name : Text} (h : f.target name = .ok (.file path)) :
    f.isFolder path.dropLast = true := by
  simp only [target] at h
  split at h
  · cases h
  · split at h
    · cases h
    · split at h
      · cases h
      · exact isFolder_of_follow h isFolder_nil

theorem read_eq (f : Folder) (name : Text) : f.read name = match (f.target name).toOption with
    | some (.file path) => (f.files.lookup path).join
    | some .nothing => some []
    | none => none := by
  unfold read
  split <;> next h => simp [h, Except.toOption]

/-! ## Reading what was written -/

theorem read_write {name : Text} (h : f.write name text = .ok g)
    (file : f.target name = .ok (.file path)) : g.read name = some text := by
  rw [write, file] at h
  cases h
  rw [read_eq, target_congr (isFolder_put (isFolder_of_target file)), file]
  simp [Except.toOption, lookup_put]

theorem read_write_other {name other : Text} (h : f.write name text = .ok g)
    (apart : (f.target other).toOption ≠ (f.target name).toOption) :
    g.read other = f.read other := by
  unfold write at h
  split at h
  · next path file =>
    cases h
    rw [file] at apart
    rw [read_eq, read_eq, target_congr (isFolder_put (isFolder_of_target file))]
    split
    · next q hq =>
      have differs : q ≠ path := fun same => apart (by rw [hq, same]; rfl)
      simp [lookup_put, differs]
    · rfl
    · rfl
  · cases h
    rfl
  · cases h

end Reannotate.Command.Folder
