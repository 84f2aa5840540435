import Reannotate.Proofs.Abreast

/-!
# Names of types and trees

To convert a tree with names of types of one's own is to rename the types in the tree first, and to
convert what comes of it with the names as they are (`resolving_eq_renaming`). So only the plain
names of generic types get new names, and each of them once.
-/

namespace Reannotate

open Reannotate.Flow (Phrase TypeName Change)
open Reannotate.TypeScript (Node)

namespace Flow

/-- Utility types and qualified names keep their names. -/
def TypeName.renamed (r : Text → Text) : TypeName → TypeName
  | .plain s name => .plain s (if Utility.ofName? name = none then r name else name)
  | .qualified s q i => .qualified s q i

def Change.renaming (r : Text → Text) : Change :=
  { Change.keep with generic := TypeName.renamed r }

def Phrase.renamed (r : Text → Text) (p : Phrase) : Phrase :=
  p.changed (.renaming r)

end Flow

def Names.resolving (r : Text → Text)
    (fresh : List (List Json) → List Json → Except Fault Text) : Names :=
  ⟨fun name => .ok (r name), fresh⟩

namespace Converting

section
variable {r : Text → Text}
  (hr : ∀ name, Utility.ofName? name = none → Utility.ofName? (r name) = none)
  (fresh : List (List Json) → List Json → Except Fault Text)
include hr

theorem abreast_reference_renamed (p q : Phrase) (name : TypeName) (args : Option (List Node)) :
    Abreast Eq (reference (.resolving r fresh) p name args)
      (reference (.resolving id fresh) q (name.renamed r) args) := by
  have warns : ∀ w, Abreast Eq (warn w) (warn w) := by
    rintro w log _ rfl
    exact ⟨.ok (), rfl⟩
  cases name with
  | plain s name =>
    cases hu : Utility.ofName? name with
    | some u =>
      simp only [reference, TypeName.renamed, hu, reduceCtorEq, if_false]
      exact abreast_apply warns u _ _ args
    | none =>
      simp only [reference, TypeName.renamed, hu, hr name hu, if_true]
      exact abreast_referTo p q (r name) args
  | qualified s left right =>
    cases left with
    | plain _ left =>
      cases right with
      | plain _ right => exact abreast_pure _
      | qualified _ _ _ => exact abreast_throw _
    | qualified _ _ _ => exact abreast_refuse _ _ _ _

theorem tolerates_renaming : Tolerates Eq (.resolving r fresh)
    (.resolving id fresh) (.renaming r) where
  warn w := by
    rintro log _ rfl
    exact ⟨.ok (), rfl⟩
  ask used := by
    rintro log _ rfl
    rw [outcome_askName, outcome_askName]
    exact ⟨SameEnd.refl _, rfl⟩
  exactness x := by
    rintro log _ rfl
    exact ⟨SameEnd.refl _, rfl⟩
  reference := abreast_reference_renamed hr fresh
  kind n := rfl
  plus w := Iff.rfl

end

end Converting

open Converting

/-- With names of types from `r`, a tree is converted as the renamed tree is with the names as they
are: with the same result, or a refusal of the same kind and message, and with the same warnings and
requests for names. -/
theorem resolving_eq_renaming {r : Text → Text}
    (hr : ∀ name, Utility.ofName? name = none → Utility.ofName? (r name) = none)
    (fresh : List (List Json) → List Json → Except Fault Text) (p : Phrase) (log : Log) :
    (∀ role,
      let own := (convert (.resolving r fresh) p role).outcome log
      let same := (convert (.resolving id fresh) (p.renamed r) role).outcome log
      SameEnd own.1 same.1 ∧ own.2 = same.2) ∧
      let own := (convertSignature (.resolving r fresh) p).outcome log
      let same := (convertSignature (.resolving id fresh) (p.renamed r)).outcome log
      SameEnd own.1 same.1 ∧ own.2 = same.2 := by
  have tolerates := tolerates_renaming hr fresh
  constructor
  · intro role
    exact tolerates.abreast_convert p role log log rfl
  · exact tolerates.abreast_convertSignature p log log rfl

/-- `$ReadOnly<Node> | lib.Node<*> | (Node) => A`. -/
def mixedReferences : Phrase :=
  let node : Phrase := .generic none (.plain none "Node") none
  .group none .union [
    .generic none (.plain none Utility.readOnly.name) (some [node]),
    .generic none (.qualified none (.plain none "lib") (.plain none "Node"))
      (some [.primitive none .exists]),
    .callable none .ofType [.parameter none .ofType .null (some node) false]
      (some (.generic none (.plain none "A") none)) none none]

theorem resolving_eq_renaming_mixed :
    (∀ name, Utility.ofName? name = none → Utility.ofName? ("React." ++ name) = none) ∧
    ∃ node, (convert (.resolving ("React." ++ ·) Names.usual.fresh) mixedReferences .other).outcome
        .empty = (.ok node, ⟨[.existential], [[]]⟩) ∧
      (convert (.resolving id Names.usual.fresh) (mixedReferences.renamed ("React." ++ ·))
        .other).outcome .empty = (.ok node, ⟨[.existential], [[]]⟩) := by
  have dotted : ∀ name, Utility.ofName? name = none →
      Utility.ofName? ("React." ++ name) = none := by
    intro name _
    apply List.find?_eq_none.2
    intro u _ same
    have first := congrArg List.head? (of_decide_eq_true same)
    cases u <;> simp [Utility.name, Text.ofString, Text.ofChars] at first
  have both := (resolving_eq_renaming dotted Names.usual.fresh mixedReferences .empty).1 .other
  obtain ⟨node, hnode⟩ : ∃ node, (convert (.resolving ("React." ++ ·) Names.usual.fresh)
      mixedReferences .other).outcome .empty = (.ok node, ⟨[.existential], [[]]⟩) := ⟨_, rfl⟩
  refine ⟨dotted, node, hnode, ?_⟩
  obtain ⟨ends, logs⟩ := both
  rw [hnode] at ends logs
  refine Prod.ext ?_ logs.symm
  generalize (Prod.fst _ : Except Fault Node) = y at ends ⊢
  cases ends
  rfl

end Reannotate
