import Reannotate.Proofs.Signatures

/-!
# Distinct parameters

Generated names avoid the names of all parameters and each other. They do not avoid the name of the
rest parameter, so a signature whose own names are distinct has distinct ones after the conversion
if and only if that name is none of the generated ones (`names_distinct_iff`).
-/

namespace Reannotate

open Reannotate.Flow (Phrase Role)
open Reannotate.TypeScript (Node)
open Converting (convertCallable)

def TypeScript.Node.parameterName? : Node → Option Json
  | .parameter name _ _ | .rest name _ => some (.scalar name)
  | _ => none

def TypeScript.Node.parameterNames : Node → List Json
  | .function _ params _ => params.filterMap parameterName?
  | _ => []

section
variable {s : Option Flow.Span} {f : Flow.ParameterForm} {t : Option Phrase} {o : Bool}

theorem explicitNames_append (ps qs : List Phrase) :
    explicitNames (ps ++ qs) = explicitNames ps ++ explicitNames qs := by
  simp [explicitNames]

theorem explicitNames_named {name : Scalar} (hn : name ≠ .null) (ps : List Phrase) :
    explicitNames (.parameter s f (.scalar name) t o :: ps) = .scalar name :: explicitNames ps := by
  have told : ¬(Json.scalar name).isNull = true := by
    intro null
    exact hn (Json.scalar.inj (Json.isNull_iff.1 null))
  have kept : (!(Json.scalar name).isNull) = true := by simpa using told
  exact List.filter_cons_of_pos kept

theorem explicitNames_unnamed {p : Phrase} (h : Converting.nameOf p = .ok .null)
    (ps : List Phrase) :
    explicitNames (p :: ps) = explicitNames ps := by
  refine List.filter_cons_of_neg ?_
  simp [Phrase.ownName, h, Except.toOption, Json.isNull]

end

theorem ParamsMatch.names_perm {ps : List Phrase} {given : List Text} {ns : List Node}
    (h : ParamsMatch ps given ns) :
    (ns.filterMap Node.parameterName?).Perm (explicitNames ps ++ given.map .str) := by
  induction h with
  | nil => exact .refl _
  | named hn ht h ih =>
    rw [explicitNames_named hn]
    exact ih.cons _
  | unnamed ht h ih =>
    rw [explicitNames_unnamed rfl]
    exact (ih.cons _).trans List.perm_middle.symm

theorem RestMatches.names_eq {rest : Option Phrase} {last : List Node} (h : RestMatches rest last) :
    last.filterMap Node.parameterName? = explicitNames rest.toList := by
  cases h with
  | absent => rfl
  | unnamed h => exact (explicitNames_unnamed h []).symm
  | named hn ht => exact (explicitNames_named hn []).symm

theorem Outlined.names_perm {ps : List Phrase} {r rest : Option Phrase}
    {ts : Option (List Phrase)} {given : List Text} {node : Node}
    (h : Outlined ps r rest ts given node) :
    node.parameterNames.Perm (explicitNames (ps ++ rest.toList) ++ given.map .str) := by
  obtain ⟨typeParams, params, last, result, rfl, -, hp, hl, -⟩ := h
  have all : (Node.function typeParams (params ++ last) result).parameterNames =
      params.filterMap Node.parameterName? ++ explicitNames rest.toList := by
    rw [← hl.names_eq]
    exact List.filterMap_append
  rw [all, explicitNames_append, List.append_assoc]
  refine (hp.names_perm.append_right _).trans ?_
  rw [List.append_assoc]
  exact List.perm_append_comm.append_left _

theorem nodup_vacantWords (taken : List Json) (m : Nat) :
    (((List.range m).map (vacantWord taken)).map Json.str).Nodup := by
  rw [List.map_map]
  refine List.nodup_range.map fun i j h => ?_
  exact vacantWord_injective taken (Scalar.str.inj (Json.scalar.inj h))

theorem vacantWord_notMem (taken : List Json) (i : Nat) : .str (vacantWord taken i) ∉ taken :=
  (vacant_nth taken i).2.2

theorem names_distinct_iff {names : Names} {role : Role Bool} {s : Option Flow.Span}
    {form : Flow.CallableForm} {ps : List Phrase} {r rest : Option Phrase}
    {ts : Option (List Phrase)} {log after : Log} {node : Node}
    (usual : names.fresh = Names.usual.fresh)
    (distinct : (explicitNames (ps ++ rest.toList)).Nodup)
    (converted : (convertCallable names role (.callable s form ps r rest ts)).outcome log =
      (.ok node, after)) :
    node.parameterNames.Nodup ↔ ∀ i < ps.countP (fun p => !p.named),
      .str (vacantWord (explicitNames ps) i) ∉ explicitNames rest.toList := by
  rw [(convertCallable_outlined usual converted).names_perm.nodup_iff, List.nodup_append']
  have words := nodup_vacantWords (explicitNames ps) (ps.countP fun p => !p.named)
  constructor
  · rintro ⟨-, -, apart⟩ i hi hrest
    refine apart ?_ (List.mem_map_of_mem (List.mem_map_of_mem (List.mem_range.2 hi)))
    rw [explicitNames_append]
    exact List.mem_append_right _ hrest
  · intro avoids
    refine ⟨distinct, words, fun name told given => ?_⟩
    obtain ⟨word, hword, rfl⟩ := List.mem_map.1 given
    obtain ⟨i, hi, rfl⟩ := List.mem_map.1 hword
    rw [explicitNames_append] at told
    rcases List.mem_append.1 told with named | last
    · exact vacantWord_notMem _ i named
    · exact avoids i (List.mem_range.1 hi) last

theorem names_distinct_iff_apart :
    let ps : List Phrase :=
      [.parameter none .ofType (.str "a") none false, .parameter none .ofType .null none false]
    let rest : Option Phrase := some (.parameter none .ofType (.str "c") none false)
    let run := (convertCallable .usual .other (.callable none .ofType ps none rest none)).outcome
      .empty
    (explicitNames (ps ++ rest.toList)).Nodup ∧
      ∃ node, run.1 = .ok node ∧ node.parameterNames.Nodup := by
  intro ps rest run
  have distinct : (explicitNames (ps ++ rest.toList)).Nodup := by decide +kernel
  obtain ⟨node, converted⟩ : ∃ node, run.1 = .ok node := exists_ok (by decide +kernel)
  refine ⟨distinct, node, converted, ?_⟩
  refine (names_distinct_iff rfl distinct (Prod.ext converted rfl)).2 fun i hi => ?_
  obtain rfl : i = 0 := Nat.lt_one_iff.1 hi
  have first : unusedName [.str "a"] = "b" := by decide +kernel
  have word : "b" = vacantWord (explicitNames ps) 0 :=
    unusedAmong_vacantWords (congrArg Except.ok first)
  rw [← word]
  decide +kernel

/-- The type `(string, ...a: number) => void` becomes `(a: string, ...a: number) => void`. -/
theorem names_clash :
    let ps : List Phrase := [.parameter none .ofType .null (some (.primitive none .string)) false]
    let rest : Option Phrase :=
      some (.parameter none .ofType (.str "a") (some (.primitive none .number)) false)
    let run := (convertCallable .usual .other
      (.callable none .ofType ps (some (.primitive none .void)) rest none)).outcome .empty
    (explicitNames (ps ++ rest.toList)).Nodup ∧
      ∃ node, run.1 = .ok node ∧ ¬node.parameterNames.Nodup := by
  intro ps rest run
  have named : run.1.toOption.map Node.parameterNames = some [.str "a", .str "a"] := by
    decide +kernel
  obtain ⟨node, converted⟩ : ∃ node, run.1 = .ok node := exists_ok (by decide +kernel)
  refine ⟨by decide +kernel, node, converted, ?_⟩
  rw [converted] at named
  rw [show node.parameterNames = _ from Option.some.inj named]
  decide

end Reannotate
