import Mathlib.Data.List.Forall2
import Reannotate.Proofs.Acceptance
import Reannotate.Proofs.Ending
import Reannotate.Proofs.Likeness

/-!
# What readers have found

If a reader has a result, then each of its look-ups has found what is in the document: the field
itself, if it is required, the field that is not null (`present`), or the items of an array, since
nothing else is accepted as a list of nodes (`OnItems`).
-/

namespace Reannotate.Flow

open Json (Inner required flag field? get? isNull_iff present items holds)

abbrev Reads (entry : Json) (p : Phrase) : Prop := read entry = .ok p

namespace Reader

/-! ## Look-ups -/

section
variable {α : Type} {node : Json} {name : String}

theorem required_eq_ok {part : Inner node} (h : required name node = .ok part) :
    node.get? name = some part.1 := by
  unfold required at h
  split at h
  · rename_i hf
    cases h
    exact Json.get?_of_field? hf
  · cases h

theorem map_filter (o : Option (Inner node)) :
    (o.filter fun part => !part.1.isNull).map (·.1) = present (o.map (·.1)) := by
  rcases o with _ | part
  · rfl
  · rw [Option.filter_some, Option.map_some, present]
    cases part.1.isNull <;> rfl

theorem optional_eq_ok {found : Option (Inner node)} (h : Json.optional name node = .ok found) :
    found.map (·.1) = present (node.get? name) := by
  unfold Json.optional at h
  split at h
  · cases h
    rw [map_filter, Json.map_field?]
  · cases h

theorem any_optional {found : Option (Inner node)} (h : Json.optional name node = .ok found)
    (p : Json → Bool) : (found.any fun part => p part.1) = (present (node.get? name)).any p := by
  rw [← optional_eq_ok h]
  cases found <;> rfl

theorem items_present (found : Option Json) : items (present found) = items found := by
  rcases found with _ | j
  · rfl
  · show items (if j.isNull then none else some j) = _
    split
    · rename_i hn
      rw [Json.isNull_iff.1 hn]
      rfl
    · rfl

theorem bind_get?_present (name : String) (found : Option Json) :
    (present found).bind (get? name) = found.bind (get? name) := by
  rcases found with _ | j
  · rfl
  · show (if j.isNull then none else some j).bind (get? name) = _
    split
    · rename_i hn
      rw [isNull_iff.1 hn]
      rfl
    · rfl

theorem flag_eq_holds (name : String) (node : Json) : flag name node = holds (node.get? name) := by
  unfold flag
  cases h : field? name node with
  | none => rw [Json.field?_eq_none_iff.1 h, holds]
  | some part => rw [Json.get?_of_field? h, holds]

/-- `F` is `f` on the items of what was found, if it has a result at all. -/
def OnItems (F : Option (Inner node) → Except Fault α) (f : List (Inner node) → Except Fault α) :
    Prop :=
  ∀ found a, F found = .ok a → ∃ parts, parts.map (·.1) = items (found.map (·.1)) ∧ f parts = .ok a

theorem onItems_members {F : Option (Inner node) → Except Fault α}
    {f : List (Inner node) → Except Fault α} (hnone : F none = f [])
    (hsome : ∀ outer, F (some outer) = outer.members >>= f)
    (hf : ∀ parts, Accepts (f parts) → ∀ part ∈ parts, part.1.isObject = true) : OnItems F f := by
  intro found a h
  cases found with
  | none => exact ⟨[], rfl, hnone ▸ h⟩
  | some outer =>
    rw [hsome] at h
    cases hm : outer.members with
    | error e =>
      rw [hm] at h
      cases h
    | ok parts =>
      rw [hm] at h
      refine ⟨parts, ?_, h⟩
      by_cases array : ∃ js, outer.1 = .array js
      · obtain ⟨js, hjs⟩ := array
        obtain ⟨parts', hm', hp⟩ := members_array hjs
        cases hm.symm.trans hm'
        rw [hp, Option.map_some, hjs]
        rfl
      · have others : ∀ js, outer.1 ≠ .array js := fun js hjs => array ⟨js, hjs⟩
        have none : items ((some outer).map (·.1)) = [] := by
          rw [Option.map_some]
          unfold items
          split
          · rename_i js hjs
            exact absurd (Option.some.inj hjs) (others js)
          · rfl
        rw [none, List.map_eq_nil_iff]
        by_cases ht : outer.1.truthy = true
        · obtain ⟨part, hpart, ho⟩ := members_others others ht hm
          cases ho.symm.trans (hf parts ⟨a, h⟩ part hpart)
        · cases hm.symm.trans (members_false (Bool.eq_false_of_not_eq_true ht))
          rfl

theorem exists_items {a : α} {F : Option (Inner node) → Except Fault α}
    {f : List (Inner node) → Except Fault α} (h : (Json.optional name node >>= F) = .ok a)
    (onItems : OnItems F f) :
    ∃ parts, parts.map (·.1) = items (node.get? name) ∧ f parts = .ok a := by
  obtain ⟨found, hfound, h⟩ := exists_of_bind h
  rw [← items_present, ← optional_eq_ok hfound]
  exact onItems found a h

theorem forall₂_of_onItems {α : Type} {f : Json → Except Fault α}
    {F : Option (Inner node) → Except Fault (List α)} {as : List α}
    (onItems : OnItems F fun parts => parts.mapM fun part => f part.1)
    (h : (Json.optional name node >>= F) = .ok as) :
    List.Forall₂ (fun j a => f j = .ok a) (items (node.get? name)) as := by
  obtain ⟨parts, hparts, h⟩ := exists_items h onItems
  rw [← hparts, List.forall₂_map_left_iff]
  exact forall₂_of_mapM h

/-! ## Fields -/

def varianceKind (found : Option Json) : Json :=
  ((present found).bind (get? "kind")).getD .null

theorem eq_varianceKind {kind : Json} (h : readVariance node = .ok kind) :
    kind = varianceKind (node.get? "variance") := by
  obtain ⟨found, hfound, h⟩ := exists_of_bind h
  rw [varianceKind, ← optional_eq_ok hfound]
  cases found with
  | none =>
    cases h
    rfl
  | some v =>
    obtain ⟨kind, hkind, h⟩ := exists_of_bind h
    cases h
    rw [Option.map_some, Option.bind_some, required_eq_ok hkind, Option.getD_some]

theorem isObject_of_accepts {j : Json} (h : Accepts (read j)) : j.isObject = true := by
  obtain ⟨kind, ht, -⟩ := (accepts_read j).1 h
  exact ht.isObject

theorem isObject_of_comments {node : Json} {parts : List (Inner node)}
    (h : Accepts (parts.mapM fun c => readComment c.1)) :
    ∀ part ∈ parts, part.1.isObject = true := by
  intro part hpart
  have value := (accepts_readComment part.1).1 (accepts_mapM.1 h part hpart)
  obtain ⟨value, hv⟩ := Option.isSome_iff_exists.1 value
  exact Json.isObject_of_get? hv

theorem onItems_readMembers (node : Json) :
    OnItems (readMembers (reading node)) (readAll (reading node)) := by
  refine onItems_members rfl (fun outer => rfl) fun parts hp part hpart => ?_
  exact isObject_of_accepts (accepts_mapM.1 hp part hpart)

theorem isObject_of_declared {node : Json} {params : List (Inner node)} {done : Declared}
    (h : Accepts (params.foldlM (readDeclaredParam (reading node)) done)) :
    ∀ param ∈ params, param.1.isObject = true := by
  intro param hparam
  have each : ∀ part, Accepts (reading node part) ↔ Accepts (read part.1) := fun _ => Iff.rfl
  have declared := accepts_readDeclaredParam (G := fun j => Accepts (read j)) each
  exact isObject_of_accepts ((accepts_foldlM declared).1 h param hparam).2

theorem readList_inv {ps : List Phrase} (h : readList (reading node) name = .ok ps) :
    List.Forall₂ Reads (items (node.get? name)) ps :=
  forall₂_of_onItems (onItems_readMembers node) h

theorem readObject_inv {p : Phrase} (h : readObject (reading node) = .ok p) :
    ∃ ps is cs x, p = .object none ps is cs x ∧
      List.Forall₂ Reads (items (node.get? "properties")) ps ∧
      List.Forall₂ Reads (items (node.get? "indexers")) is ∧
      List.Forall₂ Reads (items (node.get? "callProperties")) cs := by
  obtain ⟨ps, hps, h⟩ := exists_of_bind h
  obtain ⟨is, his, h⟩ := exists_of_bind h
  obtain ⟨cs, hcs, h⟩ := exists_of_bind h
  cases h
  exact ⟨ps, is, cs, _, rfl, readList_inv hps, readList_inv his, readList_inv hcs⟩

theorem readChild_inv {p : Phrase} (h : readChild (reading node) name = .ok p) :
    ∃ j, node.get? name = some j ∧ Reads j p := by
  obtain ⟨part, hpart, h⟩ := exists_of_bind h
  exact ⟨part.1, required_eq_ok hpart, h⟩

theorem readName_inv {j : Json} (h : readName node name = .ok j) :
    j = ((present (node.get? name)).bind (Json.get? "name")).getD .null := by
  obtain ⟨found, hfound, h⟩ := exists_of_bind h
  rw [← optional_eq_ok hfound]
  cases found with
  | none =>
    cases h
    rfl
  | some id =>
    obtain ⟨text, htext, h⟩ := exists_of_bind h
    cases h
    rw [Option.map_some, Option.bind_some, required_eq_ok htext, Option.getD_some]

def restType (node argument : Json) : Option Json :=
  if node.flag "typeAnnotation" then node.get? "typeAnnotation" else argument.get? "typeAnnotation"

theorem map_chosen {node : Json} (argument : Inner node) :
    let own := field? "typeAnnotation" node
    let inner := (field? "typeAnnotation" argument.1).map argument.within
    ((if own.any fun t => t.1.truthy then own else inner).filter fun t => !t.1.isNull).map (·.1) =
      present (restType node argument.1) := by
  intro own inner
  have hown : (own.any fun t => t.1.truthy) = node.flag "typeAnnotation" := by
    unfold flag own
    cases field? "typeAnnotation" node <;> rfl
  have hinner : inner.map (·.1) = argument.1.get? "typeAnnotation" := by
    rw [← Json.map_field?, Option.map_map]
    rfl
  rw [map_filter, hown, restType]
  split
  · rw [Json.map_field?]
  · rw [hinner]

end

end Reader

open Reader

theorem read_inv {j : Json} {kind : String} {p : Phrase} (type : j.HasType kind) (h : Reads j p) :
    ∃ q, readNamed (reading j) kind = .ok q ∧ p = q.orSpan (span? j) := by
  unfold Reads at h
  rw [read_of_hasType type] at h
  obtain ⟨q, hq, h⟩ := exists_of_bind h
  cases h
  exact ⟨q, hq, rfl⟩

end Reannotate.Flow
