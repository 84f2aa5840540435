import Mathlib.Data.List.Nodup
import Reannotate.Proofs.Documents
import Reannotate.Proofs.Ending
import Reannotate.TypeScript.Document

/-!
# Fields of nodes

The document of a node has no object with two fields of one name (`Node.distinct_toJson`).
-/

namespace Reannotate

namespace TypeScript

open Json (Distinct)

theorem distinct_scalar (s : Scalar) : Distinct (.scalar s) := .scalar trivial

theorem distinct_array {js : List Json} (h : ∀ j ∈ js, j.Distinct) : Distinct (.array js) := .array h

theorem distinct_tagged {type : Text} {fields : List (Text × Json)} (names : List String)
    (same : fields.map Prod.fst = names.map Text.ofString) (nodup : ("type" :: names).Nodup)
    (values : ∀ f ∈ fields, f.2.Distinct) : (tagged type fields).Distinct := by
  refine .object ?_ (List.forall_mem_cons.2 ⟨distinct_scalar _, values⟩)
  rw [List.map_cons, same]
  exact List.Nodup.map (fun _ _ => Text.ofString_inj.1) nodup

theorem distinct_identifier (name : Scalar) : (identifier name).Distinct := by
  refine distinct_tagged ["name"] rfl (by decide) ?_
  simp [distinct_scalar]

theorem distinct_identifierWith (name : Scalar) {field : String} {j : Json}
    (nodup : ["type", "name", field].Nodup) (h : j.Distinct) :
    (identifierWith name [(field, j)]).Distinct := by
  refine distinct_tagged ["name", field] rfl nodup ?_
  simp [distinct_scalar, h]

theorem Comment.distinct_toJson (c : Comment) : c.toJson.Distinct := by
  refine distinct_tagged ["value"] rfl (by decide) ?_
  simp [distinct_scalar]

theorem PropertyKey.distinct_toJson (k : PropertyKey) : k.toJson.Distinct := by
  unfold PropertyKey.toJson
  split
  · refine distinct_tagged ["value"] rfl (by decide) ?_
    simp [distinct_scalar]
  · exact distinct_identifier _

theorem EntityName.distinct_toJson (n : EntityName) : n.toJson.Distinct := by
  cases n with
  | plain n => exact distinct_identifier _
  | qualified l r =>
    refine distinct_tagged ["left", "right"] rfl (by decide) ?_
    simp [distinct_identifier]

theorem distinct_slotType {j : Json} (h : j.Distinct) : (slotType j).Distinct := by
  refine distinct_tagged ["typeAnnotation"] rfl (by decide) ?_
  simp [h]

theorem Comments.fields_distinct (c : Comments) : (∀ f ∈ c.fields, f.2.Distinct) ∧
    ∃ names : List String, c.fields.map Prod.fst = names.map Text.ofString ∧
      names.Sublist ["leadingComments", "innerComments", "trailingComments"] := by
  have list : ∀ (name : String) (cs : List Comment), (∀ f ∈ commentsField name cs, f.2.Distinct) ∧
      ∃ names : List String, (commentsField name cs).map Prod.fst = names.map Text.ofString ∧
        names.Sublist [name] := by
    intro name cs
    unfold commentsField
    split
    · exact ⟨List.forall_mem_nil _, [], rfl, List.nil_sublist _⟩
    · refine ⟨List.forall_mem_singleton.2 (distinct_array ?_), [name], rfl, List.Sublist.refl _⟩
      simp [Comment.distinct_toJson]
  obtain ⟨leading, ls, hls, lsub⟩ := list "leadingComments" c.leading
  obtain ⟨inner, is, his, isub⟩ := list "innerComments" c.inner
  obtain ⟨trailing, ts, hts, tsub⟩ := list "trailingComments" c.trailing
  refine ⟨?_, ls ++ is ++ ts, ?_, (lsub.append isub).append tsub⟩
  · intro f hf
    rcases List.mem_append.1 hf with hf | hf
    · exact (List.mem_append.1 hf).elim (leading f) (inner f)
    · exact trailing f hf
  · rw [Comments.fields, List.map_append, List.map_append, hls, his, hts, List.map_append,
      List.map_append]

mutual

theorem Node.distinct_toJson : ∀ n : Node, Yields n.toJson Distinct fun _ => True
  | .bare _ => trivial
  | .hole => trivial
  | .keyword n => by
    unfold Node.toJson
    refine (yields_self _).bind fun tag _ => ?_
    exact distinct_tagged [] rfl (by decide) (List.forall_mem_nil _)
  | .this => distinct_tagged [] rfl (by decide) (List.forall_mem_nil _)
  | .literal v => by
    have literal : (tagged (literalTag v) [("value", .scalar v)]).Distinct := by
      refine distinct_tagged ["value"] rfl (by decide) ?_
      simp [distinct_scalar]
    refine distinct_tagged ["literal"] rfl (by decide) ?_
    simp [literal]
  | .reference n as => by
    unfold Node.toJson
    refine (distinct_jsonMany _ as).bind fun args hargs => ?_
    refine distinct_tagged ["typeName", "typeParameters"] rfl (by decide) ?_
    simp [hargs, n.distinct_toJson]
  | .operator o t => by
    unfold Node.toJson
    refine (Node.distinct_toJson t).bind fun type htype => ?_
    refine distinct_tagged ["operator", "typeAnnotation"] rfl (by decide) ?_
    simp [htype, distinct_scalar]
  | .access o i => by
    unfold Node.toJson
    refine (Node.distinct_toJson o).bind fun object hobject => ?_
    refine (Node.distinct_toJson i).bind fun index hindex => ?_
    refine distinct_tagged ["objectType", "indexType"] rfl (by decide) ?_
    simp [hobject, hindex]
  | .array e => by
    unfold Node.toJson
    refine (Node.distinct_toJson e).bind fun element helement => ?_
    refine distinct_tagged ["elementType"] rfl (by decide) ?_
    simp [helement]
  | .group g ts => by
    unfold Node.toJson
    refine (distinct_jsonEach ts).bind fun types htypes => ?_
    refine distinct_tagged [groupField g] rfl (by cases g <;> decide) ?_
    simp [distinct_array htypes]
  | .property k t o r c => by
    unfold Node.toJson
    refine (distinct_jsonSlot t).bind fun type htype => ?_
    obtain ⟨values, names, same, sublist⟩ := c.fields_distinct
    refine distinct_tagged (["key", "computed", "optional", "readonly", "typeAnnotation"] ++ names)
      (congrArg (_ :: _ :: _ :: _ :: _ :: ·) same) ?_ ?_
    · refine List.Nodup.sublist (List.Sublist.append_left sublist
        ["type", "key", "computed", "optional", "readonly", "typeAnnotation"]) (by decide)
    · simpa [k.distinct_toJson, distinct_scalar, htype] using values
  | .index n k t => by
    unfold Node.toJson
    refine (distinct_jsonSlot k).bind fun key hkey => ?_
    refine (distinct_jsonSlot t).bind fun type htype => ?_
    refine distinct_tagged ["parameters", "typeAnnotation"] rfl (by decide) ?_
    have parameters : Distinct (.array [identifierWith n [("typeAnnotation", key)]]) :=
      distinct_array (List.forall_mem_singleton.2 (distinct_identifierWith n (by decide) hkey))
    simp [parameters, htype]
  | .object ms => by
    unfold Node.toJson
    refine (distinct_jsonEach ms).bind fun members hmembers => ?_
    refine distinct_tagged ["members"] rfl (by decide) ?_
    simp [distinct_array hmembers]
  | .typeParameter n c d => by
    unfold Node.toJson
    refine (distinct_jsonMaybe c).bind fun constraint hconstraint => ?_
    refine (distinct_jsonMaybe d).bind fun default hdefault => ?_
    refine distinct_tagged ["name", "constraint", "default"] rfl (by decide) ?_
    simp [distinct_scalar, hconstraint, hdefault]
  | .parameter n t o => by
    unfold Node.toJson
    refine (distinct_jsonSlot t).bind fun type htype => ?_
    refine distinct_tagged ["name", "optional", "typeAnnotation"] rfl (by decide) ?_
    simp [distinct_scalar, htype]
  | .rest n t => by
    unfold Node.toJson
    refine (distinct_jsonSlot t).bind fun type htype => ?_
    refine distinct_tagged ["argument", "typeAnnotation"] rfl (by decide) ?_
    simp [distinct_identifier, htype]
  | .function ts ps r => by
    unfold Node.toJson
    refine (distinct_jsonMany _ ts).bind fun typeParams htypeParams => ?_
    refine (distinct_jsonEach ps).bind fun params hparams => ?_
    refine (distinct_jsonSlot r).bind fun result hresult => ?_
    refine distinct_tagged ["typeParameters", "parameters", "typeAnnotation"] rfl (by decide) ?_
    simp [htypeParams, distinct_array hparams, hresult]

theorem distinct_jsonEach : ∀ ns : List Node,
    Yields (jsonEach ns) (fun js => ∀ j ∈ js, j.Distinct) fun _ => True
  | [] => yields_ok.2 (List.forall_mem_nil _)
  | n :: ns => by
    unfold jsonEach
    refine (Node.distinct_toJson n).bind fun j hj => ?_
    refine (distinct_jsonEach ns).bind fun js hjs => ?_
    exact List.forall_mem_cons.2 ⟨hj, hjs⟩

theorem distinct_jsonMaybe : ∀ o : Option Node, Yields (jsonMaybe o) Distinct fun _ => True
  | none => distinct_scalar _
  | some n => Node.distinct_toJson n

theorem distinct_jsonSlot : ∀ o : Option Node, Yields (jsonSlot o) Distinct fun _ => True
  | none => distinct_scalar _
  | some n => (Node.distinct_toJson n).bind fun _ hj => distinct_slotType hj

theorem distinct_jsonMany (type : String) : ∀ o : Option (List Node),
    Yields (jsonMany type o) Distinct fun _ => True
  | none => distinct_scalar _
  | some ns => by
    unfold jsonMany
    refine (distinct_jsonEach ns).bind fun js hjs => ?_
    refine distinct_tagged ["params"] rfl (by decide) ?_
    simp [distinct_array hjs]

end

end TypeScript

end Reannotate
