import Reannotate.Proofs.Decoding
import Reannotate.Proofs.Sameness

/-!
# Recovering nodes

A proper node is made again of the document that is written for it (`Node.Proper.recovers`). So two
proper nodes have the same documents exactly if they are the same (`documents_same_iff`).
-/

namespace Reannotate

/-! ## Same documents -/

namespace Json

theorem Same.scalar_eq {s : Scalar} {k : Json} (h : (Json.scalar s).Same k) : k = .scalar s := by
  cases h
  rfl

theorem Same.exists_array {js : List Json} {k : Json} (h : (Json.array js).Same k) :
    ∃ ks, k = .array ks ∧ List.Forall₂ Same js ks := by
  cases h with
  | array h => exact ⟨_, rfl, h⟩

theorem Same.not_null {fs : List (Text × Json)} {k : Json} (h : (Json.object fs).Same k) :
    k.isNull = false := by
  cases h
  rfl

def At (k : Json) (name : String) (P : Json → Prop) : Prop :=
  ∃ part, field? name k = some part ∧ P part.1

section
variable {fs : List (Text × Json)} {k : Json} {name : String}

theorem field?_eq_none (h : fs.lookup (Text.ofString name) = none) :
    field? name (.object fs) = none := by
  dsimp only [field?]
  split
  · rename_i v hv
    cases h.symm.trans hv
  · rfl

theorem at_object {j : Json} {P : Json → Prop} (h : fs.lookup (Text.ofString name) = some j)
    (hj : P j) : (Json.object fs).At name P := by
  have found : ∃ part, field? name (.object fs) = some part ∧ part.1 = j := by
    dsimp only [field?]
    split
    · rename_i v hv
      cases h.symm.trans hv
      exact ⟨_, rfl, rfl⟩
    · rename_i hn
      cases h.symm.trans hn
  obtain ⟨part, hpart, rfl⟩ := found
  exact ⟨part, hpart, hj⟩

variable (same : (Json.object fs).Same k)
include same

theorem Same.at {j : Json} (h : fs.lookup (Text.ofString name) = some j) : k.At name j.Same := by
  cases same with
  | object hs =>
    have rel := hs (Text.ofString name)
    rw [h] at rel
    cases hk : List.lookup (Text.ofString name) _ with
    | none =>
      rw [hk] at rel
      cases rel
    | some v =>
      rw [hk] at rel
      cases rel with
      | some hv => exact at_object hk hv

theorem Same.absent (h : fs.lookup (Text.ofString name) = none) : field? name k = none := by
  cases same with
  | object hs =>
    have rel := hs (Text.ofString name)
    rw [h] at rel
    cases hk : List.lookup (Text.ofString name) _ with
    | none => exact field?_eq_none hk
    | some v =>
      rw [hk] at rel
      cases rel

end

theorem Inner.exists_items {whole : Json} {outer : Inner whole} {ks : List Json}
    (h : outer.1 = .array ks) : ∃ parts, outer.items? = some parts ∧ parts.map (·.1) = ks := by
  unfold Inner.items?
  split
  · rename_i items hi
    cases h.symm.trans hi
    refine ⟨_, rfl, ?_⟩
    rw [List.map_map]
    exact List.attach_map_subtype_val ks
  · rename_i hn
    exact absurd h (hn ks)

theorem At.exists_items {k : Json} {name : String} {js : List Json}
    (h : k.At name (Json.array js).Same) : ∃ part parts, field? name k = some part ∧
      part.items? = some parts ∧ List.Forall₂ Same js (parts.map (·.1)) := by
  obtain ⟨part, hpart, same⟩ := h
  obtain ⟨ks, hks, each⟩ := same.exists_array
  obtain ⟨parts, hparts, rfl⟩ := Inner.exists_items hks
  exact ⟨part, parts, hpart, hparts, each⟩

end Json

namespace TypeScript

open Json (Inner field?)

/-- The node is made of any document that is the same as `j`. -/
def Reads (j : Json) (n : Node) : Prop :=
  ∀ k, j.Same k → Node.ofJson? k = some n

def Node.Recovers (n : Node) : Prop :=
  ∃ fields, n.toJson = .ok (.object fields) ∧ Reads (.object fields) n

namespace Decoder

abbrev reader (k : Json) : Below k :=
  fun part => Node.ofJson? part.1

/-! ## Fields -/

theorem mapM_eq_some {α β γ δ : Type} {R : α → γ → Prop} {S : α → β → Prop} {f : δ → Option β}
    {g : δ → γ} (hf : ∀ a b d, R a (g d) → S a b → f d = some b) :
    ∀ {as : List α} {bs : List β} {ds : List δ}, List.Forall₂ R as (ds.map g) →
      List.Forall₂ S as bs → ds.mapM f = some bs
  | [], _, [], _, .nil => rfl
  | a :: as, b :: bs, d :: ds, .cons hr hrs, .cons hs hss => by
    rw [List.mapM_cons, hf a b d hr hs, mapM_eq_some hf hrs hss]
    rfl

section
variable {k : Json} {name : String}

theorem inField_eq {α : Type} {read : Json → Option α} {a : α} {j : Json} (h : k.At name j.Same)
    (hr : ∀ l, j.Same l → read l = some a) : inField name read k = some a := by
  obtain ⟨part, hpart, same⟩ := h
  rw [inField, hpart]
  exact hr part.1 same

theorem inField_scalar {α : Type} {read : Json → Option α} {a : α} {s : Scalar}
    (h : k.At name (Json.scalar s).Same) (hr : read (.scalar s) = some a) :
    inField name read k = some a := by
  refine inField_eq h fun l same => ?_
  rw [same.scalar_eq, hr]

theorem textAt_eq {s : Text} (h : k.At name (Json.str s).Same) : textAt name k = some s :=
  inField_scalar h rfl

theorem boolAt_eq {b : Bool} (h : k.At name (Json.bool b).Same) : boolAt name k = some b :=
  inField_scalar h rfl

theorem tag?_eq {tag : String} {fs : List (Text × Json)} (h : (tagged tag fs).Same k) :
    tag? k = some tag := by
  have text : textAt "type" k = some (Text.ofString tag) := textAt_eq (h.at rfl)
  rw [tag?, text]
  exact Text.string?_ofString tag

theorem nodeAt_eq {j : Json} {n : Node} (h : k.At name j.Same) (hn : Reads j n) :
    nodeAt (reader k) name = some n := by
  obtain ⟨part, hpart, same⟩ := h
  rw [nodeAt, hpart]
  exact hn part.1 same

theorem eachAt_eq {js : List Json} {ns : List Node} (h : k.At name (Json.array js).Same)
    (hs : List.Forall₂ Reads js ns) : eachAt (reader k) name = some ns := by
  obtain ⟨part, parts, hpart, hparts, each⟩ := h.exists_items
  rw [eachAt, hpart]
  change (do (← part.items?).mapM (reader k)) = some ns
  rw [hparts]
  exact mapM_eq_some (fun j n part same reads => reads part.1 same) each hs

theorem optionalAt_null {α : Type} {read : Inner k → Option α} (h : k.At name Json.null.Same) :
    optionalAt name read = some none := by
  obtain ⟨part, hpart, same⟩ := h
  have null : part.1.isNull = true := by
    rw [same.scalar_eq]
    rfl
  rw [optionalAt, hpart]
  change (if part.1.isNull then some none else _) = some none
  rw [if_pos null]

theorem optionalAt_object {α : Type} {read : Inner k → Option α} {a : α} {fs : List (Text × Json)}
    (h : k.At name (Json.object fs).Same)
    (hr : ∀ part : Inner k, (Json.object fs).Same part.1 → read part = some a) :
    optionalAt name read = some (some a) := by
  obtain ⟨part, hpart, same⟩ := h
  rw [optionalAt, hpart]
  change (if part.1.isNull then some none else do return some (← read part)) = some (some a)
  rw [same.not_null, hr part same]
  rfl

end

/-! ## Slots -/

theorem exists_each : ∀ {ns : List Node}, (∀ n ∈ ns, n.Recovers) →
    ∃ js, jsonEach ns = .ok js ∧ List.Forall₂ Reads js ns
  | [], _ => ⟨[], rfl, .nil⟩
  | n :: ns, h => by
    have ⟨hn, hns⟩ := List.forall_mem_cons.1 h
    obtain ⟨fields, written, reads⟩ := hn
    obtain ⟨js, each, hjs⟩ := exists_each hns
    refine ⟨.object fields :: js, ?_, .cons reads hjs⟩
    exact bind_of_eq written (bind_of_eq each rfl)

theorem exists_maybe {o : Option Node} (h : ∀ n ∈ o, n.Recovers) :
    ∃ j, jsonMaybe o = .ok j ∧
      ∀ k name, k.At name j.Same → optionalAt name (reader k) = some o := by
  cases o with
  | none => exact ⟨.null, rfl, fun k name => optionalAt_null⟩
  | some n =>
    obtain ⟨fields, written, reads⟩ := h n rfl
    refine ⟨.object fields, written, fun k name there => ?_⟩
    exact optionalAt_object there fun part => reads part.1

theorem exists_slot {o : Option Node} (h : ∀ n ∈ o, n.Recovers) :
    ∃ j, jsonSlot o = .ok j ∧ ∀ k name, k.At name j.Same → slotAt (reader k) name = some o := by
  cases o with
  | none => exact ⟨.null, rfl, fun k name => optionalAt_null⟩
  | some n =>
    obtain ⟨fields, written, reads⟩ := h n rfl
    refine ⟨slotType (.object fields), ?_, fun k name there => ?_⟩
    · exact bind_of_eq written rfl
    · exact optionalAt_object there fun part same => nodeAt_eq (same.at rfl) reads

theorem exists_many (type : String) {o : Option (List Node)} (h : ∀ ns ∈ o, ∀ n ∈ ns, n.Recovers) :
    ∃ j, jsonMany type o = .ok j ∧
      ∀ k name, k.At name j.Same → manyAt (reader k) name = some o := by
  cases o with
  | none => exact ⟨.null, rfl, fun k name => optionalAt_null⟩
  | some ns =>
    obtain ⟨js, each, reads⟩ := exists_each (h ns rfl)
    refine ⟨tagged type [("params", .array js)], ?_, fun k name there => ?_⟩
    · exact bind_of_eq each rfl
    · exact optionalAt_object there fun part same => eachAt_eq (same.at rfl) reads

/-! ## Names, keys and comments -/

theorem readName_eq {name : EntityName} (h : name.Textual) {k : Json} (same : name.toJson.Same k) :
    readName k = some name := by
  cases name with
  | plain n =>
    rw [readName, tag?_eq same]
    change (do return EntityName.plain (← textAt "name" k)) = some (.plain n)
    rw [textAt_eq (same.at rfl)]
    rfl
  | qualified left right =>
    obtain ⟨⟨left, rfl⟩, right, rfl⟩ := h
    have nameIn : ∀ side text, k.At side (identifier (.str text)).Same →
        inField side (textAt "name") k = some text :=
      fun side text there => inField_eq there fun _ same => textAt_eq (same.at rfl)
    rw [readName, tag?_eq same]
    change (do
      let left ← inField "left" (textAt "name") k
      let right ← inField "right" (textAt "name") k
      return EntityName.qualified (.str left) (.str right)) = _
    rw [nameIn "left" left (same.at rfl), nameIn "right" right (same.at rfl)]
    rfl

theorem readKey_eq {key : PropertyKey} (h : key.Proper) {k : Json} (same : key.toJson.Same k) :
    readKey k = some key := by
  obtain ⟨⟨text, hText⟩, quoted, hQuoted⟩ := h
  obtain ⟨_, _⟩ := key
  cases hText
  cases hQuoted
  cases quoted with
  | true =>
    rw [readKey, tag?_eq same]
    change (do return PropertyKey.mk (.str (← textAt "value" k)) (.bool true)) = _
    rw [textAt_eq (same.at rfl)]
    rfl
  | false =>
    rw [readKey, tag?_eq same]
    change (do return PropertyKey.mk (.str (← textAt "name" k)) (.bool false)) = _
    rw [textAt_eq (same.at rfl)]
    rfl

theorem readComment_eq {c : Comment} (h : c.Proper) {k : Json} (same : c.toJson.Same k) :
    readComment k = some c := by
  obtain ⟨⟨value, hValue⟩, block, hBlock⟩ := h
  obtain ⟨_, _⟩ := c
  cases hValue
  cases hBlock
  have text : textAt "value" k = some value := textAt_eq (same.at rfl)
  cases block <;>
  · rw [readComment, text, tag?_eq same]
    rfl

theorem commentsAt_eq {cs : List Comment} (h : ∀ c ∈ cs, c.Proper) {fs : List (Text × Json)}
    {k : Json} (same : (Json.object fs).Same k) {name : String}
    (there : fs.lookup (Text.ofString name) = if cs.isEmpty then none else
      some (.array (cs.map Comment.toJson))) : commentsAt name k = some cs := by
  cases cs with
  | nil =>
    rw [commentsAt, same.absent there]
  | cons c cs =>
    obtain ⟨part, parts, hpart, hparts, each⟩ := (same.at there).exists_items
    rw [commentsAt, hpart]
    change (do (← part.items?).mapM fun c => readComment c.1) = some (c :: cs)
    rw [hparts]
    rw [List.forall₂_map_left_iff] at each
    refine mapM_eq_some (S := fun c d => c.Proper ∧ c = d) ?_ each ?_
    · rintro c _ part samec ⟨hc, rfl⟩
      exact readComment_eq hc samec
    · exact List.forall₂_same.2 fun c hc => ⟨h c hc, rfl⟩

theorem lookup_comments (c : Comments) :
    c.fields.lookup (Text.ofString "leadingComments") = (if c.leading.isEmpty then none else
      some (.array (c.leading.map Comment.toJson))) ∧
    c.fields.lookup (Text.ofString "innerComments") = (if c.inner.isEmpty then none else
      some (.array (c.inner.map Comment.toJson))) ∧
    c.fields.lookup (Text.ofString "trailingComments") = (if c.trailing.isEmpty then none else
      some (.array (c.trailing.map Comment.toJson))) := by
  -- The lists that are empty decide which fields there are.
  obtain ⟨leading, inner, trailing⟩ := c
  cases leading <;> cases inner <;> cases trailing <;> exact ⟨rfl, rfl, rfl⟩

end Decoder

/-! ## Nodes -/

namespace Node

open Decoder

theorem ofJson?_eq {tag : String} {fs : List (Text × Json)} {k : Json}
    (h : (tagged tag fs).Same k) : ofJson? k = readTagged (reader k) tag := by
  rw [ofJson?, tag?_eq h]
  rfl

theorem recovers_word (name tag : String)
    (ht : Text.ofString "TS" ++ (Text.ofString name).capitalize ++ Text.ofString "Keyword" = tag)
    (hk : readKeyword tag = some (word name)) : (word name).Recovers := by
  refine ⟨[("type", .str tag)], ?_, fun k same => ?_⟩
  · rw [← ht]
    rfl
  · rw [ofJson?_eq same]
    unfold readTagged
    rw [hk]

theorem recovers_keyword {n : Node} (h : n ∈ keywords) : n.Recovers := by
  simp only [keywords, List.mem_cons, List.not_mem_nil, or_false] at h
  rcases h with rfl | rfl | rfl | rfl | rfl | rfl | rfl | rfl | rfl
  · exact recovers_word "any" "TSAnyKeyword" (by decide +kernel) rfl
  · exact recovers_word "boolean" "TSBooleanKeyword" (by decide +kernel) rfl
  · exact recovers_word "never" "TSNeverKeyword" (by decide +kernel) rfl
  · exact recovers_word "null" "TSNullKeyword" (by decide +kernel) rfl
  · exact recovers_word "number" "TSNumberKeyword" (by decide +kernel) rfl
  · exact recovers_word "string" "TSStringKeyword" (by decide +kernel) rfl
  · exact recovers_word "undefined" "TSUndefinedKeyword" (by decide +kernel) rfl
  · exact recovers_word "unknown" "TSUnknownKeyword" (by decide +kernel) rfl
  · exact recovers_word "void" "TSVoidKeyword" (by decide +kernel) rfl

theorem recovers_this : this.Recovers :=
  ⟨_, rfl, fun _ same => ofJson?_eq same⟩

theorem recovers_literal (v : Scalar) : (literal v).Recovers := by
  refine ⟨_, rfl, fun k same => ?_⟩
  have value : inField "literal" (inField "value" Json.scalar?) k = some v := by
    refine inField_eq (same.at rfl) fun l (inner : (tagged _ [("value", .scalar v)]).Same l) => ?_
    exact inField_scalar (inner.at rfl) rfl
  rw [ofJson?_eq same]
  change readLiteral k = _
  rw [readLiteral, value]
  rfl

theorem recovers_reference {name : EntityName} {args : Option (List Node)} (hn : name.Textual)
    (h : ∀ ns ∈ args, ∀ n ∈ ns, n.Recovers) : (reference name args).Recovers := by
  obtain ⟨j, written, reads⟩ := exists_many "TSTypeParameterInstantiation" h
  refine ⟨[("type", .str "TSTypeReference"), ("typeName", name.toJson), ("typeParameters", j)], ?_,
    fun k same => ?_⟩
  · exact bind_of_eq written rfl
  · have named : inField "typeName" readName k = some name :=
      inField_eq (same.at rfl) fun _ => readName_eq hn
    rw [ofJson?_eq same]
    change readReference (reader k) = _
    rw [readReference, named, reads k _ (same.at rfl)]
    rfl

theorem recovers_operator {n : Node} (op : Operator) (h : n.Recovers) :
    (operator op n).Recovers := by
  obtain ⟨fields, written, reads⟩ := h
  refine ⟨[("type", .str "TSTypeOperator"), ("operator", .str op.name),
    ("typeAnnotation", .object fields)], ?_, fun k same => ?_⟩
  · exact bind_of_eq written rfl
  · have named : readOperatorName k = some op := by
      rw [readOperatorName, textAt_eq (same.at rfl)]
      cases op <;> rfl
    rw [ofJson?_eq same]
    change readOperator (reader k) = _
    rw [readOperator, named, nodeAt_eq (same.at rfl) reads]
    rfl

theorem recovers_access {n i : Node} (hn : n.Recovers) (hi : i.Recovers) :
    (access n i).Recovers := by
  obtain ⟨fields, written, reads⟩ := hn
  obtain ⟨fields', written', reads'⟩ := hi
  refine ⟨[("type", .str "TSIndexedAccessType"), ("objectType", .object fields),
    ("indexType", .object fields')], ?_, fun k same => ?_⟩
  · exact bind_of_eq written (bind_of_eq written' rfl)
  · rw [ofJson?_eq same]
    change readAccess (reader k) = _
    rw [readAccess, nodeAt_eq (same.at rfl) reads, nodeAt_eq (same.at rfl) reads']
    rfl

theorem recovers_array {n : Node} (h : n.Recovers) : (array n).Recovers := by
  obtain ⟨fields, written, reads⟩ := h
  refine ⟨[("type", .str "TSArrayType"), ("elementType", .object fields)], ?_, fun k same => ?_⟩
  · exact bind_of_eq written rfl
  · rw [ofJson?_eq same]
    change (do return array (← nodeAt (reader k) "elementType")) = _
    rw [nodeAt_eq (same.at rfl) reads]
    rfl

theorem recovers_group {ns : List Node} (g : Grouping) (h : ∀ n ∈ ns, n.Recovers) :
    (group g ns).Recovers := by
  obtain ⟨js, written, reads⟩ := exists_each h
  refine ⟨[("type", .str (groupTag g)), (groupField g, .array js)], ?_, fun k same => ?_⟩
  · exact bind_of_eq written rfl
  · have tagged : readTagged (reader k) (groupTag g) = readGroup (reader k) g := by
      cases g <;> rfl
    have there : k.At (groupField g) (Json.array js).Same := by
      cases g <;> exact same.at rfl
    rw [ofJson?_eq same, tagged, readGroup, eachAt_eq there reads]
    rfl

theorem recovers_object {ms : List Node} (h : ∀ m ∈ ms, m.Recovers) : (object ms).Recovers := by
  obtain ⟨js, written, reads⟩ := exists_each h
  refine ⟨[("type", .str "TSTypeLiteral"), ("members", .array js)], ?_, fun k same => ?_⟩
  · exact bind_of_eq written rfl
  · rw [ofJson?_eq same]
    change (do return object (← eachAt (reader k) "members")) = _
    rw [eachAt_eq (same.at rfl) reads]
    rfl

theorem recovers_function {ts : Option (List Node)} {ps : List Node} {r : Option Node}
    (ht : ∀ ns ∈ ts, ∀ n ∈ ns, n.Recovers) (hp : ∀ n ∈ ps, n.Recovers)
    (hr : ∀ n ∈ r, n.Recovers) : (function ts ps r).Recovers := by
  obtain ⟨typeParams, writtent, readst⟩ := exists_many "TSTypeParameterDeclaration" ht
  obtain ⟨params, writtenp, readsp⟩ := exists_each hp
  obtain ⟨result, writtenr, readsr⟩ := exists_slot hr
  refine ⟨[("type", .str "TSFunctionType"), ("typeParameters", typeParams),
    ("parameters", .array params), ("typeAnnotation", result)], ?_, fun k same => ?_⟩
  · exact bind_of_eq writtent (bind_of_eq writtenp (bind_of_eq writtenr rfl))
  · rw [ofJson?_eq same]
    change readFunction (reader k) = _
    rw [readFunction, readst k _ (same.at rfl), eachAt_eq (same.at rfl) readsp,
      readsr k _ (same.at rfl)]
    rfl

theorem recovers_property {key : PropertyKey} {t : Option Node} {comments : Comments}
    (optional readonly : Bool) (hk : key.Proper) (h : ∀ n ∈ t, n.Recovers)
    (hc : comments.Proper) : (property key t optional readonly comments).Recovers := by
  obtain ⟨type, written, reads⟩ := exists_slot h
  refine ⟨("type", .str "TSPropertySignature") :: ("key", key.toJson) ::
    ("computed", .bool false) :: ("optional", .bool optional) :: ("readonly", .bool readonly) ::
    ("typeAnnotation", type) :: comments.fields, ?_, fun k same => ?_⟩
  · exact bind_of_eq written rfl
  · have named : inField "key" readKey k = some key :=
      inField_eq (same.at rfl) fun _ => readKey_eq hk
    have ⟨leading, inner, trailing⟩ := lookup_comments comments
    have leading : commentsAt "leadingComments" k = some comments.leading :=
      commentsAt_eq hc.leading same leading
    have inner : commentsAt "innerComments" k = some comments.inner :=
      commentsAt_eq hc.inner same inner
    have trailing : commentsAt "trailingComments" k = some comments.trailing :=
      commentsAt_eq hc.trailing same trailing
    rw [ofJson?_eq same]
    change readProperty (reader k) = _
    rw [readProperty, named, reads k _ (same.at rfl), boolAt_eq (same.at rfl),
      boolAt_eq (same.at rfl), leading, inner, trailing]
    rfl

theorem recovers_index {name : Scalar} {key t : Option Node} (hn : name.Textual)
    (hk : ∀ n ∈ key, n.Recovers) (ht : ∀ n ∈ t, n.Recovers) : (index name key t).Recovers := by
  obtain ⟨text, rfl⟩ := hn
  obtain ⟨keyType, writtenk, readsk⟩ := exists_slot hk
  obtain ⟨type, writtent, readst⟩ := exists_slot ht
  refine ⟨[("type", .str "TSIndexSignature"),
    ("parameters", .array [identifierWith (.str text) [("typeAnnotation", keyType)]]),
    ("typeAnnotation", type)], ?_, fun k same => ?_⟩
  · exact bind_of_eq writtenk (bind_of_eq writtent rfl)
  · have there : k.At "parameters" (Json.array
        [identifierWith (.str text) [("typeAnnotation", keyType)]]).Same := same.at rfl
    obtain ⟨list, parts, hlist, hparts, each⟩ := there.exists_items
    obtain ⟨param, rfl⟩ : ∃ param, parts = [param] := by
      have single := each.length_eq
      rw [List.length_singleton, List.length_map] at single
      exact List.length_eq_one_iff.1 single.symm
    have samep : (identifierWith (.str text) [("typeAnnotation", keyType)]).Same param.1 :=
      (List.forall₂_cons.1 each).1
    rw [ofJson?_eq same]
    change readIndex (reader k) = _
    rw [readIndex, hlist]
    change (do
      let param ← single? (← list.items?)
      let name ← textAt "name" param.1
      let key ← slotAt (reader param.1) "typeAnnotation"
      return index (.str name) key (← slotAt (reader k) "typeAnnotation")) = _
    rw [hparts]
    change (do
      let name ← textAt "name" param.1
      let key ← slotAt (reader param.1) "typeAnnotation"
      return index (.str name) key (← slotAt (reader k) "typeAnnotation")) = _
    rw [textAt_eq (samep.at rfl), readsk _ _ (samep.at rfl), readst k _ (same.at rfl)]
    rfl

theorem recovers_typeParameter {name : Scalar} {c d : Option Node} (hn : name.Textual)
    (hc : ∀ n ∈ c, n.Recovers) (hd : ∀ n ∈ d, n.Recovers) : (typeParameter name c d).Recovers := by
  obtain ⟨text, rfl⟩ := hn
  obtain ⟨constraint, writtenc, readsc⟩ := exists_maybe hc
  obtain ⟨default, writtend, readsd⟩ := exists_maybe hd
  refine ⟨[("type", .str "TSTypeParameter"), ("name", .str text), ("constraint", constraint),
    ("default", default)], ?_, fun k same => ?_⟩
  · exact bind_of_eq writtenc (bind_of_eq writtend rfl)
  · rw [ofJson?_eq same]
    change readTypeParameter (reader k) = _
    rw [readTypeParameter, textAt_eq (same.at rfl), readsc k _ (same.at rfl),
      readsd k _ (same.at rfl)]
    rfl

theorem recovers_parameter {name : Scalar} {t : Option Node} (optional : Bool) (hn : name.Textual)
    (h : ∀ n ∈ t, n.Recovers) : (parameter name t optional).Recovers := by
  obtain ⟨text, rfl⟩ := hn
  obtain ⟨type, written, reads⟩ := exists_slot h
  refine ⟨[("type", .str "Identifier"), ("name", .str text), ("optional", .bool optional),
    ("typeAnnotation", type)], ?_, fun k same => ?_⟩
  · exact bind_of_eq written rfl
  · rw [ofJson?_eq same]
    change readParameter (reader k) = _
    rw [readParameter, textAt_eq (same.at rfl), reads k _ (same.at rfl), boolAt_eq (same.at rfl)]
    rfl

theorem recovers_rest {name : Scalar} {t : Option Node} (hn : name.Textual)
    (h : ∀ n ∈ t, n.Recovers) : (rest name t).Recovers := by
  obtain ⟨text, rfl⟩ := hn
  obtain ⟨type, written, reads⟩ := exists_slot h
  refine ⟨[("type", .str "RestElement"), ("argument", identifier (.str text)),
    ("typeAnnotation", type)], ?_, fun k same => ?_⟩
  · exact bind_of_eq written rfl
  · have named : inField "argument" (textAt "name") k = some text :=
      inField_eq (same.at rfl) fun l (inner : (identifier (.str text)).Same l) =>
        textAt_eq (inner.at rfl)
    rw [ofJson?_eq same]
    change readRest (reader k) = _
    rw [readRest, named, reads k _ (same.at rfl)]
    rfl

theorem Proper.recovers {sort : SlotSort} {n : Node} (h : n.Proper sort) : n.Recovers := by
  induction h with
  | keyword h => exact recovers_keyword h
  | this => exact recovers_this
  | literal h => exact recovers_literal _
  | reference hn h ih => exact recovers_reference hn ih
  | operator h ih => exact recovers_operator _ ih
  | access hn hi ihn ihi => exact recovers_access ihn ihi
  | array h ih => exact recovers_array ih
  | group h ih => exact recovers_group _ ih
  | object h ih => exact recovers_object ih
  | function ht hp hr iht ihp ihr => exact recovers_function iht ihp ihr
  | property hk h hc ih => exact recovers_property _ _ hk ih hc
  | index hn hk ht ihk iht => exact recovers_index hn ihk iht
  | typeParameter hn hc hd ihc ihd => exact recovers_typeParameter hn ihc ihd
  | parameter hn h ih => exact recovers_parameter _ hn ih
  | rest hn h ih => exact recovers_rest hn ih

end Node

/-- Proper nodes can be written, and their documents are the same, in whichever order their fields
stand, exactly if the nodes are the same; then they are even equal. A node is made again of its
document, or of one that is the same. -/
theorem documents_same_iff {a b : SlotSort} {s t : Node} (hs : s.Proper a) (ht : t.Proper b) :
    ∃ j k, s.toJson = .ok j ∧ t.toJson = .ok k ∧ (j.Same k ↔ s.same t = true) ∧
      (j = k ↔ s.same t = true) ∧ ∀ l, j.Same l → Node.ofJson? l = some s := by
  obtain ⟨fields, written, reads⟩ := hs.recovers
  obtain ⟨fields', written', reads'⟩ := ht.recovers
  have recovered : (Json.object fields).Same (.object fields') → s = t := by
    intro same
    have left := reads _ same
    have right := reads' _ (.refl _)
    exact Option.some.inj (left.symm.trans right)
  have rewritten : s = t → Json.object fields = .object fields' := by
    rintro rfl
    exact Except.ok.inj (written.symm.trans written')
  refine ⟨_, _, written, written', ?_, ?_, reads⟩
  · rw [hs.same_iff ht]
    refine ⟨recovered, fun eq => ?_⟩
    rw [rewritten eq]
    exact .refl _
  · rw [hs.same_iff ht]
    refine ⟨fun eq => recovered ?_, rewritten⟩
    rw [eq]
    exact .refl _

/-- `{ "a b"?: A.B<>, [x: string]: (...as: 1[]) => true }` with a comment before the key, in a block
or on a line. -/
def commented (block : Bool) : Node :=
  .object [
    .property ⟨.str "a b", .bool true⟩
      (some (.reference (.qualified (.str "A") (.str "B")) (some []))) true false
      ⟨[⟨.str "note", .bool block⟩], [], []⟩,
    .index (.str "x") (some .string) (some (.function none
      [.rest (.str "as") (some (.array (.literal (.int 1))))] (some (.literal (.bool true)))))]

theorem proper_commented (block : Bool) : (commented block).Proper .type := by
  have name : (Node.reference (.qualified (.str "A") (.str "B")) (some [])).Proper .type :=
    .reference ⟨⟨_, rfl⟩, _, rfl⟩ (by simp)
  have string : Node.string.Proper .type :=
    .keyword (by simp [Node.keywords, Node.string, Node.word])
  have result : (Node.literal (.bool true)).Proper .type := .literal trivial
  have last : (Node.rest (.str "as") (some (.array (.literal (.int 1))))).Proper .parameter :=
    .rest ⟨_, rfl⟩ (by simpa using .array (.literal trivial))
  have note : Comments.Proper ⟨[⟨.str "note", .bool block⟩], [], []⟩ :=
    ⟨by simp [Comment.Proper, Scalar.Textual], by simp, by simp⟩
  refine .object ?_
  simp only [List.forall_mem_cons]
  refine ⟨.property ⟨⟨_, rfl⟩, _, rfl⟩ ?_ note, .index ⟨_, rfl⟩ ?_ ?_, List.forall_mem_nil _⟩
  · simpa using name
  · simpa using string
  · simpa using .function (by simp) (by simpa using last) (by simpa using result)

theorem documents_same_iff_commented : ∃ j k, (commented true).toJson = .ok j ∧
    (commented false).toJson = .ok k ∧ ¬j.Same k ∧ Node.ofJson? j = some (commented true) ∧
    Node.ofJson? k = some (commented false) := by
  obtain ⟨j, k, hj, hk, same, -, reads⟩ :=
    documents_same_iff (proper_commented true) (proper_commented false)
  obtain ⟨k', -, hk', -, -, -, reads'⟩ :=
    documents_same_iff (proper_commented false) (proper_commented true)
  cases hk.symm.trans hk'
  refine ⟨j, k, hj, hk, ?_, reads j (.refl j), reads' k (.refl k)⟩
  rw [same]
  simp [commented, Node.same, sameEach, PropertyKey.same, Comments.same, alikeLists, Comment.same,
    Scalar.alike, Scalar.normal]

end TypeScript

end Reannotate
