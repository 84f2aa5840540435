import Reannotate.Proofs.Kinds
import Reannotate.Proofs.Noninterference
import Reannotate.Proofs.Steps
import Reannotate.TypeScript.Document

/-!
# Object types from end to end

What an object type is written as, told in terms of the document that it comes from
(`objects_emitted`): a signature for each property and an index signature for each indexer, in the
order of the document, and apart from these the types spread. The parts are related to their sources
by `PropertyEmitted`, `IndexEmitted` and `SpreadEmitted`, and the types in them by `Emitted`.
-/

namespace Reannotate

open Reannotate.Flow (Phrase PropertyKey IsPlus Role)
open Reannotate.TypeScript (Node tagged identifier identifierWith slotType jsonEach)
open Json (items present holds HasType)

/-! ## Sources and what is written for them -/

def Emitted (names : Names) (role : Role Bool) (entry doc : Json) : Prop :=
  ∃ p log node after, Flow.read entry = .ok p ∧
    (Converting.convert names p role).outcome log = (.ok node, after) ∧ node.toJson = .ok doc

inductive KeyEmitted (key : Json) : Json → Prop
  | plain {s} (type : key.HasType "Identifier") (name : key.get? "name" = some (.scalar s)) :
      KeyEmitted key (identifier s)
  | quoted {s} (type : key.HasType "StringLiteral") (value : key.get? "value" = some (.scalar s)) :
      KeyEmitted key (tagged "StringLiteral" [("value", .scalar s)])

inductive CommentEmitted (comment : Json) : Json → Prop
  | line {s} (type : comment.HasType "CommentLine")
      (value : comment.get? "value" = some (.scalar s)) :
      CommentEmitted comment (tagged "CommentLine" [("value", .scalar s)])
  | block {s} (type : ¬comment.HasType "CommentLine")
      (value : comment.get? "value" = some (.scalar s)) :
      CommentEmitted comment (tagged "CommentBlock" [("value", .scalar s)])

def CommentsEmitted (name : String) (entry : Json) (fields : List (Text × Json)) : Prop :=
  ∃ docs, List.Forall₂ CommentEmitted (items (entry.get? name)) docs ∧
    fields = if docs.isEmpty then [] else [(Text.ofString name, .array docs)]

inductive PropertyEmitted (names : Names) (entry : Json) : Json → Prop
  | mk {key value keyDoc type leading inner trailing}
      (key_eq : entry.get? "key" = some key) (hkey : KeyEmitted key keyDoc)
      (value_eq : entry.get? "value" = some value)
      (htype : Emitted names (.property (holds (entry.get? "optional"))) value type)
      (hleading : CommentsEmitted "leadingComments" entry leading)
      (hinner : CommentsEmitted "innerComments" entry inner)
      (htrailing : CommentsEmitted "trailingComments" entry trailing) :
      PropertyEmitted names entry (tagged "TSPropertySignature"
        (("key", keyDoc) :: ("computed", .bool false) ::
          ("optional", .bool (holds (entry.get? "optional"))) ::
          ("readonly", .bool (IsPlus (entry.get? "variance"))) ::
          ("typeAnnotation", slotType type) :: (leading ++ inner ++ trailing)))

def SpreadEmitted (names : Names) (entry doc : Json) : Prop :=
  ∃ argument, entry.get? "argument" = some argument ∧ Emitted names .other argument doc

inductive Annotates : Json → Json → Prop
  | refl (node : Json) : Annotates node node
  | around {j inner node} (type : j.HasType "TypeAnnotation")
      (inner_eq : j.get? "typeAnnotation" = some inner) (h : Annotates inner node) :
      Annotates j node

/-- The name in the brackets of an indexer, which is `x` if there is none. -/
def indexerName (node : Json) : Json :=
  let name := ((present (node.get? "id")).bind (Json.get? "name")).getD .null
  if name.truthy then name else .str "x"

inductive IndexEmitted (names : Names) (entry : Json) : Json → Prop
  | mk {node name key value keyType type} (annotated : Annotates entry node)
      (hnode : node.HasType "ObjectTypeIndexer") (hname : indexerName node = .scalar name)
      (key_eq : node.get? "key" = some key) (hkey : Emitted names .other key keyType)
      (value_eq : node.get? "value" = some value) (htype : Emitted names .other value type) :
      IndexEmitted names entry (tagged "TSIndexSignature" [
        ("parameters", .array [identifierWith name [("typeAnnotation", slotType keyType)]]),
        ("typeAnnotation", slotType type)])

/-- A literal with these members, in an intersection with the types spread if there are any. -/
def objectDocument (members spreads : List Json) : Json :=
  let literal := tagged "TSTypeLiteral" [("members", .array members)]
  if spreads.isEmpty then literal
  else tagged "TSIntersectionType" [("types", .array (literal :: spreads))]

theorem Emitted.unique {names : Names} (forgetful : names.Forgetful) {role : Role Bool}
    {entry doc doc' : Json} (h : Emitted names role entry doc)
    (h' : Emitted names role entry doc') : doc = doc' := by
  obtain ⟨p, log, node, after, read, converted, written⟩ := h
  obtain ⟨q, log', node', after', read', converted', written'⟩ := h'
  cases read.symm.trans read'
  have same := (Converting.steady_convert forgetful p role).same log log'
  rw [converted, converted'] at same
  cases same
  exact Except.ok.inj (written.symm.trans written')

/-! ## Reading entries -/

namespace Flow

inductive KeyRead (key : Json) : PropertyKey → Prop
  | plain {name} (type : key.HasType "Identifier") (h : key.get? "name" = some name) :
      KeyRead key ⟨name, false⟩
  | quoted {value} (type : key.HasType "StringLiteral") (h : key.get? "value" = some value) :
      KeyRead key ⟨value, true⟩

def CommentRead (j : Json) (c : Comment) : Prop :=
  j.get? "value" = some c.value ∧ (c.block = true ↔ ¬j.HasType "CommentLine")

inductive PropertyRead (entry : Json) : Phrase → Prop
  | mk {s k v w c key value} (key_eq : entry.get? "key" = some key) (hkey : KeyRead key k)
      (value_eq : entry.get? "value" = some value) (hvalue : Reads value v)
      (variance : w = some .plus ↔ IsPlus (entry.get? "variance"))
      (leading : List.Forall₂ CommentRead (items (entry.get? "leadingComments")) c.leading)
      (inner : List.Forall₂ CommentRead (items (entry.get? "innerComments")) c.inner)
      (trailing : List.Forall₂ CommentRead (items (entry.get? "trailingComments")) c.trailing) :
      PropertyRead entry (.property s k v (holds (entry.get? "optional")) w c)

inductive IndexerRead (node : Json) : Phrase → Prop
  | mk {s id k v w key value}
      (id_eq : id = ((present (node.get? "id")).bind (Json.get? "name")).getD .null)
      (key_eq : node.get? "key" = some key) (hkey : Reads key k)
      (value_eq : node.get? "value" = some value) (hvalue : Reads value v) :
      IndexerRead node (.indexer s id k v w)

namespace Reader

theorem readKey_inv {j : Json} {k : PropertyKey} (h : readKey j = .ok k) : KeyRead j k := by
  obtain ⟨type, htype, h⟩ := exists_of_bind h
  have htype := required_eq_ok htype
  split at h
  · rename_i plain
    rw [Json.isText_iff.1 plain] at htype
    obtain ⟨name, hname, h⟩ := exists_of_bind h
    cases h
    exact .plain htype (required_eq_ok hname)
  · split at h
    · rename_i quoted
      rw [Json.isText_iff.1 quoted] at htype
      obtain ⟨value, hvalue, h⟩ := exists_of_bind h
      cases h
      exact .quoted htype (required_eq_ok hvalue)
    · cases h

theorem readComment_inv {j : Json} {c : Comment} (h : readComment j = .ok c) : CommentRead j c := by
  obtain ⟨value, hvalue, h⟩ := exists_of_bind h
  have hvalue := required_eq_ok hvalue
  obtain ⟨type, htype, hkind⟩ := optional_type (Json.isObject_of_get? hvalue)
  rw [htype] at h
  cases h
  refine ⟨hvalue, ?_⟩
  rw [← hkind, Bool.not_eq_true', Bool.not_eq_true]

section
variable {node : Json} {name : String}

theorem readComments_inv {cs : List Comment} (h : readComments node name = .ok cs) :
    List.Forall₂ CommentRead (items (node.get? name)) cs := by
  have each := forall₂_of_onItems (onItems_members rfl (fun _ => rfl) fun _ => isObject_of_comments) h
  exact each.imp fun _ _ => readComment_inv

theorem propertyVariance_plus {kind : Json} {w : Option Variance}
    (h : propertyVariance kind = .ok w) : w = some .plus ↔ kind = .str "plus" := by
  have same : bareVariance w = some .plus ↔ w = some .plus := by
    rcases w with _ | _ | _ <;> simp [bareVariance]
  rw [← same, bareVariance_of_propertyVariance h]
  simp

theorem readProperty_inv {p : Phrase} (h : readProperty (reading node) = .ok p) :
    PropertyRead node p := by
  obtain ⟨key, key_eq, h⟩ := exists_of_bind h
  obtain ⟨k, hkey, h⟩ := exists_of_bind h
  obtain ⟨v, hv, h⟩ := exists_of_bind h
  obtain ⟨value, value_eq, hvalue⟩ := readChild_inv hv
  obtain ⟨kind, hkind, h⟩ := exists_of_bind h
  obtain ⟨leading, hleading, h⟩ := exists_of_bind h
  obtain ⟨inner, hinner, h⟩ := exists_of_bind h
  obtain ⟨trailing, htrailing, h⟩ := exists_of_bind h
  obtain ⟨w, hw, h⟩ := exists_of_bind h
  cases h
  have plus := propertyVariance_plus hw
  rw [eq_varianceKind hkind, varianceKind_eq_plus] at plus
  rw [flag_eq_holds]
  exact .mk (required_eq_ok key_eq) (readKey_inv hkey) value_eq hvalue plus
    (readComments_inv hleading) (readComments_inv hinner) (readComments_inv htrailing)

theorem readIndexer_inv {p : Phrase} (h : readIndexer (reading node) = .ok p) :
    IndexerRead node p := by
  obtain ⟨id, hid, h⟩ := exists_of_bind h
  obtain ⟨k, hk, h⟩ := exists_of_bind h
  obtain ⟨v, hv, h⟩ := exists_of_bind h
  obtain ⟨w, -, h⟩ := exists_of_bind h
  cases h
  obtain ⟨key, key_eq, hkey⟩ := readChild_inv hk
  obtain ⟨value, value_eq, hvalue⟩ := readChild_inv hv
  exact .mk (readName_inv hid) key_eq hkey value_eq hvalue

end

def NoIndexer (x : Except Fault Phrase) : Prop :=
  ∀ p, x = .ok p → p.isIndexer = false

theorem noIndexer_ok {p : Phrase} (h : p.isIndexer = false) : NoIndexer (.ok p) := by
  intro q hq
  cases hq
  exact h

theorem noIndexer_bind {α : Type} {x : Except Fault α} {f : α → Except Fault Phrase}
    (h : ∀ a, NoIndexer (f a)) : NoIndexer (x >>= f) := by
  intro p hp
  obtain ⟨a, -, hp⟩ := exists_of_bind hp
  exact h a p hp

theorem noIndexer_readNamed {node : Json} {kind : String} (wrapper : kind ≠ "TypeAnnotation")
    (indexer : kind ≠ "ObjectTypeIndexer") : NoIndexer (readNamed (reading node) kind) := by
  -- for nodes that stand for what one look-up finds
  have around : ∀ {α : Type} {x : Except Fault α} {f : α → Phrase},
      (∀ a, (f a).isIndexer = false) → NoIndexer (do return f (← x)) :=
    fun hf => noIndexer_bind fun a => noIndexer_ok (hf a)
  unfold readNamed
  split
  · exact noIndexer_ok rfl
  · exact around fun _ => rfl
  · split
    · contradiction
    · exact around fun _ => rfl
    · exact around fun _ => rfl
    · exact around fun _ => rfl
    · exact around fun _ => rfl
    · exact around fun _ => rfl
    · exact around fun _ => rfl
    · exact noIndexer_bind fun _ => noIndexer_bind fun _ => around fun _ => rfl
    · intro p hp
      obtain ⟨ps, is, cs, x, rfl, -⟩ := readObject_inv hp
      rfl
    · intro p hp
      cases readProperty_inv hp
      rfl
    · exact around fun _ => rfl
    · contradiction
    · exact around fun _ => rfl
    · refine noIndexer_bind fun _ => noIndexer_bind fun _ => noIndexer_bind fun _ => ?_
      exact around fun _ => rfl
    · exact noIndexer_bind fun _ => around fun _ => rfl
    · refine noIndexer_bind fun _ => noIndexer_bind fun _ => noIndexer_bind fun _ => ?_
      exact around fun _ => rfl
    · exact noIndexer_bind fun _ => around fun _ => rfl
    · unfold readRestElement
      refine noIndexer_bind fun _ => noIndexer_bind fun _ => ?_
      split
      · exact noIndexer_bind fun _ => around fun _ => rfl
      · intro p hp
        cases hp
    · rw [readFunctionDeclaration_eq]
      refine noIndexer_bind fun _ => noIndexer_bind fun _ => noIndexer_bind fun _ => ?_
      exact around fun _ => rfl
    · intro p hp
      cases hp

end Reader

open Reader

theorem PropertyRead.orSpan {entry : Json} {p : Phrase} (h : PropertyRead entry p)
    (s : Option Span) : PropertyRead entry (p.orSpan s) := by
  unfold Phrase.orSpan
  split
  · cases h with
    | mk key_eq hkey value_eq hvalue variance leading inner trailing =>
      exact .mk key_eq hkey value_eq hvalue variance leading inner trailing
  · exact h

theorem IndexerRead.orSpan {entry : Json} {p : Phrase} (h : IndexerRead entry p)
    (s : Option Span) : IndexerRead entry (p.orSpan s) := by
  unfold Phrase.orSpan
  split
  · cases h with
    | mk id_eq key_eq hkey value_eq hvalue => exact .mk id_eq key_eq hkey value_eq hvalue
  · exact h

theorem Phrase.isIndexer_orSpan (s : Option Span) (p : Phrase) :
    (p.orSpan s).isIndexer = p.isIndexer := by
  unfold orSpan
  split
  · cases p with
    | typeName n => cases n <;> rfl
    | _ => rfl
  · rfl

theorem property_of_reads {entry : Json} {p : Phrase} (type : entry.HasType "ObjectTypeProperty")
    (h : Reads entry p) : PropertyRead entry p := by
  obtain ⟨q, hq, rfl⟩ := read_inv type h
  exact (readProperty_inv hq).orSpan _

theorem spread_of_reads {entry : Json} {p : Phrase}
    (type : entry.HasType "ObjectTypeSpreadProperty") (h : Reads entry p) :
    ∃ s a argument, p = .spread s a ∧ entry.get? "argument" = some argument ∧ Reads argument a := by
  obtain ⟨q, hq, rfl⟩ := read_inv type h
  obtain ⟨a, ha, hq⟩ := exists_of_bind hq
  cases hq
  obtain ⟨argument, argument_eq, hargument⟩ := readChild_inv ha
  exact ⟨_, a, argument, rfl, argument_eq, hargument⟩

theorem object_of_reads {j : Json} {p : Phrase} (type : j.HasType "ObjectTypeAnnotation")
    (h : Reads j p) : ∃ s ps is cs x, p = .object s ps is cs x ∧
      List.Forall₂ Reads (items (j.get? "properties")) ps ∧
      List.Forall₂ Reads (items (j.get? "indexers")) is ∧
      List.Forall₂ Reads (items (j.get? "callProperties")) cs := by
  obtain ⟨q, hq, rfl⟩ := read_inv type h
  obtain ⟨ps, is, cs, x, rfl, lists⟩ := readObject_inv hq
  exact ⟨_, ps, is, cs, x, rfl, lists⟩

theorem indexer_of_reads {entry : Json} {p : Phrase} (h : Reads entry p) (hp : p.isIndexer = true) :
    ∃ node, Annotates entry node ∧ node.HasType "ObjectTypeIndexer" ∧ IndexerRead node p := by
  obtain ⟨kind, type, -⟩ := (accepts_read entry).1 ⟨p, h⟩
  obtain ⟨q, hq, rfl⟩ := read_inv type h
  rw [Phrase.isIndexer_orSpan] at hp
  by_cases wrapper : kind = "TypeAnnotation"
  · subst wrapper
    have hq : readChild (reading entry) "typeAnnotation" = .ok q := hq
    obtain ⟨part, hpart, hq⟩ := exists_of_bind hq
    -- what is inside is less deep, so the recursion ends
    have := part.2
    obtain ⟨node, annotated, hnode, hread⟩ := indexer_of_reads hq hp
    exact ⟨node, .around type (required_eq_ok hpart) annotated, hnode, hread.orSpan _⟩
  · by_cases indexer : kind = "ObjectTypeIndexer"
    · subst indexer
      exact ⟨entry, .refl entry, type, (readIndexer_inv hq).orSpan _⟩
    · cases hp.symm.trans (noIndexer_readNamed wrapper indexer q hq)
termination_by entry.depth

end Flow

/-! ## Converting and writing them -/

theorem jsonEach_append (ns ms : List Node) :
    jsonEach (ns ++ ms) = (do return (← jsonEach ns) ++ (← jsonEach ms)) := by
  induction ns with
  | nil =>
    simp only [List.nil_append, jsonEach]
    cases jsonEach ms <;> rfl
  | cons n ns ih => simp [jsonEach, ih]

/-- Whatever the node is written as, it is related to the entry. -/
def Writes (R : Json → Json → Prop) (entry : Json) (n : Node) : Prop :=
  ∀ doc, n.toJson = .ok doc → R entry doc

theorem Writes.each {R : Json → Json → Prop} {entries docs : List Json} {ns : List Node}
    (h : List.Forall₂ (Writes R) entries ns) (written : jsonEach ns = .ok docs) :
    List.Forall₂ R entries docs := by
  induction h generalizing docs with
  | nil =>
    cases written
    exact .nil
  | cons hn _ ih =>
    obtain ⟨doc, hdoc, written⟩ := exists_of_bind written
    obtain ⟨rest, hrest, written⟩ := exists_of_bind written
    cases written
    exact .cons (hn doc hdoc) (ih hrest)

namespace Converting

theorem keyEmitted_of_read {key : Json} {k : PropertyKey} {out : TypeScript.PropertyKey}
    (hread : Flow.KeyRead key k)
    (h : TypeScript.propertyKey? k.text (.bool k.quoted) = .ok out) :
    KeyEmitted key out.toJson := by
  obtain ⟨text, htext, h⟩ := exists_of_bind h
  cases h
  cases hread with
  | plain type name =>
    cases eq_of_toScalar htext
    exact .plain type name
  | quoted type value =>
    cases eq_of_toScalar htext
    exact .quoted type value

theorem commentEmitted_of_read {j : Json} {c : Flow.Comment} {out : TypeScript.Comment}
    (hread : Flow.CommentRead j c) (h : TypeScript.comment? c.value (.bool c.block) = .ok out) :
    CommentEmitted j out.toJson := by
  obtain ⟨value_eq, block_iff⟩ := hread
  obtain ⟨value, hvalue, h⟩ := exists_of_bind h
  rw [eq_of_toScalar hvalue] at value_eq
  cases h
  cases hb : c.block with
  | true => exact .block (block_iff.1 hb) value_eq
  | false => exact .line (by simpa [hb] using block_iff) value_eq

theorem commentsEmitted_of_read {js : List Json} {cs : List Flow.Comment}
    {out : List TypeScript.Comment} (hread : List.Forall₂ Flow.CommentRead js cs)
    (h : comments cs = .ok out) :
    List.Forall₂ CommentEmitted js (out.map TypeScript.Comment.toJson) := by
  unfold comments at h
  induction hread generalizing out with
  | nil =>
    cases h
    exact .nil
  | cons hc _ ih =>
    rw [List.mapM_cons] at h
    obtain ⟨d, hd, h⟩ := exists_of_bind h
    obtain ⟨rest, hrest, h⟩ := exists_of_bind h
    cases h
    exact .cons (commentEmitted_of_read hc hd) (ih hrest)

theorem commentsField_emitted {entry : Json} {name : String} {cs : List Flow.Comment}
    {out : List TypeScript.Comment}
    (hread : List.Forall₂ Flow.CommentRead (items (entry.get? name)) cs)
    (h : comments cs = .ok out) :
    CommentsEmitted name entry (TypeScript.commentsField name out) := by
  refine ⟨out.map TypeScript.Comment.toJson, commentsEmitted_of_read hread h, ?_⟩
  simp [TypeScript.commentsField]

section
variable {names : Names} {log after : Log}

theorem property_writes {entry : Json} {s : Option Flow.Span} {k : PropertyKey} {v : Phrase}
    {o : Bool} {w : Option Flow.Variance} {c : Flow.Comments} {type node : Node}
    (hread : Flow.PropertyRead entry (.property s k v o w c))
    (converted : (convert names v (.property o)).outcome log = (.ok type, after))
    (made : propertySignature k type o w c = .ok node) :
    Writes (PropertyEmitted names) entry node := by
  intro doc written
  obtain ⟨key, hkey, made⟩ := exists_of_bind made
  obtain ⟨leading, hleading, made⟩ := exists_of_bind made
  obtain ⟨inner, hinner, made⟩ := exists_of_bind made
  obtain ⟨trailing, htrailing, made⟩ := exists_of_bind made
  cases made
  obtain ⟨slot, hslot, written⟩ := exists_of_bind written
  obtain ⟨typeDoc, htype, hslot⟩ := exists_of_bind hslot
  cases hslot
  cases written
  cases hread with
  | mk key_eq hkeyRead value_eq hvalue variance hl hi ht =>
    rw [decide_eq_decide.2 variance]
    exact .mk key_eq (keyEmitted_of_read hkeyRead hkey) value_eq
      ⟨v, log, type, after, hvalue, converted, htype⟩ (commentsField_emitted hl hleading)
      (commentsField_emitted hi hinner) (commentsField_emitted ht htrailing)

theorem members_write {entries : List Json} {ps : List Phrase} {m : Members}
    (hread : List.Forall₂ Flow.Reads entries ps)
    (sorts : ∀ e ∈ entries, e.HasType "ObjectTypeProperty" ∨ e.HasType "ObjectTypeSpreadProperty")
    (converted : (convertMembers names ps).outcome log = (.ok m, after)) :
    List.Forall₂ (Writes (PropertyEmitted names))
        (entries.filter fun e => e.HasType "ObjectTypeProperty") m.members ∧
      List.Forall₂ (Writes (SpreadEmitted names))
        (entries.filter fun e => e.HasType "ObjectTypeSpreadProperty") m.spreads := by
  induction hread generalizing log m with
  | nil =>
    cases converted
    exact ⟨.nil, .nil⟩
  | cons hp _ ih =>
    obtain ⟨sort, sorts⟩ := List.forall_mem_cons.1 sorts
    -- Of the two filters one keeps the entry and the other drops it.
    rcases sort with type | type
    · have other : ¬HasType "ObjectTypeSpreadProperty" _ := fun h => absurd (type.eq h) (by decide)
      rw [List.filter_cons_of_pos (by simpa using type),
        List.filter_cons_of_neg (by simpa using other)]
      cases Flow.property_of_reads type hp with
      | mk =>
        obtain ⟨node, mid, hnode, converted⟩ := exists_of_outcome_bind converted
        obtain ⟨member, hmember, converted⟩ := exists_of_outcome_lift converted
        obtain ⟨others, mid', hothers, converted⟩ := exists_of_outcome_bind converted
        cases converted
        obtain ⟨members, spreads⟩ := ih sorts hothers
        have property := property_writes (Flow.property_of_reads type hp) hnode hmember
        exact ⟨.cons property members, spreads⟩
    · have other : ¬HasType "ObjectTypeProperty" _ := fun h => absurd (type.eq h) (by decide)
      rw [List.filter_cons_of_neg (by simpa using other),
        List.filter_cons_of_pos (by simpa using type)]
      obtain ⟨s, a, argument, rfl, argument_eq, hargument⟩ := Flow.spread_of_reads type hp
      obtain ⟨node, mid, hnode, converted⟩ := exists_of_outcome_bind converted
      obtain ⟨others, mid', hothers, converted⟩ := exists_of_outcome_bind converted
      cases converted
      obtain ⟨members, spreads⟩ := ih sorts hothers
      refine ⟨members, .cons (fun doc written => ?_) spreads⟩
      exact ⟨argument, argument_eq, a, _, node, _, hargument, hnode, written⟩

theorem index_writes {entry node : Json} {s : Option Flow.Span} {id w : Json} {k v : Phrase}
    {mid : Log} {key type member : Node} (annotated : Annotates entry node)
    (hnode : node.HasType "ObjectTypeIndexer")
    (hread : Flow.IndexerRead node (.indexer s id k v w))
    (hkey : (convert names k .other).outcome log = (.ok key, mid))
    (htype : (convert names v .other).outcome mid = (.ok type, after))
    (made : Node.index? (indexName id) (some key) (some type) = .ok member) :
    Writes (IndexEmitted names) entry member := by
  intro doc written
  obtain ⟨name, hname, made⟩ := exists_of_bind made
  cases made
  obtain ⟨slot, hslot, written⟩ := exists_of_bind written
  obtain ⟨keyDoc, hkeyDoc, hslot⟩ := exists_of_bind hslot
  cases hslot
  obtain ⟨slot, hslot, written⟩ := exists_of_bind written
  obtain ⟨typeDoc, htypeDoc, hslot⟩ := exists_of_bind hslot
  cases hslot
  cases written
  cases hread with
  | mk id_eq key_eq hkeyRead value_eq hvalueRead =>
    have named : indexerName node = .scalar name := by
      rw [← eq_of_toScalar hname, id_eq]
      rfl
    exact .mk annotated hnode named key_eq ⟨k, log, key, mid, hkeyRead, hkey, hkeyDoc⟩ value_eq
      ⟨v, mid, type, after, hvalueRead, htype, htypeDoc⟩

theorem indexers_write {entries : List Json} {ps : List Phrase} {ns : List Node}
    (hread : List.Forall₂ Flow.Reads entries ps)
    (converted : (convertIndexers names ps).outcome log = (.ok ns, after)) :
    List.Forall₂ (Writes (IndexEmitted names)) entries ns := by
  induction hread generalizing log ns with
  | nil =>
    cases converted
    exact .nil
  | @cons entry p entries ps hp _ ih =>
    cases p with
    | indexer s id k v w =>
      obtain ⟨node, annotated, hnode, indexer⟩ := Flow.indexer_of_reads hp rfl
      obtain ⟨key, mid, hkey, converted⟩ := exists_of_outcome_bind converted
      obtain ⟨type, mid', htype, converted⟩ := exists_of_outcome_bind converted
      obtain ⟨member, hmember, converted⟩ := exists_of_outcome_lift converted
      obtain ⟨rest, mid'', hrest, converted⟩ := exists_of_outcome_bind converted
      cases converted
      exact .cons (index_writes annotated hnode indexer hkey htype hmember) (ih hrest)
    | _ => cases converted

theorem object_converted {role : Role Bool} {s : Option Flow.Span} {ps is cs : List Phrase}
    {x : Bool} {node : Node}
    (converted : (convert names (.object s ps is cs x) role).outcome log = (.ok node, after)) :
    ∃ start mid m ns, (convertMembers names ps).outcome start = (.ok m, mid) ∧
      (convertIndexers names is).outcome mid = (.ok ns, after) ∧ cs = [] ∧
      node = m.assemble ns := by
  have rest : ∀ {start : Log}, (convertParts names ps is cs).outcome start = (.ok node, after) →
      ∃ mid m ns, (convertMembers names ps).outcome start = (.ok m, mid) ∧
        (convertIndexers names is).outcome mid = (.ok ns, after) ∧ cs = [] ∧
        node = m.assemble ns := by
    intro start converted
    obtain ⟨m, mid, hm, converted⟩ := exists_of_outcome_bind converted
    obtain ⟨ns, mid', hns, converted⟩ := exists_of_outcome_bind converted
    cases cs with
    | nil =>
      cases converted
      exact ⟨mid, m, ns, hm, hns, rfl, rfl⟩
    | cons => cases converted
  rw [convert_object] at converted
  cases x with
  | true => exact ⟨_, rest converted⟩
  | false => exact ⟨_, rest converted⟩

end

end Converting

theorem Converting.Members.written {m : Members} {ns : List Node} {doc : Json}
    (h : (m.assemble ns).toJson = .ok doc) :
    ∃ members indexes spreads, jsonEach m.members = .ok members ∧ jsonEach ns = .ok indexes ∧
      jsonEach m.spreads = .ok spreads ∧ doc = objectDocument (members ++ indexes) spreads := by
  have literal : ∀ {literal : Json}, (Node.object (m.members ++ ns)).toJson = .ok literal →
      ∃ members indexes, jsonEach m.members = .ok members ∧ jsonEach ns = .ok indexes ∧
        literal = tagged "TSTypeLiteral" [("members", .array (members ++ indexes))] := by
    intro literal h
    obtain ⟨docs, hdocs, h⟩ := exists_of_bind h
    rw [jsonEach_append] at hdocs
    obtain ⟨members, hmembers, hdocs⟩ := exists_of_bind hdocs
    obtain ⟨indexes, hindexes, hdocs⟩ := exists_of_bind hdocs
    cases hdocs
    cases h
    exact ⟨members, indexes, hmembers, hindexes, rfl⟩
  unfold Members.assemble at h
  cases hs : m.spreads with
  | nil =>
    rw [hs] at h
    obtain ⟨members, indexes, hmembers, hindexes, rfl⟩ := literal h
    exact ⟨members, indexes, [], hmembers, hindexes, rfl, rfl⟩
  | cons n rest =>
    rw [hs] at h
    obtain ⟨docs, hdocs, h⟩ := exists_of_bind h
    obtain ⟨literalDoc, hliteral, hdocs⟩ := exists_of_bind hdocs
    obtain ⟨spreads, hspreads, hdocs⟩ := exists_of_bind hdocs
    cases hdocs
    cases h
    obtain ⟨members, indexes, hmembers, hindexes, rfl⟩ := literal hliteral
    have some : spreads.isEmpty = false := by
      obtain ⟨_, -, hspreads⟩ := exists_of_bind hspreads
      obtain ⟨_, -, hspreads⟩ := exists_of_bind hspreads
      cases hspreads
      rfl
    refine ⟨members, indexes, spreads, hmembers, hindexes, hspreads, ?_⟩
    simp only [objectDocument, some]
    rfl

/-! ## Object types -/

open Converting in
theorem objects_emitted {names : Names} {role : Role Bool} {j doc : Json}
    (object : j.HasType "ObjectTypeAnnotation")
    (sorts : ∀ e ∈ items (j.get? "properties"),
      e.HasType "ObjectTypeProperty" ∨ e.HasType "ObjectTypeSpreadProperty")
    (h : Emitted names role j doc) :
    ∃ signatures indexes spreads,
      List.Forall₂ (PropertyEmitted names)
        ((items (j.get? "properties")).filter fun e => e.HasType "ObjectTypeProperty") signatures ∧
      List.Forall₂ (IndexEmitted names) (items (j.get? "indexers")) indexes ∧
      List.Forall₂ (SpreadEmitted names)
        ((items (j.get? "properties")).filter fun e => e.HasType "ObjectTypeSpreadProperty")
        spreads ∧
      items (j.get? "callProperties") = [] ∧
      doc = objectDocument (signatures ++ indexes) spreads := by
  obtain ⟨p, log, node, after, hread, converted, written⟩ := h
  obtain ⟨s, ps, is, cs, x, rfl, hps, his, hcs⟩ := Flow.object_of_reads object hread
  obtain ⟨start, mid, m, ns, hm, hns, rfl, rfl⟩ := object_converted converted
  obtain ⟨signatures, indexes, spreads, hsignatures, hindexes, hspreads, rfl⟩ :=
    Members.written written
  have sorted := members_write hps sorts hm
  exact ⟨signatures, indexes, spreads, Writes.each sorted.1 hsignatures,
    Writes.each (indexers_write his hns) hindexes, Writes.each sorted.2 hspreads,
    List.forall₂_nil_right_iff.1 hcs, rfl⟩

/-- `{ +a?: ?string, ...number, a: string, [string]: string }`, with a comment before the first
property. -/
def mixedNode : Json :=
  let first : Json := .object [("type", .str "ObjectTypeProperty"), ("key", keyNode),
    ("value", .object [("type", .str "NullableTypeAnnotation"), ("typeAnnotation", stringNode)]),
    ("optional", .bool true), ("variance", .object [("kind", .str "plus")]),
    ("leadingComments", .array [.object [("type", .str "CommentLine"), ("value", .str " first")]])]
  let spread : Json := .object [("type", .str "ObjectTypeSpreadProperty"),
    ("argument", .object [("type", .str "NumberTypeAnnotation")])]
  .object [("type", .str "ObjectTypeAnnotation"),
    ("properties", .array [first, spread, plainProperty]), ("indexers", .array [plainIndexer])]

theorem objects_emitted_mixed : ∃ doc, Emitted .usual .other mixedNode doc ∧
    ∃ signatures indexes spreads, doc = objectDocument (signatures ++ indexes) spreads ∧
      signatures.length = 2 ∧ indexes.length = 1 ∧ spreads.length = 1 := by
  obtain ⟨doc, emitted⟩ : ∃ doc, Emitted .usual .other mixedNode doc := by
    obtain ⟨p, hp, node, hn, doc, hd⟩ : ∃ p, Flow.read mixedNode = .ok p ∧ ∃ node,
        (Converting.convert .usual p .other).outcome .empty = (.ok node, .empty) ∧ ∃ doc,
        node.toJson = .ok doc :=
      ⟨_, by with_unfolding_all rfl, _, rfl, _, rfl⟩
    exact ⟨doc, p, _, node, _, hp, hn, hd⟩
  have object : mixedNode.HasType "ObjectTypeAnnotation" := rfl
  obtain ⟨signatures, indexes, spreads, hsignatures, hindexes, hspreads, -, rfl⟩ :=
    objects_emitted object (by decide) emitted
  exact ⟨_, emitted, signatures, indexes, spreads, rfl, hsignatures.length_eq.symm,
    hindexes.length_eq.symm, hspreads.length_eq.symm⟩

end Reannotate
