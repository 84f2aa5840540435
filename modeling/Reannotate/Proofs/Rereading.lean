import Mathlib.Tactic.MkIffOfInductiveProp
import Reannotate.Proofs.Reading
import Reannotate.Proofs.Writing

/-!
# Reading what was written

`read_document`: the node written for a phrase is read as that phrase, with all its parts and spans.
Each small reader gives back what was written in its field, if that holds for the nodes below.
-/

namespace Reannotate.Flow

/-! ## Trees of nodes -/

def Phrase.isTypeName : Phrase → Bool
  | .typeName _ => true
  | _ => false

def Part.Each (P : Phrase → Prop) : Part → Prop
  | .phrase p => P p
  | .phrases ps => ∀ p ∈ ps, P p
  | _ => True

section
variable {P : Phrase → Prop}

@[simp] theorem Part.each_phrase {p : Phrase} : (phrase p).Each P ↔ P p := Iff.rfl

@[simp] theorem Part.each_phrases {ps : List Phrase} :
    (phrases ps).Each P ↔ ∀ p ∈ ps, P p := Iff.rfl

@[simp] theorem Part.each_value (j : Json) : (value j).Each P := trivial

@[simp] theorem Part.each_key (k : PropertyKey) : (key k).Each P := trivial

@[simp] theorem Part.each_comments (cs : List Comment) : (comments cs).Each P := trivial

@[simp] theorem Part.each_maybe {o : Option Phrase} : (maybe o).Each P ↔ ∀ p ∈ o, P p := by
  cases o <;> simp [maybe]

@[simp] theorem Part.each_maybeMany {o : Option (List Phrase)} :
    (maybeMany o).Each P ↔ ∀ ps ∈ o, ∀ p ∈ ps, P p := by
  cases o <;> simp [maybeMany]

end

def Phrase.declaredRest : Phrase → Option Phrase
  | .callable _ (.declared _) _ _ rest _ => rest
  | _ => none

theorem Phrase.mem_fields_of_declaredRest {p q : Phrase} (h : q ∈ p.declaredRest) :
    ("rest", .phrase q) ∈ p.fields := by
  unfold declaredRest at h
  split at h
  · cases h
    simp [fields, Part.maybe]
  · cases h

theorem Phrase.exists_of_isDeclared {p : Phrase} (h : p.isDeclared = true) :
    ∃ s n t o, p = .parameter s .declared n t o := by
  cases p with
  | parameter s f n t o =>
    cases f with
    | declared => exact ⟨_, _, _, _, rfl⟩
    | ofType => cases h
  | _ => cases h

/-- Type names stand only in type names and where a name is due. A declared function has declared
names for parameters, of which the last may not be left off if it is a rest parameter. -/
@[mk_iff]
structure Phrase.Proper (p : Phrase) : Prop where
  names : p.isTypeName = false → ∀ f ∈ p.fields, f.1 ≠ "id" → f.2.Each fun q => q.isTypeName = false
  declares : p.DeclaresNames
  rest : ∀ q ∈ p.declaredRest, q.optional? = some false

theorem Phrase.DeclaresNames.rest {p q : Phrase} (h : p.DeclaresNames) (hq : q ∈ p.declaredRest) :
    q.isDeclared = true := by
  unfold declaredRest at hq
  split at hq
  · exact h.2 q hq
  · cases hq

namespace Reader

open Json (Inner required flag field? get? HasType)

section
variable {α β : Type} {node j : Json} {name : String}

theorem flag_eq (h : node.get? name = some j) : flag name node = j.truthy := by
  obtain ⟨part, hp, rfl⟩ := Json.exists_field? h
  rw [flag, hp]

/-! ## Names, keys and comments -/

theorem readTypeName_document (n : TypeName) : readTypeName n.document = .ok n := by
  induction n with
  | plain s t =>
    rw [TypeName.document, readTypeName_plain (hasType_nodeOf _ _ _)]
    refine required_bind (get?_nodeOf _ _ _ _) fun name hn => ?_
    rw [hn, span?_nodeOf]
    rfl
  | qualified s q i ihq ihi =>
    rw [TypeName.document, readTypeName_qualified (hasType_nodeOf _ _ _) (get?_nodeOf _ _ _ _)
      (get?_nodeOf _ _ _ _), ihq, ihi, span?_nodeOf]
    rfl

theorem readKey_document (k : PropertyKey) : readKey k.document = .ok k := by
  rcases k with ⟨text, quoted⟩
  cases quoted with
  | true =>
    refine (readKey_quoted (hasType_nodeOf "StringLiteral" _ _)).trans ?_
    refine required_bind (get?_nodeOf _ _ _ _) fun value hv => ?_
    rw [hv]
    rfl
  | false =>
    refine (readKey_plain (hasType_nodeOf "Identifier" _ _)).trans ?_
    refine required_bind (get?_nodeOf _ _ _ _) fun name hn => ?_
    rw [hn]
    rfl

theorem readName_eq {n : Json} (h : node.get? name = some (nameDocument n)) :
    readName node name = .ok n := by
  refine optional_bind h rfl fun part hp => ?_
  refine required_bind (j := n) ?_ fun part hp => by rw [hp]; rfl
  rw [hp]
  exact get?_objectOf _ _

theorem readVariance_eq {kind : Json} (h : node.get? "variance" = some (varianceDocument kind)) :
    readVariance node = .ok kind := by
  refine optional_bind h rfl fun part hp => ?_
  refine required_bind (j := kind) ?_ fun part hp => by rw [hp]; rfl
  rw [hp]
  exact get?_objectOf _ _

theorem propertyVariance_eq (w : Option Variance) :
    propertyVariance ((w.map fun w => Json.str w.name).getD .null) = .ok w := by
  rcases w with _ | _ | _ <;> rfl

theorem readComment_document (c : Comment) : readComment c.document = .ok c := by
  refine required_bind (get?_nodeOf "value" _ _ _) fun value hv => ?_
  refine optional_bind (hasType_nodeOf _ _ _) rfl fun type ht => ?_
  rcases c with ⟨text, block⟩
  have line : (Json.str (if block then "CommentBlock" else "CommentLine" : String)).isText
      "CommentLine" = !block := by
    cases block <;> decide
  rw [hv, Option.any_some, ht, line, Bool.not_not]
  rfl

theorem mapM_of_map {γ : Type} {f : α → Except Fault β} {v : α → γ} {g : β → γ} :
    ∀ {as : List α} {bs : List β}, (∀ b ∈ bs, ∀ a, v a = g b → f a = .ok b) →
      as.map v = bs.map g → as.mapM f = .ok bs
  | [], [], _, _ => rfl
  | a :: as, b :: bs, h, he => by
    rw [List.map_cons, List.map_cons] at he
    obtain ⟨ha, has⟩ := List.cons.inj he
    rw [List.mapM_cons]
    refine bind_of_eq (h b List.mem_cons_self a ha) ?_
    exact bind_of_eq (mapM_of_map (fun b hb => h b (List.mem_cons_of_mem _ hb)) has) rfl

theorem members_bind {outer : Inner node} {items : List Json}
    {f : List (Inner node) → Except Fault α} {x : Except Fault α} (h : outer.1 = .array items)
    (hf : ∀ parts, parts.map (·.1) = items → f parts = x) : outer.members >>= f = x := by
  obtain ⟨parts, hm, hp⟩ := members_array h
  exact bind_of_eq hm (hf parts hp)

theorem readComments_eq {cs : List Comment} (h : node.get? name = some (commentsDocument cs)) :
    readComments node name = .ok cs := by
  refine optional_bind h rfl fun list hl => members_bind hl fun parts hp => ?_
  refine mapM_of_map (fun c _ part hc => ?_) hp
  rw [hc]
  exact readComment_document c

/-! ## Nodes inside nodes -/

abbrev Returns (p : Phrase) : Prop :=
  read p.document = .ok p

theorem reading_of_returns {p : Phrase} (hp : Returns p) {part : Inner node}
    (h : part.1 = p.document) : reading node part = .ok p := by
  rw [reading, h]
  exact hp

theorem exists_document_eq_nodeOf (p : Phrase) :
    ∃ kind s fields, p.document = nodeOf kind s fields := by
  cases p with
  | typeName n => cases n <;> exact ⟨_, _, _, rfl⟩
  | parameter s f n t o => cases f <;> exact ⟨_, _, _, rfl⟩
  | callable s f ps r rest ts => cases f <;> exact ⟨_, _, _, rfl⟩
  | _ => exact ⟨_, _, _, rfl⟩

theorem truthy_document (p : Phrase) : p.document.truthy = true := by
  obtain ⟨kind, s, fields, h⟩ := exists_document_eq_nodeOf p
  rw [h]
  rfl

theorem isNull_document (p : Phrase) : p.document.isNull = false := by
  obtain ⟨kind, s, fields, h⟩ := exists_document_eq_nodeOf p
  rw [h]
  rfl

theorem readChild_eq {p : Phrase} (h : node.get? name = some p.document) (hp : Returns p) :
    readChild (reading node) name = .ok p :=
  required_bind h fun _ hpart => reading_of_returns hp hpart

theorem readOptional_eq {o : Option Phrase} (h : node.get? name = some (documentMaybe o))
    (ho : ∀ p ∈ o, Returns p) : readOptional (reading node) name = .ok o := by
  cases o with
  | none => exact optional_bind_null h
  | some p =>
    refine optional_bind h (isNull_document p) fun part hpart => ?_
    exact bind_of_eq (reading_of_returns (ho p rfl) hpart) rfl

theorem readMembers_eq {ps : List Phrase} (hp : ∀ p ∈ ps, Returns p) {list : Inner node}
    (h : list.1 = .array (documentEach ps)) : readMembers (reading node) (some list) = .ok ps := by
  rw [documentEach_eq_map] at h
  exact members_bind h fun parts => mapM_of_map fun p hm part => reading_of_returns (hp p hm)

theorem readList_eq {ps : List Phrase} (h : node.get? name = some (.array (documentEach ps)))
    (hp : ∀ p ∈ ps, Returns p) : readList (reading node) name = .ok ps :=
  optional_bind h rfl fun _ => readMembers_eq hp

theorem readRequiredList_eq {ps : List Phrase}
    (h : node.get? name = some (.array (documentEach ps))) (hp : ∀ p ∈ ps, Returns p) :
    readRequiredList (reading node) name = .ok ps :=
  required_bind h fun _ => readMembers_eq hp

theorem readParams_eq {o : Option (List Phrase)} (h : node.get? name = some (documentParams o))
    (hp : ∀ ps ∈ o, ∀ p ∈ ps, Returns p) : readParams (reading node) name = .ok o := by
  cases o with
  | none => exact optional_bind_null h
  | some ps =>
    refine optional_bind h rfl fun outer ho => ?_
    refine required_bind (j := .array (documentEach ps)) ?_ fun part hpart => ?_
    · rw [ho]
      exact get?_objectOf _ _
    · exact bind_of_eq (readMembers_eq (hp ps rfl) hpart) rfl

end

/-! ## Whole nodes -/

section
variable {kind : String} {s : Option Span} {fields : List (String × Json)} {p : Phrase}

theorem read_nodeOf (h : readNamed (reading (nodeOf kind s fields)) kind = .ok p)
    (hs : p.span = none) : read (nodeOf kind s fields) = .ok (p.withSpan s) := by
  rw [read_of_hasType (hasType_nodeOf kind s fields), h, span?_nodeOf]
  show Except.ok (p.orSpan s) = _
  rw [Phrase.orSpan, hs]
  rfl

theorem read_group {g : Grouping} {ts : List Phrase} (h : ∀ t ∈ ts, Returns t) :
    Returns (.group s g ts) := by
  cases g with
  | tuple =>
    refine read_nodeOf (p := .group none .tuple ts) ?_ rfl
    have types := get?_nodeOf "types" (groupNodeType .tuple) s
      [("types", .array (documentEach ts))]
    refine bind_of_eq (a := ts) ?_ rfl
    rw [Json.isSome_field?, types]
    exact readList_eq types h
  | union =>
    refine read_nodeOf (p := .group none .union ts) ?_ rfl
    exact bind_of_eq (readRequiredList_eq (get?_nodeOf _ _ _ _) h) rfl
  | intersection =>
    refine read_nodeOf (p := .group none .intersection ts) ?_ rfl
    exact bind_of_eq (readRequiredList_eq (get?_nodeOf _ _ _ _) h) rfl

theorem read_generic {i : TypeName} {as : Option (List Phrase)}
    (h : ∀ ts ∈ as, ∀ t ∈ ts, Returns t) :
    Returns (.generic s i as) := by
  refine read_nodeOf (p := .generic none i as) ?_ rfl
  refine bind_of_eq (readParams_eq (get?_nodeOf _ _ _ _) h) ?_
  refine required_bind (get?_nodeOf _ _ _ _) fun id hi => ?_
  rw [hi]
  exact bind_of_eq (readTypeName_document i) rfl

theorem read_property {k : PropertyKey} {v : Phrase} {o : Bool} {w : Option Variance} {c : Comments}
    (h : Returns v) : Returns (.property s k v o w c) := by
  refine read_nodeOf (p := .property none k v o w c) ?_ rfl
  refine required_bind (get?_nodeOf _ _ _ _) fun key hk => ?_
  rw [hk]
  refine bind_of_eq (readKey_document k) ?_
  refine bind_of_eq (readChild_eq (get?_nodeOf _ _ _ _) h) ?_
  refine bind_of_eq (readVariance_eq (get?_nodeOf _ _ _ _)) ?_
  refine bind_of_eq (readComments_eq (get?_nodeOf _ _ _ _)) ?_
  refine bind_of_eq (readComments_eq (get?_nodeOf _ _ _ _)) ?_
  refine bind_of_eq (readComments_eq (get?_nodeOf _ _ _ _)) ?_
  refine bind_of_eq (propertyVariance_eq w) ?_
  rw [flag_eq (get?_nodeOf _ _ _ _)]
  rfl

theorem read_indexer {i w : Json} {k v : Phrase} (hk : Returns k) (hv : Returns v) :
    Returns (.indexer s i k v w) := by
  refine read_nodeOf (p := .indexer none i k v w) ?_ rfl
  refine bind_of_eq (readName_eq (get?_nodeOf _ _ _ _)) ?_
  refine bind_of_eq (readChild_eq (get?_nodeOf _ _ _ _) hk) ?_
  refine bind_of_eq (readChild_eq (get?_nodeOf _ _ _ _) hv) ?_
  exact bind_of_eq (readVariance_eq (get?_nodeOf _ _ _ _)) rfl

theorem read_object {ps is cs : List Phrase} {x : Bool} (hp : ∀ p ∈ ps, Returns p)
    (hi : ∀ p ∈ is, Returns p) (hc : ∀ p ∈ cs, Returns p) : Returns (.object s ps is cs x) := by
  refine read_nodeOf (p := .object none ps is cs x) ?_ rfl
  refine bind_of_eq (readList_eq (get?_nodeOf _ _ _ _) hp) ?_
  refine bind_of_eq (readList_eq (get?_nodeOf _ _ _ _) hi) ?_
  refine bind_of_eq (readList_eq (get?_nodeOf _ _ _ _) hc) ?_
  rw [flag_eq (get?_nodeOf _ _ _ _)]
  rfl

theorem read_typeParameter {n w : Json} {b d : Option Phrase} (hb : ∀ p ∈ b, Returns p)
    (hd : ∀ p ∈ d, Returns p) : Returns (.typeParameter s n b d w) := by
  refine read_nodeOf (p := .typeParameter none n b d w) ?_ rfl
  refine required_bind (get?_nodeOf _ _ _ _) fun name hn => ?_
  refine bind_of_eq (readOptional_eq (get?_nodeOf _ _ _ _) hb) ?_
  refine bind_of_eq (readOptional_eq (get?_nodeOf _ _ _ _) hd) ?_
  refine bind_of_eq (readVariance_eq (get?_nodeOf _ _ _ _)) ?_
  rw [hn]
  rfl

theorem read_parameter {f : ParameterForm} {n : Json} {t : Option Phrase} {o : Bool}
    (h : ∀ p ∈ t, Returns p) : Returns (.parameter s f n t o) := by
  cases f with
  | ofType =>
    refine read_nodeOf (p := .parameter none .ofType n t o) ?_ rfl
    refine bind_of_eq (readName_eq (get?_nodeOf _ _ _ _)) ?_
    refine bind_of_eq (readOptional_eq (get?_nodeOf _ _ _ _) h) ?_
    rw [flag_eq (get?_nodeOf _ _ _ _)]
    rfl
  | declared =>
    refine read_nodeOf (p := .parameter none .declared n t o) ?_ rfl
    refine required_bind (get?_nodeOf _ _ _ _) fun name hn => ?_
    refine bind_of_eq (readOptional_eq (get?_nodeOf _ _ _ _) h) ?_
    rw [flag_eq (get?_nodeOf _ _ _ _), hn]
    rfl

theorem read_functionType {ps : List Phrase} {r rest : Option Phrase} {ts : Option (List Phrase)}
    (hps : ∀ p ∈ ps, Returns p) (hr : ∀ p ∈ r, Returns p) (hrest : ∀ p ∈ rest, Returns p)
    (hts : ∀ qs ∈ ts, ∀ q ∈ qs, Returns q) : Returns (.callable s .ofType ps r rest ts) := by
  refine read_nodeOf (p := .callable none .ofType ps r rest ts) ?_ rfl
  refine bind_of_eq (readList_eq (get?_nodeOf _ _ _ _) hps) ?_
  refine bind_of_eq (readOptional_eq (get?_nodeOf _ _ _ _) hr) ?_
  refine bind_of_eq (readOptional_eq (get?_nodeOf _ _ _ _) hrest) ?_
  exact bind_of_eq (readParams_eq (get?_nodeOf _ _ _ _) hts) rfl

/-! ## Declared functions -/

theorem read_restElement {n : Json} {t : Option Phrase} (h : ∀ p ∈ t, Returns p) :
    read (nodeOf "RestElement" s [("argument", nodeOf "Identifier" none [("name", n)]),
      ("typeAnnotation", documentMaybe t)]) = .ok (.parameter s .declared n t false) := by
  refine read_nodeOf (p := .parameter none .declared n t false) ?_ rfl
  refine required_bind (get?_nodeOf _ _ _ _) fun argument ha => ?_
  have type : argument.1.HasType "Identifier" := by
    rw [ha]
    exact hasType_nodeOf _ _ _
  have name : argument.1.get? "name" = some n := by
    rw [ha]
    exact get?_nodeOf _ _ _ _
  have inner : field? "typeAnnotation" argument.1 = none := by
    rw [Json.field?_eq_none_iff, ha]
    exact get?_nodeOf _ _ _ _
  obtain ⟨own, hown, ho⟩ := Json.exists_field? (get?_nodeOf "typeAnnotation" "RestElement" s
    [("argument", nodeOf "Identifier" none [("name", n)]), ("typeAnnotation", documentMaybe t)])
  refine optional_bind type rfl fun type ht => ?_
  rw [Option.any_some, ht, if_pos (Json.isText_str_self _)]
  refine required_bind name fun name hn => ?_
  rw [inner, hown, Option.any_some, hn]
  cases t with
  | none =>
    rw [ho]
    rfl
  | some p =>
    have ho : own.1 = p.document := ho
    rw [ho, truthy_document, if_pos rfl, Option.filter_some, ho, isNull_document]
    exact bind_of_eq (bind_of_eq (reading_of_returns (h p rfl) ho) rfl) rfl

variable {node : Json}

theorem readDeclaredParam_name {p : Phrase} (hd : p.isDeclared = true) (h : Returns p)
    (done : Declared) {part : Inner node} (hpart : part.1 = p.document) :
    readDeclaredParam (reading node) done part =
      .ok { done with params := done.params ++ [p] } := by
  obtain ⟨s, n, t, o, rfl⟩ := Phrase.exists_of_isDeclared hd
  have type : part.1.HasType "Identifier" := by
    rw [hpart]
    exact hasType_nodeOf _ _ _
  refine optional_bind type rfl fun type ht => ?_
  rw [Option.any_some, Option.any_some, ht, if_neg (by decide), if_pos (Json.isText_str_self _)]
  exact bind_of_eq (reading_of_returns h hpart) rfl

theorem foldlM_names : ∀ {ps : List Phrase} {parts : List (Inner node)} {done : Declared},
    (∀ p ∈ ps, p.isDeclared = true) → (∀ p ∈ ps, Returns p) →
    parts.map (·.1) = documentEach ps →
    parts.foldlM (readDeclaredParam (reading node)) done =
      .ok { done with params := done.params ++ ps }
  | [], [], done, _, _, _ => by
    rw [List.append_nil]
    rfl
  | p :: ps, part :: parts, done, hd, h, he => by
    obtain ⟨hpart, hparts⟩ := List.cons.inj he
    obtain ⟨hdp, hdps⟩ := List.forall_mem_cons.1 hd
    obtain ⟨hp, hps⟩ := List.forall_mem_cons.1 h
    rw [List.foldlM_cons]
    refine bind_of_eq (readDeclaredParam_name hdp hp done hpart) ?_
    rw [foldlM_names hdps hps hparts, List.append_assoc, List.singleton_append]

theorem foldlM_rest {rest : Option Phrase} (hd : ∀ p ∈ rest, p.isDeclared = true)
    (h : ∀ p ∈ rest, ∀ j ∈ documentRest rest, read j = .ok p) (ps : List Phrase)
    {parts : List (Inner node)} (hparts : parts.map (·.1) = documentRest rest) :
    parts.foldlM (readDeclaredParam (reading node)) ⟨ps, none⟩ = .ok ⟨ps, rest⟩ := by
  cases rest with
  | none =>
    cases List.map_eq_nil_iff.1 hparts
    rfl
  | some p =>
    obtain ⟨s, n, t, o, rfl⟩ := Phrase.exists_of_isDeclared (hd p rfl)
    obtain ⟨part, rfl, hpart⟩ := List.map_eq_singleton_iff.1 hparts
    have type : part.1.HasType "RestElement" := by
      rw [hpart]
      exact hasType_nodeOf _ _ _
    refine bind_of_eq ?_ rfl
    refine optional_bind type rfl fun type ht => ?_
    rw [Option.any_some, ht, if_pos (Json.isText_str_self _)]
    refine bind_of_eq ?_ rfl
    rw [reading, hpart]
    exact h _ rfl _ List.mem_cons_self

theorem read_functionDeclaration {n : Json} {ps : List Phrase} {r rest : Option Phrase}
    {ts : Option (List Phrase)} (hd : (Phrase.callable s (.declared n) ps r rest ts).DeclaresNames)
    (hps : ∀ p ∈ ps, Returns p) (hr : ∀ p ∈ r, Returns p)
    (hrest : ∀ p ∈ rest, ∀ j ∈ documentRest rest, read j = .ok p)
    (hts : ∀ qs ∈ ts, ∀ q ∈ qs, Returns q) : Returns (.callable s (.declared n) ps r rest ts) := by
  refine read_nodeOf (p := .callable none (.declared n) ps r rest ts) ?_ rfl
  refine optional_bind (get?_nodeOf _ _ _ _) rfl fun list hl => members_bind hl fun parts hp => ?_
  obtain ⟨names, dots, rfl, hnames, hdots⟩ := List.map_eq_append_iff.1 hp
  refine bind_of_eq (a := ⟨ps, rest⟩) ?_ ?_
  · rw [List.foldlM_append]
    exact bind_of_eq (foldlM_names hd.1 hps hnames) (foldlM_rest hd.2 hrest ps hdots)
  · refine bind_of_eq (readName_eq (get?_nodeOf _ _ _ _)) ?_
    refine bind_of_eq (readOptional_eq (get?_nodeOf _ _ _ _) hr) ?_
    exact bind_of_eq (readParams_eq (get?_nodeOf _ _ _ _) hts) rfl

/-! ## Whole trees -/

theorem returns_of_each {p : Phrase} (hp : p.Proper) (hn : p.isTypeName = false)
    (each : ∀ f ∈ p.fields, f.1 ≠ "id" → f.2.Each Returns)
    (rest : ∀ q ∈ p.declaredRest, ∀ j ∈ documentRest (some q), read j = .ok q) : Returns p := by
  -- The name of a generic type is not read as a node, so nothing is asked of the field that holds it.
  cases p with
  | typeName n => cases hn
  | primitive s w =>
    refine read_nodeOf (p := .primitive none w) ?_ rfl
    cases w <;> rfl
  | literal s k v =>
    refine read_nodeOf (p := .literal none k v) ?_ rfl
    cases k
    all_goals
      refine required_bind (get?_nodeOf _ _ _ _) fun value hv => ?_
      rw [hv]
      rfl
  | array s e =>
    have each : Returns e := by simpa [Phrase.fields] using each
    refine read_nodeOf (p := .array none e) ?_ rfl
    exact bind_of_eq (readChild_eq (get?_nodeOf _ _ _ _) each) rfl
  | group s g ts =>
    have each : ∀ t ∈ ts, Returns t := by simpa [Phrase.fields] using each
    exact read_group each
  | nullable s t =>
    have each : Returns t := by simpa [Phrase.fields] using each
    refine read_nodeOf (p := .nullable none t) ?_ rfl
    exact bind_of_eq (readChild_eq (get?_nodeOf _ _ _ _) each) rfl
  | typeof s a =>
    have each : Returns a := by simpa [Phrase.fields] using each
    refine read_nodeOf (p := .typeof none a) ?_ rfl
    exact bind_of_eq (readChild_eq (get?_nodeOf _ _ _ _) each) rfl
  | generic s i as =>
    have each : ∀ ts ∈ as, ∀ t ∈ ts, Returns t := by simpa [Phrase.fields] using each
    exact read_generic each
  | property s k v o w c =>
    have each : Returns v := by simpa [Phrase.fields] using each
    exact read_property each
  | spread s a =>
    have each : Returns a := by simpa [Phrase.fields] using each
    refine read_nodeOf (p := .spread none a) ?_ rfl
    exact bind_of_eq (readChild_eq (get?_nodeOf _ _ _ _) each) rfl
  | indexer s i k v w =>
    have each : Returns k ∧ Returns v := by simpa [Phrase.fields] using each
    exact read_indexer each.1 each.2
  | callProperty s v st =>
    have each : Returns v := by simpa [Phrase.fields] using each
    refine read_nodeOf (p := .callProperty none v st) ?_ rfl
    refine bind_of_eq (readChild_eq (get?_nodeOf _ _ _ _) each) ?_
    rw [flag_eq (get?_nodeOf _ _ _ _)]
    rfl
  | object s ps is cs x =>
    obtain ⟨hp, hi, hc⟩ : (∀ p ∈ ps, Returns p) ∧ (∀ p ∈ is, Returns p) ∧ ∀ p ∈ cs, Returns p := by
      simpa [Phrase.fields] using each
    exact read_object hp hi hc
  | typeParameter s n b d w =>
    have each : (∀ p ∈ b, Returns p) ∧ ∀ p ∈ d, Returns p := by simpa [Phrase.fields] using each
    exact read_typeParameter each.1 each.2
  | parameter s f n t o =>
    have each : ∀ p ∈ t, Returns p := by simpa [Phrase.fields] using each
    exact read_parameter each
  | callable s f ps r dots ts =>
    obtain ⟨hps, hr, hdots, hts⟩ : (∀ p ∈ ps, Returns p) ∧ (∀ p ∈ r, Returns p) ∧
        (∀ p ∈ dots, Returns p) ∧ ∀ qs ∈ ts, ∀ q ∈ qs, Returns q := by
      cases f <;> simpa [Phrase.fields] using each
    cases f with
    | ofType => exact read_functionType hps hr hdots hts
    | declared n =>
      refine read_functionDeclaration hp.declares hps hr ?_ hts
      rintro q rfl
      exact rest q rfl

end

end Reader

open Reader in
/-- The node written for a phrase is read as the phrase. -/
theorem read_document (p : Phrase) (h : p.Everywhere Phrase.Proper) (hn : p.isTypeName = false) :
    read p.document = .ok p := by
  have each : ∀ q : Phrase, sizeOf q ≤ sizeOf p → q.Everywhere Phrase.Proper →
      q.isTypeName = false → ∀ f ∈ q.fields, f.1 ≠ "id" → f.2.Each Returns := by
    rintro q hle hq hqn ⟨field, part⟩ hf hid
    have names := hq.here.names hqn _ hf hid
    have smaller := Nat.lt_of_lt_of_le (Phrase.weight_lt_of_mem_fields hf) hle
    cases part with
    | phrase r =>
      have : sizeOf r < sizeOf p := smaller
      exact read_document r (hq.below _ hf) names
    | phrases rs =>
      intro r hr
      have : sizeOf r < sizeOf p := Nat.lt_trans (List.sizeOf_lt_of_mem hr) smaller
      exact read_document r (hq.below _ hf r hr) (names r hr)
    | _ => trivial
  refine returns_of_each h.here hn (each p (Nat.le_refl _) h hn) fun q hq j hj => ?_
  -- The type of a rest parameter hangs two steps further down.
  have hf := Phrase.mem_fields_of_declaredRest hq
  have smaller := Phrase.weight_lt_of_mem_fields hf
  obtain ⟨s, n, t, o, rfl⟩ := Phrase.exists_of_isDeclared (h.here.declares.rest hq)
  cases h.here.rest _ hq
  cases List.mem_singleton.1 hj
  refine read_restElement ?_
  have type := each _ (Nat.le_of_lt smaller) (h.below _ hf) rfl
  simpa [Phrase.fields] using type
termination_by sizeOf p

/-- `function f<T = any>(options: {+'foo-bar'?: number}, ...more: T)`, with two comments. -/
def declaration : Phrase :=
  .callable (some ⟨.int 0, .int 75⟩) (.declared (.str "f"))
    [.parameter (some ⟨.int 20, .int 60⟩) .declared (.str "options")
      (some (.object none
        [.property none ⟨.str "foo-bar", true⟩ (.primitive none .number) true (some .plus)
          ⟨[⟨.str " The first.", false⟩], [], [⟨.str "*", true⟩]⟩]
        [] [] false)) false]
    none
    (some (.parameter none .declared (.str "more") (some (.generic none (.plain none "T") none))
      false))
    (some [.typeParameter none (.str "T") none (some (.primitive none .any)) .null])

theorem read_document_declaration :
    declaration.Everywhere Phrase.Proper ∧ declaration.isTypeName = false ∧
      read declaration.document = .ok declaration := by
  have h : declaration.Everywhere Phrase.Proper := by
    -- The phrases of the tree come first, so that the tree is gone when their fields are listed.
    simp only [declaration, Phrase.everywhere_callable, Phrase.everywhere_parameter,
      Phrase.everywhere_object, Phrase.everywhere_property, Phrase.everywhere_generic,
      Phrase.everywhere_plain, Phrase.everywhere_typeParameter, Phrase.everywhere_primitive,
      List.forall_mem_cons, Option.mem_def, forall_eq', Option.some.injEq]
    simp [Phrase.proper_iff, Phrase.fields, TypeName.fields, Phrase.DeclaresNames,
      Phrase.declaredRest, Phrase.isTypeName, Phrase.isDeclared, Phrase.optional?, -Prod.forall]
  exact ⟨h, rfl, read_document declaration h rfl⟩

end Reannotate.Flow
