import Reannotate.Proofs.Layout

/-!
# What the reader accepts

A document is read as a phrase exactly if it is in the grammar of nodes (`read_accepts_iff`). Each
small reader accepts what meets the content of its field, given that this holds for the nodes below;
the readers of single nodes then accept what is laid out as a node of their type.
-/

namespace Reannotate

def Accepts {α : Type} (x : Except Fault α) : Prop :=
  ∃ a, x = .ok a

section
variable {α β : Type} {P : Prop}

theorem accepts_ok (a : α) : Accepts (.ok a) := ⟨a, rfl⟩

theorem accepts_pure (a : α) : Accepts (pure a) := ⟨a, rfl⟩

theorem not_accepts_error (e : Fault) : ¬ Accepts (.error e : Except Fault α) := by
  rintro ⟨a, h⟩
  cases h

@[simp] theorem accepts_ok_bind (a : α) (f : α → Except Fault β) :
    Accepts (.ok a >>= f) ↔ Accepts (f a) := Iff.rfl

@[simp] theorem accepts_error_bind (e : Fault) (f : α → Except Fault β) :
    Accepts (.error e >>= f) ↔ False :=
  iff_false_intro (not_accepts_error e)

/-- What comes next may use the result, as long as it is accepted for all results or for none. -/
theorem accepts_bind {x : Except Fault α} {f : α → Except Fault β} (h : ∀ a, Accepts (f a) ↔ P) :
    Accepts (x >>= f) ↔ Accepts x ∧ P := by
  cases x with
  | ok a => simp [h a, accepts_ok]
  | error e => simp [not_accepts_error]

theorem accepts_map (x : Except Fault α) (f : α → β) : Accepts (do return f (← x)) ↔ Accepts x := by
  cases x with
  | ok a => exact iff_of_true (accepts_ok _) (accepts_ok _)
  | error e => simp [not_accepts_error]

theorem accepts_mapM {f : α → Except Fault β} {as : List α} :
    Accepts (as.mapM f) ↔ ∀ a ∈ as, Accepts (f a) := by
  induction as with
  | nil =>
    rw [List.mapM_nil]
    exact iff_of_true (accepts_ok _) (by simp)
  | cons a as ih =>
    rw [List.mapM_cons, accepts_bind fun b => accepts_map _ _, ih, List.forall_mem_cons]

theorem accepts_foldlM {Q : β → Prop} {f : α → β → Except Fault α}
    (h : ∀ a b, Accepts (f a b) ↔ Q b) {bs : List β} {a : α} :
    Accepts (bs.foldlM f a) ↔ ∀ b ∈ bs, Q b := by
  induction bs generalizing a with
  | nil =>
    rw [List.foldlM_nil]
    exact iff_of_true (accepts_ok _) (by simp)
  | cons b bs ih => rw [List.foldlM_cons, accepts_bind fun a => ih, h, List.forall_mem_cons]

end

namespace Flow.Reader

open Json (Inner required field? get? HasType isText_iff)

/-! ## Look-ups -/

section
variable {α : Type} {node : Json} {name : String} {P : Json → Prop}

theorem accepts_required {f : Inner node → Except Fault α}
    (h : ∀ part, Accepts (f part) ↔ P part.1) :
    Accepts (required name node >>= f) ↔ ∃ j ∈ node.get? name, P j := by
  unfold required
  cases hf : field? name node with
  | none =>
    rw [Json.field?_eq_none_iff] at hf
    simp [hf]
  | some part =>
    rw [Json.get?_of_field? hf]
    simp [h part]

theorem accepts_required_bind {f : Inner node → Except Fault α} {C : Prop}
    (h : ∀ part, Accepts (f part) ↔ P part.1 ∧ C) :
    Accepts (required name node >>= f) ↔ (∃ j ∈ node.get? name, P j) ∧ C := by
  rw [accepts_required (P := fun j => P j ∧ C) h]
  constructor
  · rintro ⟨j, hj, hP, hC⟩
    exact ⟨⟨j, hj, hP⟩, hC⟩
  · rintro ⟨⟨j, hj, hP⟩, hC⟩
    exact ⟨j, hj, hP, hC⟩

theorem accepts_optional (ho : node.isObject = true) {f : Option (Inner node) → Except Fault α}
    (hn : Accepts (f none)) (hs : ∀ part, Accepts (f (some part)) ↔ P part.1) :
    Accepts (Json.optional name node >>= f) ↔ ∀ j ∈ node.get? name, j = .null ∨ P j := by
  unfold Json.optional
  rw [if_pos ho]
  cases hf : field? name node with
  | none =>
    rw [Json.field?_eq_none_iff] at hf
    simpa [hf] using hn
  | some part =>
    rw [Json.get?_of_field? hf]
    by_cases hp : part.1.isNull = true
    · have := Json.isNull_iff.1 hp
      simpa [Option.filter, this, Json.isNull] using hn
    · have : part.1 ≠ .null := fun he => hp (Json.isNull_iff.2 he)
      simpa [this, Option.filter, hp] using hs part

theorem accepts_members {f : List (Inner node) → Except Fault α}
    (h : ∀ parts, Accepts (f parts) ↔ ∀ part ∈ parts, P part.1)
    (hP : ∀ j, P j → j.isObject = true) (outer : Inner node) :
    Accepts (outer.members >>= f) ↔ outer.1.ListOf P := by
  by_cases ht : outer.1.truthy = true
  · by_cases ha : ∃ items, outer.1 = .array items
    · obtain ⟨items, hi⟩ := ha
      obtain ⟨parts, hm, rfl⟩ := members_array hi
      rw [hm, accepts_ok_bind, h]
      constructor
      · intro all
        exact .inr ⟨_, hi, by simpa using all⟩
      · rintro (hf | ⟨items, he, all⟩)
        · exact absurd (ht.symm.trans hf) (by simp)
        · cases hi.symm.trans he
          simpa using all
    · have others : ∀ items, outer.1 ≠ .array items := fun items hi => ha ⟨items, hi⟩
      refine iff_of_false ?_ (by simp [Json.ListOf, others, ht])
      cases hm : outer.members with
      | error e => simp
      | ok parts =>
        obtain ⟨part, hp, hno⟩ := members_others others ht hm
        rw [accepts_ok_bind, h]
        intro all
        rw [hP _ (all part hp)] at hno
        cases hno
  · have ht : outer.1.truthy = false := by simpa using ht
    rw [members_false ht, accepts_ok_bind, h]
    simp [Json.ListOf, ht]

end

/-! ## Small readers -/

section
variable {node : Json}

theorem accepts_expectText (j : Json) : Accepts (expectText j) ↔ ∃ text, j = .str text := by
  cases j with
  | scalar s => cases s <;> simp [expectText, Json.text?, accepts_ok, not_accepts_error]
  | _ => simp [expectText, Json.text?, not_accepts_error]

theorem isTypeName_iff {j : Json} : IsTypeName j ↔ ∃ type ∈ j.get? "type",
    (type = .str "Identifier" ∧ ∃ name ∈ j.get? "name", ∃ text, name = .str text) ∨
    (type = .str "QualifiedTypeIdentifier" ∧ ∃ q ∈ j.get? "qualification",
      IsTypeName q ∧ ∃ i ∈ j.get? "id", IsTypeName i) := by
  constructor
  · intro h
    cases h with
    | plain type name => exact ⟨_, type, .inl ⟨rfl, _, name, _, rfl⟩⟩
    | qualified type q i hq hi => exact ⟨_, type, .inr ⟨rfl, _, q, hq, _, i, hi⟩⟩
  · rintro ⟨type, ht, ⟨rfl, name, hn, text, rfl⟩ | ⟨rfl, q, hq, hq', i, hi, hi'⟩⟩
    · exact .plain ht hn
    · exact .qualified ht hq hi hq' hi'

theorem accepts_readTypeName (node : Json) : Accepts (readTypeName node) ↔ IsTypeName node := by
  have below : ∀ part : Inner node, Accepts (readTypeName part.1) ↔ IsTypeName part.1 := by
    intro part
    have := part.2
    exact accepts_readTypeName part.1
  unfold readTypeName
  rw [isTypeName_iff]
  refine accepts_required fun type => ?_
  by_cases plain : type.1.isText "Identifier" = true
  · rw [if_pos plain, accepts_required (P := fun name => ∃ text, name = .str text) fun name =>
      (accepts_map _ _).trans (accepts_expectText _)]
    simp [isText_iff.1 plain, Text.ofString_inj]
  · rw [if_neg plain]
    by_cases qualified : type.1.isText "QualifiedTypeIdentifier" = true
    · rw [if_pos qualified, accepts_required (P := fun q => IsTypeName q ∧
        ∃ i ∈ node.get? "id", IsTypeName i) fun q => ?_]
      · simp [isText_iff.1 qualified, Text.ofString_inj]
      · rw [accepts_bind fun _ => accepts_required (P := IsTypeName) fun i =>
          (accepts_map _ _).trans (below i), below]
    · rw [isText_iff] at plain qualified
      rw [if_neg (isText_iff.not.2 qualified)]
      exact iff_of_false (not_accepts_error _) (by simp [plain, qualified])
termination_by node.depth

theorem accepts_given {α : Type} {name : String} {f : Inner node → α} :
    Accepts (required name node >>= fun part => pure (f part)) ↔
      (node.get? name).isSome = true := by
  have given : ∀ part, Accepts (pure (f part)) ↔ True :=
    fun _ => iff_of_true (accepts_pure _) trivial
  refine (accepts_required (P := fun _ => True) given).trans ?_
  simp [Option.isSome_iff_exists]

theorem accepts_given_bind {α : Type} {G : Json → Prop} {name : String} {C : Prop}
    {f : Inner node → Except Fault α} (h : ∀ part, Accepts (f part) ↔ C) :
    Accepts (required name node >>= f) ↔ Content.value.Meets G (node.get? name) ∧ C := by
  rw [accepts_required_bind (P := fun _ => True) fun part => by rw [h part, true_and]]
  simp [Content.Meets, Option.isSome_iff_exists]

theorem accepts_readKey (node : Json) : Accepts (readKey node) ↔ IsKey node := by
  unfold readKey
  rw [accepts_required (P := fun type =>
    (type = .str "Identifier" ∧ (node.get? "name").isSome = true) ∨
      (type = .str "StringLiteral" ∧ (node.get? "value").isSome = true)) fun type => ?_]
  · constructor
    · rintro ⟨type, ht, ⟨rfl, h⟩ | ⟨rfl, h⟩⟩
      · exact .inl ⟨ht, h⟩
      · exact .inr ⟨ht, h⟩
    · rintro (⟨ht, h⟩ | ⟨ht, h⟩)
      · exact ⟨_, ht, .inl ⟨rfl, h⟩⟩
      · exact ⟨_, ht, .inr ⟨rfl, h⟩⟩
  · by_cases plain : type.1.isText "Identifier" = true
    · rw [if_pos plain, accepts_given]
      simp [isText_iff.1 plain, Text.ofString_inj]
    · rw [if_neg plain]
      by_cases quoted : type.1.isText "StringLiteral" = true
      · rw [if_pos quoted, accepts_given]
        simp [isText_iff.1 quoted, Text.ofString_inj]
      · rw [isText_iff] at plain quoted
        rw [if_neg (isText_iff.not.2 quoted)]
        exact iff_of_false (not_accepts_error _) (by simp [plain, quoted])

theorem accepts_readComment (node : Json) :
    Accepts (readComment node) ↔ (node.get? "value").isSome = true := by
  by_cases ho : node.isObject = true
  · have type : ∀ value : Inner node, Accepts (Json.optional "type" node >>= fun type =>
        pure (Comment.mk value.1 (!(type.any fun t => t.1.isText "CommentLine")))) := by
      intro value
      unfold Json.optional
      rw [if_pos ho]
      exact accepts_pure _
    unfold readComment
    rw [accepts_required (P := fun _ => True) fun value => iff_of_true (type value) trivial]
    simp [Option.isSome_iff_exists]
  · have hv : node.get? "value" = none := by
      cases hv : node.get? "value" with
      | none => rfl
      | some value => exact absurd (Json.isObject_of_get? hv) ho
    unfold readComment
    rw [accepts_required (P := fun _ => False) fun _ => ?_]
    · simp [hv]
    · unfold Json.optional
      rw [if_neg ho]
      exact iff_of_false (not_accepts_error _) not_false

theorem accepts_propertyVariance (kind : Json) : Accepts (propertyVariance kind) ↔
    kind = .null ∨ kind = .str "plus" ∨ kind = .str "minus" := by
  rw [← Json.isNull_iff, ← isText_iff, ← isText_iff]
  unfold propertyVariance
  split
  · simp [*, accepts_ok]
  · split
    · simp [*, accepts_ok]
    · split
      · simp [*, accepts_ok]
      · simp [*, not_accepts_error]

variable (ho : node.isObject = true)
include ho

theorem accepts_readName {G : Json → Prop} (name : String) :
    Accepts (readName node name) ↔ Content.named.Meets G (node.get? name) :=
  accepts_optional ho (accepts_pure _) fun _ => accepts_given

theorem accepts_readVariance {G : Json → Prop} :
    Accepts (readVariance node) ↔ Content.variance.Meets G (node.get? "variance") :=
  accepts_optional ho (accepts_pure _) fun _ => accepts_given

theorem accepts_readVariance_bind {α : Type} {f : Json → Except Fault α} {Q : Json → Prop}
    {C : Prop} (hnull : Q .null) (h : ∀ kind, Accepts (f kind) ↔ Q kind ∧ C) :
    Accepts (readVariance node >>= f) ↔
      (∀ j ∈ node.get? "variance", j = .null ∨ ∃ kind ∈ j.get? "kind", Q kind) ∧ C := by
  by_cases hC : C
  · simp only [hC, and_true] at h ⊢
    unfold readVariance
    rw [bind_assoc]
    refine accepts_optional ho ((h .null).2 hnull) fun part => ?_
    rw [bind_assoc]
    exact accepts_required fun kind => h kind.1
  · simp only [hC, and_false] at h ⊢
    rw [accepts_bind h, and_false]

theorem accepts_optional_list {α : Type} {name : String} {P : Json → Prop}
    {f : Option (Inner node) → Except Fault α} (hn : Accepts (f none))
    (hs : ∀ part, Accepts (f (some part)) ↔ part.1.ListOf P) :
    Accepts (Json.optional name node >>= f) ↔ ∀ j ∈ node.get? name, j.ListOf P := by
  rw [accepts_optional ho hn hs]
  refine forall₂_congr fun j _ => or_iff_right_of_imp ?_
  rintro rfl
  exact .inl rfl

theorem accepts_readComments {G : Json → Prop} (name : String) :
    Accepts (readComments node name) ↔ Content.comments.Meets G (node.get? name) := by
  refine accepts_optional_list ho (accepts_pure _) fun list => ?_
  refine accepts_members (fun comments => ?_) (fun j hj => ?_) list
  · simp only [accepts_mapM, accepts_readComment]
  · obtain ⟨value, hv⟩ := Option.isSome_iff_exists.1 hj
    exact Json.isObject_of_get? hv

end

/-! ## Readers of nodes -/

theorem layout_primitive {kind : String} {which : Primitive} (hk : primitive? kind = some which)
    (node : Json) : layout node kind = some [] := by
  unfold primitive? at hk
  split at hk
  case h_11 => cases hk
  all_goals rfl

theorem layout_literal {kind : String} {literal : LiteralKind}
    (hk : literalKind? kind = some literal) (node : Json) :
    layout node kind = some [("value", .value)] := by
  unfold literalKind? at hk
  split at hk
  case h_4 => cases hk
  all_goals rfl

section
variable {node : Json} {below : Below node} {G : Json → Prop}
variable (h : ∀ part, Accepts (below part) ↔ G part.1)
include h

theorem accepts_readChild (name : String) :
    Accepts (readChild below name) ↔ Content.node.Meets G (node.get? name) :=
  accepts_required h

theorem accepts_readMaybe (o : Option (Inner node)) :
    Accepts (readMaybe below o) ↔ ∀ part ∈ o, G part.1 := by
  cases o with
  | none => exact iff_of_true (accepts_ok _) (by simp)
  | some part =>
    refine ((accepts_map _ _).trans (h part)).trans ?_
    simp

theorem accepts_restType (argument : Inner node) : Accepts (readMaybe below (Option.filter
      (fun t => !t.1.isNull) (if (field? "typeAnnotation" node).any fun t => t.1.truthy
        then field? "typeAnnotation" node
        else (field? "typeAnnotation" argument.1).map argument.within))) ↔
    if Json.flag "typeAnnotation" node then ∃ type ∈ node.get? "typeAnnotation", G type
    else ∀ type ∈ argument.1.get? "typeAnnotation", type = .null ∨ G type := by
  have inner : (∀ part ∈ Option.filter (fun t => !t.1.isNull)
      ((field? "typeAnnotation" argument.1).map argument.within), G part.1) ↔
      ∀ type ∈ argument.1.get? "typeAnnotation", type = .null ∨ G type := by
    cases ht : field? "typeAnnotation" argument.1 with
    | none =>
      rw [Json.field?_eq_none_iff] at ht
      simp [ht]
    | some type =>
      rw [Json.get?_of_field? ht]
      by_cases hn : type.1.isNull = true
      · have hn := Json.isNull_iff.1 hn
        simp [Option.filter, Inner.within, hn, Json.isNull]
      · have : type.1 ≠ .null := fun he => hn (Json.isNull_iff.2 he)
        simp [Option.filter, Inner.within, hn, this]
  rw [accepts_readMaybe h]
  unfold Json.flag
  cases hf : field? "typeAnnotation" node with
  | none => simpa using inner
  | some type =>
    by_cases ht : type.1.truthy = true
    · have hn : type.1.isNull = false := by
        cases hn : type.1.isNull with
        | false => rfl
        | true =>
          rw [Json.isNull_iff.1 hn] at ht
          cases ht
      simp [ht, Option.filter, hn, Json.get?_of_field? hf]
    · simpa [ht] using inner

theorem accepts_readRestElement : Accepts (readRestElement below) ↔
    ∃ fields, layout node "RestElement" = some fields ∧ Fills G node fields := by
  have argument : Accepts (readRestElement below) ↔ ∃ j ∈ node.get? "argument", IsRestName j ∧
      if Json.flag "typeAnnotation" node then ∃ type ∈ node.get? "typeAnnotation", G type
      else ∀ type ∈ j.get? "typeAnnotation", type = .null ∨ G type := by
    refine accepts_required fun argument => ?_
    by_cases ht : argument.1.HasType "Identifier"
    · obtain ⟨type, htype, hk⟩ := optional_type ht.isObject
      rw [htype, accepts_ok_bind, if_pos ((hk _).2 ht)]
      refine (accepts_given_bind (G := G) fun name => (accepts_map _ _).trans
        (accepts_restType h argument)).trans ?_
      simp [IsRestName, ht, Content.Meets]
    · refine iff_of_false ?_ fun hr => ht hr.1.1
      by_cases object : argument.1.isObject = true
      · obtain ⟨type, htype, hk⟩ := optional_type object
        rw [htype, accepts_ok_bind, if_neg ((hk _).not.2 ht)]
        exact not_accepts_error _
      · unfold Json.optional
        rw [if_neg object]
        exact not_accepts_error _
  have fields : layout node "RestElement" = if Json.flag "typeAnnotation" node
      then some [("argument", .restName), ("typeAnnotation", .node)]
      else some [("argument", .annotatedRestName)] := rfl
  rw [argument, fields]
  by_cases own : Json.flag "typeAnnotation" node = true
  · simp [own, Content.Meets, ← and_assoc]
  · simp [own, Content.Meets]

variable (ho : node.isObject = true)
include ho

theorem accepts_readOptional (name : String) :
    Accepts (readOptional below name) ↔ Content.optionalNode.Meets G (node.get? name) :=
  accepts_optional ho (accepts_pure _) fun part => (accepts_map _ _).trans (h part)

theorem accepts_readProperty : Accepts (readProperty below) ↔ Fills G node
    [("key", .key), ("value", .node), ("optional", .flag), ("variance", .propertyVariance),
      ("leadingComments", .comments), ("innerComments", .comments),
      ("trailingComments", .comments)] := by
  have comments : ∀ (key : PropertyKey) (value : Phrase) (kind : Json), Accepts (do
      let leading ← readComments node "leadingComments"
      let inner ← readComments node "innerComments"
      let trailing ← readComments node "trailingComments"
      let variance ← propertyVariance kind
      return Phrase.property none key value (Json.flag "optional" node) variance
        ⟨leading, inner, trailing⟩) ↔
      (kind = .null ∨ kind = .str "plus" ∨ kind = .str "minus") ∧ Fills G node
        [("leadingComments", .comments), ("innerComments", .comments),
          ("trailingComments", .comments)] := by
    intro key value kind
    rw [accepts_bind fun _ => accepts_bind fun _ => accepts_bind fun _ => accepts_map _ _,
      accepts_readComments (G := G) ho, accepts_readComments (G := G) ho,
      accepts_readComments (G := G) ho, accepts_propertyVariance]
    simp only [fills_cons, fills_nil]
    constructor
    · rintro ⟨leading, inner, trailing, hk⟩
      exact ⟨hk, leading, inner, trailing, trivial⟩
    · rintro ⟨hk, leading, inner, trailing, -⟩
      exact ⟨leading, inner, trailing, hk⟩
  unfold readProperty
  rw [accepts_required_bind fun key => (accepts_bind fun key => accepts_bind fun value =>
      accepts_readVariance_bind ho (.inl rfl) (comments key value)).trans
    (and_congr_left fun _ => accepts_readKey key.1), accepts_readChild h]
  simp only [fills_cons, fills_nil]
  constructor
  · rintro ⟨key, value, variance, rest⟩
    exact ⟨key, value, trivial, variance, rest⟩
  · rintro ⟨key, value, -, variance, rest⟩
    exact ⟨key, value, variance, rest⟩

theorem accepts_readIndexer : Accepts (readIndexer below) ↔ Fills G node
    [("id", .named), ("key", .node), ("value", .node), ("variance", .variance)] := by
  unfold readIndexer
  rw [accepts_bind fun _ => accepts_bind fun _ => accepts_bind fun _ => accepts_map _ _,
    accepts_readName (G := G) ho, accepts_readChild h, accepts_readChild h,
    accepts_readVariance (G := G) ho]
  simp

theorem accepts_readFunctionTypeParam : Accepts (readFunctionTypeParam below) ↔ Fills G node
    [("name", .named), ("typeAnnotation", .optionalNode), ("optional", .flag)] := by
  unfold readFunctionTypeParam
  rw [accepts_bind fun _ => accepts_map _ _, accepts_readName (G := G) ho,
    accepts_readOptional h ho]
  simp [Content.Meets]

theorem accepts_readTypeParameter : Accepts (readTypeParameter below) ↔ Fills G node
    [("name", .value), ("bound", .optionalNode), ("default", .optionalNode),
      ("variance", .variance)] := by
  unfold readTypeParameter
  rw [accepts_given_bind (G := G) fun _ =>
      accepts_bind fun _ => accepts_bind fun _ => accepts_map _ _,
    accepts_readOptional h ho, accepts_readOptional h ho, accepts_readVariance (G := G) ho]
  simp [Content.Meets]

theorem accepts_readIdentifier : Accepts (readIdentifier below) ↔ Fills G node
    [("name", .value), ("typeAnnotation", .optionalNode), ("optional", .flag)] := by
  unfold readIdentifier
  rw [accepts_given_bind (G := G) fun _ => accepts_map _ _, accepts_readOptional h ho]
  simp [Content.Meets]

variable (hG : ∀ j, G j → j.isObject = true)
include hG

omit ho in
theorem accepts_readMembers (part : Inner node) :
    Accepts (readMembers below (some part)) ↔ part.1.ListOf G := by
  refine accepts_members (fun parts => ?_) hG part
  simp only [readAll, accepts_mapM, h]

theorem accepts_readList (name : String) :
    Accepts (readList below name) ↔ Content.nodes.Meets G (node.get? name) :=
  accepts_optional_list ho (accepts_pure _) fun part => accepts_readMembers h hG part

omit ho in
theorem accepts_readRequiredList (name : String) :
    Accepts (readRequiredList below name) ↔ Content.requiredNodes.Meets G (node.get? name) :=
  accepts_required fun part => accepts_readMembers h hG part

theorem accepts_readParams (name : String) :
    Accepts (readParams below name) ↔ Content.params.Meets G (node.get? name) := by
  refine accepts_optional ho (accepts_pure _) fun outer => ?_
  exact accepts_required fun params =>
    (accepts_map _ _).trans (accepts_readMembers h hG (outer.within params))

theorem accepts_readGeneric : Accepts (readGeneric below) ↔
    Fills G node [("typeParameters", .params), ("id", .typeName)] := by
  unfold readGeneric
  rw [accepts_bind fun args => accepts_required (P := IsTypeName) fun id =>
    (accepts_map _ _).trans (accepts_readTypeName id.1), accepts_readParams h ho hG]
  simp [Content.Meets]

theorem accepts_readTuple : Accepts (readTuple below) ↔ Fills G node
    [(if (node.get? "types").isSome then "types" else "elementTypes", .nodes)] := by
  unfold readTuple
  rw [accepts_map, accepts_readList h ho hG, Json.isSome_field?, fills_cons, fills_nil, and_true]

theorem accepts_readObject : Accepts (readObject below) ↔ Fills G node
    [("properties", .nodes), ("indexers", .nodes), ("callProperties", .nodes)] := by
  unfold readObject
  rw [accepts_bind fun _ => accepts_bind fun _ => accepts_map _ _, accepts_readList h ho hG,
    accepts_readList h ho hG, accepts_readList h ho hG]
  simp

theorem accepts_readFunctionType : Accepts (readFunctionType below) ↔ Fills G node
    [("params", .nodes), ("returnType", .optionalNode), ("rest", .optionalNode),
      ("typeParameters", .params)] := by
  unfold readFunctionType
  rw [accepts_bind fun _ => accepts_bind fun _ => accepts_bind fun _ => accepts_map _ _,
    accepts_readList h ho hG, accepts_readOptional h ho, accepts_readOptional h ho,
    accepts_readParams h ho hG]
  simp

omit ho hG in
theorem accepts_readDeclaredParam (done : Declared) (param : Inner node) :
    Accepts (readDeclaredParam below done param) ↔
      (param.1.HasType "RestElement" ∨ param.1.HasType "Identifier") ∧ G param.1 := by
  unfold readDeclaredParam
  by_cases object : param.1.isObject = true
  · obtain ⟨type, htype, hk⟩ := optional_type object
    rw [htype, accepts_ok_bind]
    by_cases rest : param.1.HasType "RestElement"
    · rw [if_pos ((hk _).2 rest), accepts_map, h]
      simp [rest]
    · rw [if_neg ((hk _).not.2 rest)]
      by_cases name : param.1.HasType "Identifier"
      · rw [if_pos ((hk _).2 name), accepts_map, h]
        simp [name]
      · rw [if_neg ((hk _).not.2 name)]
        exact iff_of_false (not_accepts_error _) (by simp [rest, name])
  · unfold Json.optional
    rw [if_neg object]
    refine iff_of_false (not_accepts_error _) fun hp => object ?_
    exact hp.1.elim HasType.isObject HasType.isObject

theorem accepts_readFunctionDeclaration : Accepts (readFunctionDeclaration below) ↔ Fills G node
    [("params", .declared), ("id", .named), ("returnType", .optionalNode),
      ("typeParameters", .params)] := by
  have params : Accepts (readDeclaredParams below) ↔
      Content.declared.Meets G (node.get? "params") := by
    refine accepts_optional_list ho (accepts_pure _) fun list => ?_
    refine accepts_members (fun parts => ?_) (fun j hj => hG j hj.2) list
    exact accepts_foldlM (accepts_readDeclaredParam h)
  rw [readFunctionDeclaration_eq,
    accepts_bind fun _ => accepts_bind fun _ => accepts_bind fun _ => accepts_map _ _,
    params, accepts_readName (G := G) ho, accepts_readOptional h ho, accepts_readParams h ho hG]
  simp

theorem accepts_readNamed (kind : String) : Accepts (readNamed below kind) ↔
    ∃ fields, layout node kind = some fields ∧ Fills G node fields := by
  have known : ∀ {fields : List (String × Content)} {x : Except Fault Phrase},
      layout node kind = some fields → (Accepts x ↔ Fills G node fields) →
      (Accepts x ↔ ∃ fields, layout node kind = some fields ∧ Fills G node fields) := by
    intro fields x hl hx
    simp [hl, hx]
  have around : ∀ {name : String} {f : Phrase → Phrase},
      Accepts (do return f (← readChild below name)) ↔
      Fills G node [(name, .node)] := by
    intro name f
    rw [accepts_map, accepts_readChild h, fills_cons, fills_nil, and_true]
  have group : ∀ {g : Grouping}, Accepts (do
      return Phrase.group none g (← readRequiredList below "types")) ↔
      Fills G node [("types", .requiredNodes)] := by
    intro g
    rw [accepts_map, accepts_readRequiredList h hG, fills_cons, fills_nil, and_true]
  unfold readNamed
  split
  · rename_i hk
    exact known (layout_primitive hk node) (iff_of_true (accepts_ok _) (by simp))
  · rename_i hk _
    refine known (layout_literal hk node) ?_
    rw [accepts_given, fills_cons, fills_nil, and_true]
    rfl
  · split
    · refine known rfl ?_
      rw [accepts_readChild h, fills_cons, fills_nil, and_true]
    · exact known rfl around
    · exact known rfl (accepts_readTuple h ho hG)
    · exact known rfl group
    · exact known rfl group
    · exact known rfl around
    · exact known rfl around
    · exact known rfl (accepts_readGeneric h ho hG)
    · exact known rfl (accepts_readObject h ho hG)
    · exact known rfl (accepts_readProperty h ho)
    · exact known rfl around
    · exact known rfl (accepts_readIndexer h ho)
    · exact known rfl around
    · exact known rfl (accepts_readFunctionType h ho hG)
    · exact known rfl (accepts_readFunctionTypeParam h ho)
    · exact known rfl (accepts_readTypeParameter h ho)
    · exact known rfl (accepts_readIdentifier h ho)
    · exact accepts_readRestElement h
    · exact known rfl (accepts_readFunctionDeclaration h ho hG)
    · refine iff_of_false (not_accepts_error _) ?_
      rintro ⟨fields, hl, -⟩
      unfold layout at hl
      split at hl
      all_goals contradiction

end

end Flow.Reader

namespace Flow

open Reader

theorem accepts_readKind {node : Json} {below : Below node} {kind : Text} :
    Accepts (readKind below kind) ↔
      ∃ name, kind = Text.ofString name ∧ Accepts (readNamed below name) := by
  unfold readKind
  cases hs : kind.string? with
  | none =>
    refine iff_of_false (not_accepts_error _) ?_
    rintro ⟨name, rfl, -⟩
    rw [Text.string?_ofString] at hs
    cases hs
  | some name =>
    rw [string?_eq_some_iff] at hs
    simp [hs, Text.ofString_inj]

theorem accepts_read (j : Json) : Accepts (read j) ↔
    ∃ kind, j.HasType kind ∧ Accepts (readNamed (fun part : Json.Inner j => read part.1) kind) := by
  rw [read]
  cases hk : kindOf j with
  | error e =>
    refine iff_of_false (not_accepts_error e) ?_
    rintro ⟨kind, ht, -⟩
    rw [kindOf_eq_ok_iff.2 ht] at hk
    cases hk
  | ok kind =>
    rw [accepts_ok_bind, accepts_map, accepts_readKind]
    have ht := kindOf_eq_ok_iff.1 hk
    constructor
    · rintro ⟨name, rfl, h⟩
      exact ⟨name, ht, h⟩
    · rintro ⟨name, ht', h⟩
      refine ⟨name, ?_, h⟩
      cases ht.symm.trans ht'
      rfl

/-- A document is read as a phrase exactly if it is in the least set of documents that are laid out
as nodes, with documents of that set for the nodes inside. -/
theorem read_accepts_iff (j : Json) : (∃ p, read j = .ok p) ↔ j ∈ grammar.lfp := by
  have below : ∀ part : Json.Inner j, Accepts (read part.1) ↔ part.1 ∈ grammar.lfp := fun part => by
    have := part.2
    exact read_accepts_iff part.1
  have object : ∀ k, k ∈ grammar.lfp → k.isObject = true := by
    intro k hk
    rw [← grammar.map_lfp] at hk
    obtain ⟨kind, fields, ht, -⟩ := hk
    exact ht.isObject
  rw [← grammar.map_lfp]
  refine (accepts_read j).trans ?_
  constructor
  · rintro ⟨kind, ht, h⟩
    obtain ⟨fields, hl, hf⟩ := (accepts_readNamed below ht.isObject object kind).1 h
    exact ⟨kind, fields, ht, hl, hf⟩
  · rintro ⟨kind, fields, ht, hl, hf⟩
    exact ⟨kind, ht, (accepts_readNamed below ht.isObject object kind).2 ⟨fields, hl, hf⟩⟩
termination_by j.depth

end Flow

end Reannotate
