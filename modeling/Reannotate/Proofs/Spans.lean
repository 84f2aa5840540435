import Reannotate.Proofs.Findings

/-!
# Where spans come from

A phrase has the span of its node, or else of the innermost wrapper around the node that has one
(`Spanned`). `Content.children` lists the nodes in a field; they are what the parts of a phrase are
read of, so what is known of one node and its phrase is known of all below (`spanned_of_reads`).
-/

namespace Reannotate

namespace Json

theorem depth_lt_of_get? {name : String} {j k : Json} (h : j.get? name = some k) :
    k.depth < j.depth := by
  obtain ⟨part, -, rfl⟩ := exists_field? h
  exact part.2

theorem depth_lt_of_mem_items {j k : Json} (h : k ∈ items (some j)) : k.depth < j.depth := by
  cases j with
  | array js => exact Nat.lt_succ_of_le (depth_le_of_mem_items h)
  | _ => cases h

theorem eq_of_mem_present {j : Json} {found : Option Json} (h : j ∈ present found) :
    found = some j := by
  cases found with
  | none => cases h
  | some k =>
    rw [present] at h
    split at h
    · cases h
    · exact h

theorem present_of_holds {found : Option Json} (h : holds found = true) :
    present found = found := by
  cases found with
  | none => rfl
  | some j =>
    rw [present]
    split
    · rename_i hn
      rw [isNull_iff.1 hn] at h
      cases h
    · rfl

end Json

namespace Flow

open Json (Inner get? present items depth_lt_of_get? depth_lt_of_mem_items
  eq_of_mem_present present_of_holds)

def Phrase.parts : Phrase → List Phrase
  | .typeName _ | .primitive _ _ | .literal _ _ _ => []
  | .array _ p | .nullable _ p | .typeof _ p | .spread _ p | .property _ _ p _ _ _
  | .callProperty _ p _ => [p]
  | .group _ _ ts => ts
  | .generic _ _ as => as.getD []
  | .indexer _ _ k v _ => [k, v]
  | .object _ ps is cs _ => ps ++ (is ++ cs)
  | .typeParameter _ _ b d _ => b.toList ++ d.toList
  | .parameter _ _ _ t _ => t.toList
  | .callable _ .ofType ps r rest ts => ps ++ (r.toList ++ (rest.toList ++ ts.getD []))
  | .callable _ (.declared _) ps r rest ts => ps ++ rest.toList ++ (r.toList ++ ts.getD [])

/-- Of several rest parameters the last one counts. -/
def declaredNodes (params : List Json) : List Json :=
  (params.filter fun p => p.HasType "Identifier") ++
    (params.filter fun p => p.HasType "RestElement").getLast?.toList

def Content.children (content : Content) (found : Option Json) : List Json :=
  match content with
  | .node => found.toList
  | .optionalNode => (present found).toList
  | .nodes | .requiredNodes => items found
  | .params => items (found.bind (get? "params"))
  | .annotatedRestName => (present (found.bind (get? "typeAnnotation"))).toList
  | .declared => declaredNodes (items found)
  | _ => []

def childrenIn (node : Json) (fields : List (String × Content)) : List Json :=
  fields.flatMap fun f => f.2.children (node.get? f.1)

@[simp] theorem childrenIn_nil (node : Json) : childrenIn node [] = [] := rfl

@[simp] theorem childrenIn_cons (node : Json) (name : String) (content : Content)
    (fields : List (String × Content)) : childrenIn node ((name, content) :: fields) =
      content.children (node.get? name) ++ childrenIn node fields := rfl

/-- `j` is the node with these wrappers around it, the innermost first. -/
inductive Wrapping : Json → List Json → Json → Prop
  | bare (node : Json) : Wrapping node [] node
  | around {w j node : Json} {ws : List Json} (type : w.HasType "TypeAnnotation")
      (inner : w.get? "typeAnnotation" = some j) (h : Wrapping j ws node) :
      Wrapping w (ws ++ [w]) node

/-- The phrase has the span of its node or of the innermost wrapper with a span, and so have its
parts. -/
inductive Spanned : Json → Phrase → Prop
  | mk {j node : Json} {ws : List Json} {p : Phrase} {kind : String}
      {fields : List (String × Content)} (wrapping : Wrapping j ws node)
      (type : node.HasType kind) (bare : kind ≠ "TypeAnnotation")
      (span : p.span = (node :: ws).findSome? Reader.span?) (hl : layout node kind = some fields)
      (parts : List.Forall₂ Spanned (childrenIn node fields) p.parts) : Spanned j p

/-! ## Children -/

theorem Content.depth_lt_of_mem_children {node child : Json} {name : String} {content : Content}
    (h : child ∈ content.children (node.get? name)) : child.depth < node.depth := by
  have inside : ∀ {found : Option Json}, (∀ j ∈ found, j.depth < node.depth) →
      ∀ name j, found.bind (get? name) = some j → j.depth < node.depth := by
    intro found hfound name j hj
    obtain ⟨outer, houter, hj⟩ := Option.bind_eq_some_iff.1 hj
    exact (depth_lt_of_get? hj).trans (hfound outer houter)
  have listed : ∀ {found : Option Json}, (∀ j ∈ found, j.depth < node.depth) →
      ∀ k ∈ items found, k.depth < node.depth := by
    intro found hfound k hk
    cases found with
    | none => cases hk
    | some j => exact (depth_lt_of_mem_items hk).trans (hfound j rfl)
  have here : ∀ j ∈ node.get? name, j.depth < node.depth := fun j => depth_lt_of_get?
  cases content with
  | node => exact here child (Option.mem_toList.1 h)
  | optionalNode => exact here child (eq_of_mem_present (Option.mem_toList.1 h))
  | nodes => exact listed here child h
  | requiredNodes => exact listed here child h
  | params => exact listed (inside here "params") child h
  | annotatedRestName =>
    exact inside here "typeAnnotation" child (eq_of_mem_present (Option.mem_toList.1 h))
  | declared =>
    refine listed here child ?_
    rcases List.mem_append.1 h with h | h
    · exact List.mem_of_mem_filter h
    · exact List.mem_of_mem_filter (List.mem_of_getLast? (Option.mem_toList.1 h))
  | _ => cases h

theorem depth_lt_of_mem_childrenIn {node child : Json} {fields : List (String × Content)}
    (h : child ∈ childrenIn node fields) : child.depth < node.depth := by
  obtain ⟨f, -, hf⟩ := List.mem_flatMap.1 h
  exact Content.depth_lt_of_mem_children hf

namespace Reader

section
variable {node : Json} {name : String}

theorem readMaybe_inv {part : Option (Inner node)} {o : Option Phrase}
    (h : readMaybe (reading node) part = .ok o) :
    List.Forall₂ Reads (part.map (·.1)).toList o.toList := by
  cases part with
  | none =>
    cases h
    exact .nil
  | some part =>
    obtain ⟨p, hp, h⟩ := exists_of_bind h
    cases h
    exact .cons hp .nil

theorem readOptional_inv {o : Option Phrase} (h : readOptional (reading node) name = .ok o) :
    List.Forall₂ Reads (present (node.get? name)).toList o.toList := by
  obtain ⟨found, hfound, h⟩ := exists_of_bind h
  rw [← optional_eq_ok hfound]
  exact readMaybe_inv h

theorem readMembers_inv {part : Inner node} {ps : List Phrase}
    (h : readMembers (reading node) (some part) = .ok ps) :
    List.Forall₂ Reads (items (some part.1)) ps := by
  obtain ⟨parts, hparts, h⟩ := onItems_readMembers node (some part) ps h
  rw [Option.map_some] at hparts
  rw [← hparts, List.forall₂_map_left_iff]
  exact forall₂_of_mapM h

theorem readRequiredList_inv {ps : List Phrase}
    (h : readRequiredList (reading node) name = .ok ps) :
    List.Forall₂ Reads (items (node.get? name)) ps := by
  obtain ⟨part, hpart, h⟩ := exists_of_bind h
  rw [required_eq_ok hpart]
  exact readMembers_inv h

theorem readParams_inv {o : Option (List Phrase)} (h : readParams (reading node) name = .ok o) :
    List.Forall₂ Reads (items ((node.get? name).bind (get? "params"))) (o.getD []) := by
  obtain ⟨found, hfound, h⟩ := exists_of_bind h
  rw [← bind_get?_present, ← optional_eq_ok hfound]
  cases found with
  | none =>
    cases h
    exact .nil
  | some outer =>
    obtain ⟨params, hparams, h⟩ := exists_of_bind h
    obtain ⟨ps, hps, h⟩ := exists_of_bind h
    cases h
    have hps := readMembers_inv hps
    rw [Option.map_some, Option.bind_some, required_eq_ok hparams]
    exact hps

end

structure ReadOf (seen : List Json) (d : Declared) : Prop where
  params : List.Forall₂ Reads (seen.filter fun p => p.HasType "Identifier") d.params
  rest : List.Forall₂ Reads (seen.filter fun p => p.HasType "RestElement").getLast?.toList
    d.rest.toList

theorem ReadOf.step {node : Json} {seen : List Json} {d e : Declared} {param : Inner node}
    (hd : ReadOf seen d) (h : readDeclaredParam (reading node) d param = .ok e) :
    ReadOf (seen ++ [param.1]) e := by
  obtain ⟨type, htype, h⟩ := exists_of_bind h
  have object : param.1.isObject = true := by
    unfold Json.optional at htype
    split at htype
    · assumption
    · cases htype
  obtain ⟨type', htype', hk⟩ := optional_type object
  cases htype.symm.trans htype'
  by_cases rest : param.1.HasType "RestElement"
  · rw [if_pos ((hk _).2 rest)] at h
    obtain ⟨p, hp, h⟩ := exists_of_bind h
    cases h
    -- it takes the place of any rest parameter before it
    have other : ¬ param.1.HasType "Identifier" := fun name => absurd (rest.eq name) (by decide)
    refine ⟨?_, ?_⟩
    · rw [List.filter_append, List.filter_cons_of_neg (by simpa using other), List.filter_nil,
        List.append_nil]
      exact hd.params
    · rw [List.filter_append, List.filter_cons_of_pos (by simpa using rest), List.filter_nil,
        List.getLast?_concat]
      exact .cons hp .nil
  · rw [if_neg ((hk _).not.2 rest)] at h
    by_cases name : param.1.HasType "Identifier"
    · rw [if_pos ((hk _).2 name)] at h
      obtain ⟨p, hp, h⟩ := exists_of_bind h
      cases h
      refine ⟨?_, ?_⟩
      · rw [List.filter_append, List.filter_cons_of_pos (by simpa using name), List.filter_nil]
        exact List.rel_append hd.params (.cons hp .nil)
      · rw [List.filter_append, List.filter_cons_of_neg (by simpa using rest), List.filter_nil,
          List.append_nil]
        exact hd.rest
    · rw [if_neg ((hk _).not.2 name)] at h
      cases h

theorem ReadOf.run {node : Json} {params : List (Inner node)} {seen : List Json} {d e : Declared}
    (hd : ReadOf seen d) (h : params.foldlM (readDeclaredParam (reading node)) d = .ok e) :
    ReadOf (seen ++ params.map (·.1)) e := by
  induction params generalizing seen d with
  | nil =>
    cases h
    simpa using hd
  | cons param params ih =>
    rw [List.foldlM_cons] at h
    obtain ⟨d', hd', h⟩ := exists_of_bind h
    have := ih (hd.step hd') h
    rwa [List.append_assoc] at this

theorem readDeclaredParams_inv {node : Json} {d : Declared}
    (h : readDeclaredParams (reading node) = .ok d) :
    List.Forall₂ Reads (declaredNodes (items (node.get? "params")))
      (d.params ++ d.rest.toList) := by
  obtain ⟨params, hparams, h⟩ := exists_items h
    (f := fun params => params.foldlM (readDeclaredParam (reading node)) ⟨[], none⟩)
    (onItems_members rfl (fun _ => rfl) fun _ => isObject_of_declared)
  have none : ReadOf [] ⟨[], none⟩ := ⟨.nil, .nil⟩
  have all := none.run h
  rw [List.nil_append, hparams] at all
  exact List.rel_append all.params all.rest

/-! ## Nodes and their parts -/

/-- A phrase as it is read of a node with these fields, before it gets the span of the node. -/
structure PartsRead (node : Json) (fields : List (String × Content)) (p : Phrase) : Prop where
  span : p.span = none
  parts : List.Forall₂ Reads (childrenIn node fields) p.parts

section
variable {node : Json} {p : Phrase}

theorem readFunctionType_parts (h : readFunctionType (reading node) = .ok p) :
    PartsRead node [("params", .nodes), ("returnType", .optionalNode), ("rest", .optionalNode),
      ("typeParameters", .params)] p := by
  obtain ⟨ps, hps, h⟩ := exists_of_bind h
  obtain ⟨r, hr, h⟩ := exists_of_bind h
  obtain ⟨rest, hrest, h⟩ := exists_of_bind h
  obtain ⟨ts, hts, h⟩ := exists_of_bind h
  cases h
  refine ⟨rfl, ?_⟩
  simp only [childrenIn_cons, childrenIn_nil, List.append_nil]
  exact List.rel_append (readList_inv hps) (List.rel_append (readOptional_inv hr)
    (List.rel_append (readOptional_inv hrest) (readParams_inv hts)))

theorem readFunctionDeclaration_parts (h : readFunctionDeclaration (reading node) = .ok p) :
    PartsRead node [("params", .declared), ("id", .named), ("returnType", .optionalNode),
      ("typeParameters", .params)] p := by
  rw [readFunctionDeclaration_eq] at h
  obtain ⟨d, hd, h⟩ := exists_of_bind h
  obtain ⟨name, -, h⟩ := exists_of_bind h
  obtain ⟨r, hr, h⟩ := exists_of_bind h
  obtain ⟨ts, hts, h⟩ := exists_of_bind h
  cases h
  refine ⟨rfl, ?_⟩
  simp only [childrenIn_cons, childrenIn_nil, List.append_nil]
  exact List.rel_append (readDeclaredParams_inv hd)
    (List.rel_append (readOptional_inv hr) (readParams_inv hts))

theorem readObject_parts (h : readObject (reading node) = .ok p) :
    PartsRead node [("properties", .nodes), ("indexers", .nodes), ("callProperties", .nodes)]
      p := by
  obtain ⟨ps, is, cs, x, rfl, hps, his, hcs⟩ := readObject_inv h
  refine ⟨rfl, ?_⟩
  simp only [childrenIn_cons, childrenIn_nil, List.append_nil]
  exact List.rel_append hps (List.rel_append his hcs)

theorem readProperty_parts (h : readProperty (reading node) = .ok p) :
    PartsRead node [("key", .key), ("value", .node), ("optional", .flag),
      ("variance", .propertyVariance), ("leadingComments", .comments),
      ("innerComments", .comments), ("trailingComments", .comments)] p := by
  obtain ⟨key, -, h⟩ := exists_of_bind h
  obtain ⟨k, -, h⟩ := exists_of_bind h
  obtain ⟨v, hv, h⟩ := exists_of_bind h
  obtain ⟨kind, -, h⟩ := exists_of_bind h
  obtain ⟨leading, -, h⟩ := exists_of_bind h
  obtain ⟨inner, -, h⟩ := exists_of_bind h
  obtain ⟨trailing, -, h⟩ := exists_of_bind h
  obtain ⟨w, -, h⟩ := exists_of_bind h
  cases h
  obtain ⟨value, value_eq, hvalue⟩ := readChild_inv hv
  refine ⟨rfl, ?_⟩
  simp only [childrenIn_cons, childrenIn_nil, value_eq]
  exact .cons hvalue .nil

theorem readIndexer_parts (h : readIndexer (reading node) = .ok p) :
    PartsRead node [("id", .named), ("key", .node), ("value", .node), ("variance", .variance)]
      p := by
  obtain ⟨id, -, h⟩ := exists_of_bind h
  obtain ⟨k, hk, h⟩ := exists_of_bind h
  obtain ⟨v, hv, h⟩ := exists_of_bind h
  obtain ⟨w, -, h⟩ := exists_of_bind h
  cases h
  obtain ⟨key, key_eq, hkey⟩ := readChild_inv hk
  obtain ⟨value, value_eq, hvalue⟩ := readChild_inv hv
  refine ⟨rfl, ?_⟩
  simp only [childrenIn_cons, childrenIn_nil, key_eq, value_eq]
  exact .cons hkey (.cons hvalue .nil)

theorem readTuple_parts (h : readTuple (reading node) = .ok p) : PartsRead node
    [(if (node.get? "types").isSome then "types" else "elementTypes", .nodes)] p := by
  obtain ⟨ps, hps, h⟩ := exists_of_bind h
  cases h
  refine ⟨rfl, ?_⟩
  rw [childrenIn_cons, childrenIn_nil, List.append_nil, ← Json.isSome_field?]
  exact readList_inv hps

theorem readGeneric_parts (h : readGeneric (reading node) = .ok p) :
    PartsRead node [("typeParameters", .params), ("id", .typeName)] p := by
  obtain ⟨as, has, h⟩ := exists_of_bind h
  obtain ⟨id, -, h⟩ := exists_of_bind h
  obtain ⟨name, -, h⟩ := exists_of_bind h
  cases h
  refine ⟨rfl, ?_⟩
  simp only [childrenIn_cons, childrenIn_nil, Content.children, List.append_nil]
  exact readParams_inv has

theorem readFunctionTypeParam_parts (h : readFunctionTypeParam (reading node) = .ok p) :
    PartsRead node [("name", .named), ("typeAnnotation", .optionalNode), ("optional", .flag)]
      p := by
  obtain ⟨name, -, h⟩ := exists_of_bind h
  obtain ⟨t, ht, h⟩ := exists_of_bind h
  cases h
  refine ⟨rfl, ?_⟩
  simp only [childrenIn_cons, childrenIn_nil, Content.children, List.append_nil]
  exact readOptional_inv ht

theorem readIdentifier_parts (h : readIdentifier (reading node) = .ok p) :
    PartsRead node [("name", .value), ("typeAnnotation", .optionalNode), ("optional", .flag)]
      p := by
  obtain ⟨name, -, h⟩ := exists_of_bind h
  obtain ⟨t, ht, h⟩ := exists_of_bind h
  cases h
  refine ⟨rfl, ?_⟩
  simp only [childrenIn_cons, childrenIn_nil, Content.children, List.append_nil]
  exact readOptional_inv ht

theorem readTypeParameter_parts (h : readTypeParameter (reading node) = .ok p) :
    PartsRead node [("name", .value), ("bound", .optionalNode), ("default", .optionalNode),
      ("variance", .variance)] p := by
  obtain ⟨name, -, h⟩ := exists_of_bind h
  obtain ⟨b, hb, h⟩ := exists_of_bind h
  obtain ⟨d, hd, h⟩ := exists_of_bind h
  obtain ⟨w, -, h⟩ := exists_of_bind h
  cases h
  refine ⟨rfl, ?_⟩
  simp only [childrenIn_cons, childrenIn_nil, Content.children, List.append_nil]
  exact List.rel_append (readOptional_inv hb) (readOptional_inv hd)

theorem readRestElement_parts (h : readRestElement (reading node) = .ok p) :
    ∃ fields, layout node "RestElement" = some fields ∧ PartsRead node fields p := by
  obtain ⟨argument, hargument, h⟩ := exists_of_bind h
  obtain ⟨type, -, h⟩ := exists_of_bind h
  split at h
  · obtain ⟨name, -, h⟩ := exists_of_bind h
    obtain ⟨t, ht, h⟩ := exists_of_bind h
    cases h
    have ht := readMaybe_inv ht
    rw [map_chosen, restType] at ht
    cases own : node.flag "typeAnnotation" with
    | true =>
      rw [own, if_pos rfl] at ht
      refine ⟨_, if_pos own, rfl, ?_⟩
      simp only [childrenIn_cons, childrenIn_nil, List.append_nil]
      rw [present_of_holds ((flag_eq_holds _ _).symm.trans own)] at ht
      exact ht
    | false =>
      rw [own, if_neg Bool.false_ne_true] at ht
      refine ⟨_, if_neg (by simp [own]), rfl, ?_⟩
      simp only [childrenIn_cons, childrenIn_nil, List.append_nil, Content.children,
        required_eq_ok hargument]
      exact ht
  · cases h

theorem readNamed_parts {kind : String} (wrapper : kind ≠ "TypeAnnotation")
    (h : readNamed (reading node) kind = .ok p) :
    ∃ fields, layout node kind = some fields ∧ PartsRead node fields p := by
  -- for phrases that stand around one part
  have around : ∀ {name : String} {f : Phrase → Phrase},
      (∀ q, (f q).span = none ∧ (f q).parts = [q]) →
      (do return f (← readChild (reading node) name)) = .ok p →
      PartsRead node [(name, .node)] p := by
    intro name f hf h
    obtain ⟨q, hq, h⟩ := exists_of_bind h
    cases h
    obtain ⟨child, child_eq, hchild⟩ := readChild_inv hq
    refine ⟨(hf q).1, ?_⟩
    rw [(hf q).2, childrenIn_cons, child_eq]
    exact .cons hchild .nil
  have group : ∀ {g : Grouping},
      (do return Phrase.group none g (← readRequiredList (reading node) "types")) = .ok p →
      PartsRead node [("types", .requiredNodes)] p := by
    intro g h
    obtain ⟨ps, hps, h⟩ := exists_of_bind h
    cases h
    refine ⟨rfl, ?_⟩
    rw [childrenIn_cons, childrenIn_nil, List.append_nil]
    exact readRequiredList_inv hps
  unfold readNamed at h
  split at h
  · rename_i hk
    cases h
    exact ⟨_, layout_primitive hk node, rfl, .nil⟩
  · rename_i hk _
    obtain ⟨value, -, h⟩ := exists_of_bind h
    cases h
    exact ⟨_, layout_literal hk node, rfl, .nil⟩
  · split at h
    · contradiction
    · exact ⟨_, rfl, around (fun _ => ⟨rfl, rfl⟩) h⟩
    · exact ⟨_, rfl, readTuple_parts h⟩
    · exact ⟨_, rfl, group h⟩
    · exact ⟨_, rfl, group h⟩
    · exact ⟨_, rfl, around (fun _ => ⟨rfl, rfl⟩) h⟩
    · exact ⟨_, rfl, around (fun _ => ⟨rfl, rfl⟩) h⟩
    · exact ⟨_, rfl, readGeneric_parts h⟩
    · exact ⟨_, rfl, readObject_parts h⟩
    · exact ⟨_, rfl, readProperty_parts h⟩
    · exact ⟨_, rfl, around (fun _ => ⟨rfl, rfl⟩) h⟩
    · exact ⟨_, rfl, readIndexer_parts h⟩
    · exact ⟨_, rfl, around (f := fun q => .callProperty none q _) (fun _ => ⟨rfl, rfl⟩) h⟩
    · exact ⟨_, rfl, readFunctionType_parts h⟩
    · exact ⟨_, rfl, readFunctionTypeParam_parts h⟩
    · exact ⟨_, rfl, readTypeParameter_parts h⟩
    · exact ⟨_, rfl, readIdentifier_parts h⟩
    · exact readRestElement_parts h
    · exact ⟨_, rfl, readFunctionDeclaration_parts h⟩
    · cases h

end

end Reader

open Reader

theorem Phrase.span_orSpan (s : Option Span) (p : Phrase) : (p.orSpan s).span = p.span.or s := by
  unfold orSpan
  split
  · rename_i none
    rw [span_withSpan, Option.isNone_iff_eq_none.1 none, Option.none_or]
  · rename_i some
    rw [Option.or_of_isSome (by simpa [Option.isSome_iff_ne_none] using some)]

theorem Phrase.parts_withSpan (s : Option Span) (p : Phrase) : (p.withSpan s).parts = p.parts := by
  cases p with
  | typeName n => cases n <;> rfl
  | callable s f ps r rest ts => cases f <;> rfl
  | _ => rfl

theorem Phrase.parts_orSpan (s : Option Span) (p : Phrase) : (p.orSpan s).parts = p.parts := by
  unfold orSpan
  split
  · exact parts_withSpan s p
  · rfl

theorem Spanned.around {w j : Json} {p : Phrase} (type : w.HasType "TypeAnnotation")
    (inner : w.get? "typeAnnotation" = some j) (h : Spanned j p) :
    Spanned w (p.orSpan (span? w)) := by
  cases h with
  | @mk _ node ws _ _ _ wrapping htype bare span hl parts =>
    refine .mk (.around type inner wrapping) htype bare ?_ hl ?_
    · rw [Phrase.span_orSpan, span, ← List.cons_append, List.findSome?_append,
        List.findSome?_singleton]
    · rw [Phrase.parts_orSpan]
      exact parts

theorem spanned_of_reads {j : Json} {p : Phrase} (h : Reads j p) : Spanned j p := by
  obtain ⟨kind, type, -⟩ := (accepts_read j).1 ⟨p, h⟩
  obtain ⟨q, hq, rfl⟩ := read_inv type h
  by_cases wrapper : kind = "TypeAnnotation"
  · subst wrapper
    obtain ⟨child, child_eq, hchild⟩ := readChild_inv hq
    have := Json.depth_lt_of_get? child_eq
    exact (spanned_of_reads hchild).around type child_eq
  · obtain ⟨fields, hl, span, parts⟩ := readNamed_parts wrapper hq
    refine .mk (.bare j) type wrapper ?_ hl ?_
    · rw [Phrase.span_orSpan, span, Option.none_or, List.findSome?_singleton]
    · have below : ∀ child ∈ childrenIn j fields, child.depth < j.depth :=
        fun _ => depth_lt_of_mem_childrenIn
      rw [Phrase.parts_orSpan]
      exact ((List.forall₂_and_left _ _).2 ⟨below, parts⟩).imp fun child q h =>
        have := h.1
        spanned_of_reads h.2
termination_by j.depth

end Flow

end Reannotate
