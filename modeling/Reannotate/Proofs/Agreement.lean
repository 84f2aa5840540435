import Reannotate.Proofs.Change
import Reannotate.Proofs.Findings

/-!
# Two readings

What two documents have in common, the phrases that are read of them have in common too, if both are
read. `Content.Agree` says for each field how much the two have to have in common, so that a given
change makes one phrase of the two (`both_readNamed`).
-/

namespace Reannotate

def Both {α β : Type} (R : α → β → Prop) (x : Except Fault α) (y : Except Fault β) : Prop :=
  ∀ a b, x = .ok a → y = .ok b → R a b

section
variable {α β γ δ : Type} {R : α → β → Prop} {S : γ → δ → Prop}

theorem both_ok {a : α} {b : β} (h : R a b) : Both R (.ok a) (.ok b) := by
  intro a' b' ha hb
  cases ha
  cases hb
  exact h

theorem both_error_left (e : Fault) (y : Except Fault β) : Both R (.error e) y := nofun

theorem both_error_right (x : Except Fault α) (e : Fault) : Both R x (.error e) := nofun

theorem Both.mono {R' : α → β → Prop} {x : Except Fault α} {y : Except Fault β} (h : Both R x y)
    (hR : ∀ a b, R a b → R' a b) : Both R' x y :=
  fun a b ha hb => hR a b (h a b ha hb)

theorem Both.bind {x : Except Fault α} {y : Except Fault β} {f : α → Except Fault γ}
    {g : β → Except Fault δ} (h : Both R x y) (hfg : ∀ a b, R a b → Both S (f a) (g b)) :
    Both S (x >>= f) (y >>= g) := by
  cases x with
  | error e => exact both_error_left e _
  | ok a =>
    cases y with
    | error e => exact both_error_right _ e
    | ok b => exact hfg a b (h a b rfl rfl)

theorem Both.then_pure {x : Except Fault α} {y : Except Fault β} {f : α → γ} {g : β → δ}
    (h : Both R x y) (hfg : ∀ a b, R a b → S (f a) (g b)) :
    Both S (do return f (← x)) (do return g (← y)) :=
  h.bind fun a b hab => both_ok (hfg a b hab)

theorem both_trivial (x : Except Fault α) (y : Except Fault β) : Both (fun _ _ => True) x y :=
  fun _ _ _ _ => trivial

theorem Both.mapM {f : α → Except Fault γ} {g : β → Except Fault δ}
    (hfg : ∀ a b, R a b → Both S (f a) (g b)) {as : List α} {bs : List β}
    (h : List.Forall₂ R as bs) : Both (List.Forall₂ S) (as.mapM f) (bs.mapM g) := by
  induction h with
  | nil =>
    rw [List.mapM_nil, List.mapM_nil]
    exact both_ok .nil
  | cons hab _ ih =>
    rw [List.mapM_cons, List.mapM_cons]
    exact (hfg _ _ hab).bind fun c d hcd => ih.then_pure fun cs ds hcs => .cons hcd hcs

theorem Both.foldlM {f : γ → α → Except Fault γ} {g : δ → β → Except Fault δ}
    (hfg : ∀ c d a b, S c d → R a b → Both S (f c a) (g d b)) {as : List α} {bs : List β}
    (h : List.Forall₂ R as bs) {c : γ} {d : δ} (hcd : S c d) :
    Both S (as.foldlM f c) (bs.foldlM g d) := by
  induction h generalizing c d with
  | nil => exact both_ok hcd
  | cons hab _ ih =>
    rw [List.foldlM_cons, List.foldlM_cons]
    exact (hfg c d _ _ hcd hab).bind fun c' d' h' => ih h'

end

namespace Flow

open Json (Inner required flag present items holds)

namespace Reader

/-! ## Look-ups -/

section
variable {α β : Type} {R : Json → Json → Prop} {S : α → β → Prop} {node node' : Json}
  {name : String}

theorem both_required (h : Option.Rel R (node.get? name) (node'.get? name)) :
    Both (fun a b => R a.1 b.1) (required name node) (required name node') := by
  intro a b ha hb
  rw [required_eq_ok ha, required_eq_ok hb] at h
  cases h with
  | some h => exact h

theorem both_required_items {F : Inner node → Except Fault α} {G : Inner node' → Except Fault β}
    (hFG : ∀ a b, List.Forall₂ R (items (some a.1)) (items (some b.1)) → Both S (F a) (G b))
    (h : List.Forall₂ R (items (node.get? name)) (items (node'.get? name))) :
    Both S (required name node >>= F) (required name node' >>= G) := by
  have found : Both (fun a b => node.get? name = some a.1 ∧ node'.get? name = some b.1)
      (required name node) (required name node') :=
    fun a b ha hb => ⟨required_eq_ok ha, required_eq_ok hb⟩
  refine found.bind fun a b hab => hFG a b ?_
  rwa [← hab.1, ← hab.2]

theorem both_required_eq (h : node.get? name = node'.get? name) :
    Both (fun a b => a.1 = b.1) (required name node) (required name node') := by
  refine both_required ?_
  rw [h]
  cases node'.get? name with
  | none => exact .none
  | some j => exact .some rfl

theorem rel_mono {R' : Json → Json → Prop} (hR : ∀ a b, R a b → R' a b) {l r : Option Json}
    (h : Option.Rel R l r) : Option.Rel R' l r := by
  cases h with
  | none => exact .none
  | some h => exact .some (hR _ _ h)

theorem rel_of_map {o : Option (Inner node)} {o' : Option (Inner node')}
    (h : Option.Rel R (o.map (·.1)) (o'.map (·.1))) :
    Option.Rel (fun a b => R a.1 b.1) o o' := by
  cases o with
  | none =>
    cases o' with
    | none => exact .none
    | some b => cases h
  | some a =>
    cases o' with
    | none => cases h
    | some b =>
      cases h with
      | some h => exact .some h

theorem both_optional_rel
    (h : Option.Rel R (present (node.get? name)) (present (node'.get? name))) :
    Both (Option.Rel fun a b => R a.1 b.1) (Json.optional name node)
      (Json.optional name node') := by
  intro a b ha hb
  refine rel_of_map ?_
  rwa [optional_eq_ok ha, optional_eq_ok hb]

theorem forall₂_of_map {as : List (Inner node)} {bs : List (Inner node')}
    (h : List.Forall₂ R (as.map (·.1)) (bs.map (·.1))) :
    List.Forall₂ (fun a b => R a.1 b.1) as bs :=
  List.forall₂_map_right_iff.1 (List.forall₂_map_left_iff.1 h)

theorem Both.onItems {F : Option (Inner node) → Except Fault α}
    {G : Option (Inner node') → Except Fault β} {f : List (Inner node) → Except Fault α}
    {g : List (Inner node') → Except Fault β} (hF : OnItems F f) (hG : OnItems G g)
    (hfg : ∀ as bs, List.Forall₂ (fun a b => R a.1 b.1) as bs → Both S (f as) (g bs))
    {l : Option (Inner node)} {r : Option (Inner node')}
    (h : List.Forall₂ R (items (l.map (·.1))) (items (r.map (·.1)))) : Both S (F l) (G r) := by
  intro a b ha hb
  obtain ⟨as, has, hfa⟩ := hF l a ha
  obtain ⟨bs, hbs, hgb⟩ := hG r b hb
  rw [← has, ← hbs] at h
  exact hfg as bs (forall₂_of_map h) a b hfa hgb

theorem both_optional_items {F : Option (Inner node) → Except Fault α}
    {G : Option (Inner node') → Except Fault β} {f : List (Inner node) → Except Fault α}
    {g : List (Inner node') → Except Fault β} (hF : OnItems F f) (hG : OnItems G g)
    (hfg : ∀ as bs, List.Forall₂ (fun a b => R a.1 b.1) as bs → Both S (f as) (g bs))
    (h : List.Forall₂ R (items (node.get? name)) (items (node'.get? name))) :
    Both S (Json.optional name node >>= F) (Json.optional name node' >>= G) := by
  have found : Both (fun l r => l.map (·.1) = present (node.get? name) ∧
      r.map (·.1) = present (node'.get? name)) (Json.optional name node)
      (Json.optional name node') :=
    fun l r hl hr => ⟨optional_eq_ok hl, optional_eq_ok hr⟩
  refine found.bind fun l r hlr => Both.onItems hF hG hfg ?_
  rwa [hlr.1, hlr.2, items_present, items_present]

end

/-! ## Fields that agree -/

end Reader

open Reader

/-- What two fields with this content have in common, as far as `c` leaves it the same. -/
def Content.Agree (c : Change) (R : Json → Json → Prop) (content : Content) (l r : Option Json) :
    Prop :=
  match content with
  | .value => l = r
  | .flag => holds l = holds r
  | .node => Option.Rel R l r
  | .optionalNode => Option.Rel R (present l) (present r)
  | .nodes | .requiredNodes => List.Forall₂ R (items l) (items r)
  | .params => Option.Rel
    (fun j k => List.Forall₂ R (items (j.get? "params")) (items (k.get? "params")))
    (present l) (present r)
  | .named => Option.Rel SameName (present l) (present r)
  | .typeName => Option.Rel (fun j k =>
    Both (fun m n => c.generic m = c.generic n) (readTypeName j) (readTypeName k)) l r
  | .key => Option.Rel (fun j k => Both Eq (readKey j) (readKey k)) l r
  | .variance => c.note (varianceKind l) = c.note (varianceKind r)
  | .propertyVariance => Both (fun v w => c.variance v = c.variance w)
    (Reader.propertyVariance (varianceKind l)) (Reader.propertyVariance (varianceKind r))
  | .comments => List.Forall₂ SameComment (items l) (items r)
  | .restName => Option.Rel SameName l r
  | .annotatedRestName => Option.Rel (fun j k => SameName j k ∧
      Option.Rel R (present (j.get? "typeAnnotation")) (present (k.get? "typeAnnotation"))) l r
  | .declared => List.Forall₂ (fun j k => R j k ∧ j.get? "type" = k.get? "type") (items l) (items r)

def Agrees (c : Change) (R : Json → Json → Prop) (j k : Json) (fields : List (String × Content)) :
    Prop :=
  ∀ f ∈ fields, f.2.Agree c R (j.get? f.1) (k.get? f.1)

section
variable {c : Change} {R : Json → Json → Prop} {j k : Json}

@[simp] theorem agrees_nil : Agrees c R j k [] ↔ True := by
  simp [Agrees]

@[simp] theorem agrees_cons {name : String} {content : Content}
    {fields : List (String × Content)} : Agrees c R j k ((name, content) :: fields) ↔
      content.Agree c R (j.get? name) (k.get? name) ∧ Agrees c R j k fields := by
  simp [Agrees]

end

namespace Reader

/-! ## Names, keys and comments -/

section
variable {c : Change} {R : Json → Json → Prop} {node node' : Json} {name : String}

theorem both_readName
    (h : Option.Rel SameName (present (node.get? name)) (present (node'.get? name))) :
    Both Eq (readName node name) (readName node' name) := by
  refine (both_optional_rel h).bind fun l r hlr => ?_
  cases hlr with
  | none => exact both_ok rfl
  | some h => exact (both_required_eq h).then_pure fun _ _ h => h

theorem both_propertyKind
    (h : Content.propertyVariance.Agree c R (node.get? "variance") (node'.get? "variance")) :
    Both (fun v w => Both (fun v w => c.variance v = c.variance w) (propertyVariance v)
      (propertyVariance w)) (readVariance node) (readVariance node') := by
  intro kind kind' hk hk'
  rw [eq_varianceKind hk, eq_varianceKind hk']
  exact h

theorem both_note (h : Content.variance.Agree c R (node.get? "variance") (node'.get? "variance")) :
    Both (fun v w => c.note v = c.note w) (readVariance node) (readVariance node') := by
  intro kind kind' hk hk'
  rw [eq_varianceKind hk, eq_varianceKind hk']
  exact h

theorem both_readComment {j k : Json} (h : SameComment j k) :
    Both Eq (readComment j) (readComment k) := by
  refine (both_required_eq h.1).bind fun a b hab => ?_
  by_cases hj : j.isObject = true
  · by_cases hk : k.isObject = true
    · obtain ⟨t, ht, htype⟩ := optional_type hj
      obtain ⟨u, hu, hutype⟩ := optional_type hk
      rw [ht, hu, hab]
      refine both_ok ?_
      rw [Bool.eq_iff_iff.2 ((htype "CommentLine").trans (h.2.trans (hutype "CommentLine").symm))]
    · rw [Json.optional, Json.optional, if_neg hk]
      exact both_error_right _ _
  · rw [Json.optional, if_neg hj]
    exact both_error_left _ _

theorem both_readComments
    (h : List.Forall₂ SameComment (items (node.get? name)) (items (node'.get? name))) :
    Both Eq (readComments node name) (readComments node' name) := by
  refine both_optional_items (f := fun parts => parts.mapM fun c => readComment c.1)
    (g := fun parts => parts.mapM fun c => readComment c.1)
    (onItems_members rfl (fun _ => rfl) fun _ => isObject_of_comments)
    (onItems_members rfl (fun _ => rfl) fun _ => isObject_of_comments) (fun as bs hab => ?_) h
  exact (Both.mapM (fun a b h => both_readComment h) hab).mono fun cs ds hcd =>
    List.forall₂_eq_eq_eq ▸ hcd

end

/-! ## Nodes -/

section
variable {c : Change} {R : Json → Json → Prop} {node node' : Json} {name : String}
variable (below : ∀ (a : Inner node) (b : Inner node'), R a.1 b.1 →
  Both c.Same (read a.1) (read b.1))
include below

theorem both_readChild (h : Option.Rel R (node.get? name) (node'.get? name)) :
    Both c.Same (readChild (reading node) name) (readChild (reading node') name) :=
  (both_required h).bind below

theorem both_readMaybe {l : Option (Inner node)} {r : Option (Inner node')}
    (h : Option.Rel (fun a b => R a.1 b.1) l r) :
    Both (fun o o' => changedMaybe c o = changedMaybe c o') (readMaybe (reading node) l)
      (readMaybe (reading node') r) := by
  cases h with
  | none => exact both_ok rfl
  | some h => exact (below _ _ h).then_pure fun p q hpq => changedMaybe_eq_of_rel (.some hpq)

theorem both_readOptional
    (h : Option.Rel R (present (node.get? name)) (present (node'.get? name))) :
    Both (fun o o' => changedMaybe c o = changedMaybe c o') (readOptional (reading node) name)
      (readOptional (reading node') name) :=
  (both_optional_rel h).bind fun _ _ => both_readMaybe below

theorem both_readAll {as : List (Inner node)} {bs : List (Inner node')}
    (h : List.Forall₂ (fun a b => R a.1 b.1) as bs) :
    Both (fun ps qs => changedEach c ps = changedEach c qs) (readAll (reading node) as)
      (readAll (reading node') bs) :=
  (Both.mapM below h).mono fun _ _ => changedEach_eq_of_forall₂

theorem both_readList (h : List.Forall₂ R (items (node.get? name)) (items (node'.get? name))) :
    Both (fun ps qs => changedEach c ps = changedEach c qs) (readList (reading node) name)
      (readList (reading node') name) :=
  both_optional_items (onItems_readMembers node) (onItems_readMembers node')
    (fun _ _ => both_readAll below) h

theorem both_readMembers {a : Inner node} {b : Inner node'}
    (h : List.Forall₂ R (items (some a.1)) (items (some b.1))) :
    Both (fun ps qs => changedEach c ps = changedEach c qs) (readMembers (reading node) (some a))
      (readMembers (reading node') (some b)) :=
  Both.onItems (onItems_readMembers node) (onItems_readMembers node')
    (fun _ _ => both_readAll below) h

theorem both_readRequiredList
    (h : List.Forall₂ R (items (node.get? name)) (items (node'.get? name))) :
    Both (fun ps qs => changedEach c ps = changedEach c qs) (readRequiredList (reading node) name)
      (readRequiredList (reading node') name) :=
  both_required_items (fun _ _ => both_readMembers below) h

theorem both_readParams (h : Content.params.Agree c R (node.get? name) (node'.get? name)) :
    Both (fun o o' => changedMany c o = changedMany c o') (readParams (reading node) name)
      (readParams (reading node') name) := by
  refine (both_optional_rel h).bind fun l r hlr => ?_
  cases hlr with
  | none => exact both_ok rfl
  | some h =>
    refine both_required_items (fun params params' hparams => ?_) h
    refine (both_readMembers below hparams).then_pure fun ps qs hps => ?_
    rw [changedMany, changedMany, hps]

theorem both_readGeneric
    (h : Agrees c R node node' [("typeParameters", .params), ("id", .typeName)]) :
    Both c.Same (readGeneric (reading node)) (readGeneric (reading node')) := by
  simp only [agrees_cons, agrees_nil, and_true] at h
  obtain ⟨hparams, hid⟩ := h
  refine (both_readParams below hparams).bind fun as bs hab => ?_
  refine (both_required hid).bind fun _ _ h => ?_
  exact h.then_pure fun m n hmn => by
    simp only [Change.Same, Phrase.changed, hab, hmn]

theorem both_readTuple {fields : List (String × Content)}
    (hl : layout node "TupleTypeAnnotation" = some fields)
    (hl' : layout node' "TupleTypeAnnotation" = some fields) (h : Agrees c R node node' fields) :
    Both c.Same (readTuple (reading node)) (readTuple (reading node')) := by
  have fields_eq : ∀ node : Json, layout node "TupleTypeAnnotation" =
      some [(if (node.get? "types").isSome then "types" else "elementTypes", .nodes)] :=
    fun _ => rfl
  rw [fields_eq] at hl hl'
  obtain rfl := Option.some.inj hl
  have same := Option.some.inj hl'
  simp only [List.cons.injEq, Prod.mk.injEq, and_true] at same
  simp only [agrees_cons, agrees_nil, and_true] at h
  unfold readTuple
  rw [Json.isSome_field?, Json.isSome_field?, same]
  exact (both_readList below h).then_pure fun ps qs hps => by
    simp only [Change.Same, Phrase.changed, hps]

theorem both_readObject (hexact : c.flag (flag "exact" node) = c.flag (flag "exact" node'))
    (h : Agrees c R node node'
      [("properties", .nodes), ("indexers", .nodes), ("callProperties", .nodes)]) :
    Both c.Same (readObject (reading node)) (readObject (reading node')) := by
  simp only [agrees_cons, agrees_nil, and_true] at h
  obtain ⟨hp, hi, hc⟩ := h
  refine (both_readList below hp).bind fun ps ps' hps => ?_
  refine (both_readList below hi).bind fun is is' his => ?_
  exact (both_readList below hc).then_pure fun cs cs' hcs => by
    simp only [Change.Same, Phrase.changed, hps, his, hcs, hexact]

theorem both_readProperty (h : Agrees c R node node' [("key", .key), ("value", .node),
    ("optional", .flag), ("variance", .propertyVariance), ("leadingComments", .comments),
    ("innerComments", .comments), ("trailingComments", .comments)]) :
    Both c.Same (readProperty (reading node)) (readProperty (reading node')) := by
  simp only [agrees_cons, agrees_nil, and_true] at h
  obtain ⟨hk, hv, ho, hw, hleading, hinner, htrailing⟩ := h
  refine (both_required hk).bind fun _ _ h => h.bind fun k k' hkey => ?_
  refine (both_readChild below hv).bind fun v v' hvalue => ?_
  refine (both_propertyKind hw).bind fun kind kind' hkind => ?_
  refine (both_readComments hleading).bind fun leading leading' hleading => ?_
  refine (both_readComments hinner).bind fun inner inner' hinner => ?_
  refine (both_readComments htrailing).bind fun trailing trailing' htrailing => ?_
  refine hkind.then_pure fun w w' hw => ?_
  simp only [Change.Same, Phrase.changed, flag_eq_holds, hkey, hvalue, hleading, hinner,
    htrailing, hw]
  rw [show holds (node.get? "optional") = holds (node'.get? "optional") from ho]

theorem both_readIndexer (h : Agrees c R node node'
    [("id", .named), ("key", .node), ("value", .node), ("variance", .variance)]) :
    Both c.Same (readIndexer (reading node)) (readIndexer (reading node')) := by
  simp only [agrees_cons, agrees_nil, and_true] at h
  obtain ⟨hi, hk, hv, hw⟩ := h
  refine (both_readName hi).bind fun i i' hid => (both_readChild below hk).bind fun k k' hkey => ?_
  refine (both_readChild below hv).bind fun v v' hvalue => ?_
  exact (both_note hw).then_pure fun w w' hw => by
    rw [Change.Same, Phrase.changed, Phrase.changed, hid, hkey, hvalue, hw]

theorem both_readFunctionType (h : Agrees c R node node' [("params", .nodes),
    ("returnType", .optionalNode), ("rest", .optionalNode), ("typeParameters", .params)]) :
    Both c.Same (readFunctionType (reading node)) (readFunctionType (reading node')) := by
  simp only [agrees_cons, agrees_nil, and_true] at h
  obtain ⟨hps, hr, hrest, hts⟩ := h
  refine (both_readList below hps).bind fun ps ps' hps => ?_
  refine (both_readOptional below hr).bind fun r r' hr => ?_
  refine (both_readOptional below hrest).bind fun rest rest' hrest => ?_
  exact (both_readParams below hts).then_pure fun ts ts' hts => by
    simp only [Change.Same, Phrase.changed, hps, hr, hrest, hts]

theorem both_readFunctionTypeParam (h : Agrees c R node node'
    [("name", .named), ("typeAnnotation", .optionalNode), ("optional", .flag)]) :
    Both c.Same (readFunctionTypeParam (reading node))
      (readFunctionTypeParam (reading node')) := by
  simp only [agrees_cons, agrees_nil, and_true] at h
  obtain ⟨hn, ht, ho⟩ := h
  refine (both_readName hn).bind fun n n' hn => ?_
  refine (both_readOptional below ht).then_pure fun t t' ht => ?_
  simp only [Change.Same, Phrase.changed, flag_eq_holds, hn, ht]
  rw [show holds (node.get? "optional") = holds (node'.get? "optional") from ho]

theorem both_readIdentifier (h : Agrees c R node node'
    [("name", .value), ("typeAnnotation", .optionalNode), ("optional", .flag)]) :
    Both c.Same (readIdentifier (reading node)) (readIdentifier (reading node')) := by
  simp only [agrees_cons, agrees_nil, and_true] at h
  obtain ⟨hn, ht, ho⟩ := h
  refine (both_required_eq hn).bind fun n n' hn => ?_
  refine (both_readOptional below ht).then_pure fun t t' ht => ?_
  simp only [Change.Same, Phrase.changed, flag_eq_holds, hn, ht]
  rw [show holds (node.get? "optional") = holds (node'.get? "optional") from ho]

theorem both_readTypeParameter (h : Agrees c R node node' [("name", .value),
    ("bound", .optionalNode), ("default", .optionalNode), ("variance", .variance)]) :
    Both c.Same (readTypeParameter (reading node)) (readTypeParameter (reading node')) := by
  simp only [agrees_cons, agrees_nil, and_true] at h
  obtain ⟨hn, hb, hd, hw⟩ := h
  refine (both_required_eq hn).bind fun n n' hn => ?_
  refine (both_readOptional below hb).bind fun b b' hb => ?_
  refine (both_readOptional below hd).bind fun d d' hd => ?_
  exact (both_note hw).then_pure fun w w' hw => by
    simp only [Change.Same, Phrase.changed, hn, hb, hd, hw]

end

/-! ## Declared functions -/

section
variable {c : Change} {R : Json → Json → Prop} {node node' : Json}

theorem rel_present (hnull : ∀ a b, R a b → a.isNull = b.isNull) {l r : Option Json}
    (h : Option.Rel R l r) : Option.Rel R (present l) (present r) := by
  cases h with
  | none => exact .none
  | some h =>
    rw [present, present, hnull _ _ h]
    split
    · exact .none
    · exact .some h

theorem rel_argument {fields : List (String × Content)}
    (hnull : ∀ a b, R a b → a.isNull = b.isNull)
    (hl : layout node "RestElement" = some fields) (hl' : layout node' "RestElement" = some fields)
    (h : Agrees c R node node' fields) :
    Option.Rel (fun j k => SameName j k ∧
      Option.Rel R (present (restType node j)) (present (restType node' k)))
      (node.get? "argument") (node'.get? "argument") := by
  have fields_eq : ∀ node : Json, layout node "RestElement" =
      if node.flag "typeAnnotation" then some [("argument", .restName), ("typeAnnotation", .node)]
      else some [("argument", .annotatedRestName)] := fun _ => rfl
  rw [fields_eq] at hl hl'
  unfold restType
  cases own : node.flag "typeAnnotation" with
  | true =>
    rw [own, if_pos rfl] at hl
    cases hl
    cases own' : node'.flag "typeAnnotation" with
    | true =>
      simp only [agrees_cons, agrees_nil, and_true] at h
      have type := rel_present hnull h.2
      generalize node.get? "argument" = l, node'.get? "argument" = r at h ⊢
      cases h.1 with
      | none => exact .none
      | some hname => exact .some ⟨hname, type⟩
    | false =>
      rw [own'] at hl'
      cases hl'
  | false =>
    rw [own, if_neg Bool.false_ne_true] at hl
    cases hl
    cases own' : node'.flag "typeAnnotation" with
    | true =>
      rw [own'] at hl'
      cases hl'
    | false =>
      simp only [agrees_cons, agrees_nil, and_true] at h
      exact h

end

section
variable {c : Change} {R : Json → Json → Prop} {node node' : Json}
variable (below : ∀ (a : Inner node) (b : Inner node'), R a.1 b.1 →
  Both c.Same (read a.1) (read b.1))
include below

theorem both_readRestElement {fields : List (String × Content)}
    (hnull : ∀ a b, R a b → a.isNull = b.isNull)
    (hl : layout node "RestElement" = some fields) (hl' : layout node' "RestElement" = some fields)
    (h : Agrees c R node node' fields) :
    Both c.Same (readRestElement (reading node)) (readRestElement (reading node')) := by
  refine (both_required (rel_argument hnull hl hl' h)).bind fun argument argument' ha => ?_
  refine (both_trivial (Json.optional "type" argument.1) (Json.optional "type" argument'.1)).bind
    fun type type' _ => ?_
  split
  · split
    · refine (both_required_eq ha.1).bind fun n n' hn => ?_
      refine (both_readMaybe below (rel_of_map ?_)).then_pure fun t t' ht => ?_
      · rw [map_chosen, map_chosen]
        exact ha.2
      · simp only [Change.Same, Phrase.changed, hn, ht]
    · exact both_error_right _ _
  · exact both_error_left _ _

def SameDeclared (c : Change) (d e : Declared) : Prop :=
  changedEach c d.params = changedEach c e.params ∧ changedMaybe c d.rest = changedMaybe c e.rest

theorem both_readDeclaredParam {d e : Declared} (hde : SameDeclared c d e) {a : Inner node}
    {b : Inner node'} (hab : R a.1 b.1) (htype : a.1.get? "type" = b.1.get? "type") :
    Both (SameDeclared c) (readDeclaredParam (reading node) d a)
      (readDeclaredParam (reading node') e b) := by
  have types : Both (fun t u => ∀ kind : String,
      (t.any fun t => t.1.isText kind) = u.any fun u => u.1.isText kind)
      (Json.optional "type" a.1) (Json.optional "type" b.1) := by
    intro t u ht hu kind
    rw [any_optional ht (·.isText kind), any_optional hu (·.isText kind), htype]
  unfold readDeclaredParam
  refine types.bind fun t u same => ?_
  rw [same, same]
  split
  · refine (below a b hab).then_pure fun p q hpq => ⟨hde.1, ?_⟩
    exact changedMaybe_eq_of_rel (.some hpq)
  · split
    · refine (below a b hab).then_pure fun p q hpq => ⟨?_, hde.2⟩
      rw [changedEach_append, changedEach_append, hde.1]
      simp only [changedEach, hpq]
    · exact both_error_left _ _

theorem both_readDeclaredParams
    (h : Content.declared.Agree c R (node.get? "params") (node'.get? "params")) :
    Both (SameDeclared c) (readDeclaredParams (reading node))
      (readDeclaredParams (reading node')) := by
  refine both_optional_items
    (f := fun parts => parts.foldlM (readDeclaredParam (reading node)) ⟨[], none⟩)
    (g := fun parts => parts.foldlM (readDeclaredParam (reading node')) ⟨[], none⟩)
    (onItems_members rfl (fun _ => rfl) fun _ => isObject_of_declared)
    (onItems_members rfl (fun _ => rfl) fun _ => isObject_of_declared) (fun as bs hab => ?_) h
  have none : SameDeclared c ⟨[], none⟩ ⟨[], none⟩ := ⟨rfl, rfl⟩
  exact Both.foldlM (f := readDeclaredParam (reading node)) (g := readDeclaredParam (reading node'))
    (fun d e a b hde h => both_readDeclaredParam below hde h.1 h.2) hab none

theorem both_readFunctionDeclaration
    (h : Agrees c R node node' [("params", .declared), ("id", .named),
      ("returnType", .optionalNode), ("typeParameters", .params)]) :
    Both c.Same (readFunctionDeclaration (reading node))
      (readFunctionDeclaration (reading node')) := by
  simp only [agrees_cons, agrees_nil, and_true] at h
  obtain ⟨hps, hn, hr, hts⟩ := h
  rw [readFunctionDeclaration_eq, readFunctionDeclaration_eq]
  refine (both_readDeclaredParams below hps).bind fun d e hde => ?_
  refine (both_readName hn).bind fun n n' hn => (both_readOptional below hr).bind fun r r' hr => ?_
  exact (both_readParams below hts).then_pure fun ts ts' hts => by
    simp only [Change.Same, Phrase.changed, hde.1, hde.2, hn, hr, hts]

theorem both_readNamed {kind : String} {fields : List (String × Content)}
    (hnull : ∀ a b, R a b → a.isNull = b.isNull)
    (hflag : ∀ name, name = "exact" ∨ name = "static" →
      c.flag (flag name node) = c.flag (flag name node'))
    (hl : layout node kind = some fields) (hl' : layout node' kind = some fields)
    (h : Agrees c R node node' fields) :
    Both c.Same (readNamed (reading node) kind) (readNamed (reading node') kind) := by
  -- The type of the node decides its layout, so the fields known to agree are those of the case.
  have known : ∀ {fields' : List (String × Content)} {x y : Except Fault Phrase},
      layout node kind = some fields' → (Agrees c R node node' fields' → Both c.Same x y) →
      Both c.Same x y := by
    intro fields' x y hl'' hxy
    cases hl.symm.trans hl''
    exact hxy h
  have around : ∀ {name : String} {f : Phrase → Phrase},
      (∀ p q, c.Same p q → c.Same (f p) (f q)) →
      Agrees c R node node' [(name, .node)] →
      Both c.Same (do return f (← readChild (reading node) name))
        (do return f (← readChild (reading node') name)) := by
    intro name f hf hm
    simp only [agrees_cons, agrees_nil, and_true] at hm
    exact (both_readChild below hm).then_pure hf
  have group : ∀ {g : Grouping}, Agrees c R node node' [("types", .requiredNodes)] →
      Both c.Same (do return Phrase.group none g (← readRequiredList (reading node) "types"))
        (do return Phrase.group none g (← readRequiredList (reading node') "types")) := by
    intro g hm
    simp only [agrees_cons, agrees_nil, and_true] at hm
    exact (both_readRequiredList below hm).then_pure fun ps qs hps => by
      simp only [Change.Same, Phrase.changed, hps]
  unfold readNamed
  split
  · exact both_ok rfl
  · rename_i hk _
    refine known (layout_literal hk node) fun hm => ?_
    simp only [agrees_cons, agrees_nil, and_true] at hm
    exact (both_required_eq hm).then_pure fun a b hab => by
      simp only [Change.Same, Phrase.changed, hab]
  · split
    · refine known rfl fun hm => ?_
      simp only [agrees_cons, agrees_nil, and_true] at hm
      exact both_readChild below hm
    · exact known rfl (around fun p q hpq => by simp only [Change.Same, Phrase.changed, hpq])
    · exact both_readTuple below hl hl' h
    · exact known rfl group
    · exact known rfl group
    · exact known rfl (around fun p q hpq => by simp only [Change.Same, Phrase.changed, hpq])
    · exact known rfl (around fun p q hpq => by simp only [Change.Same, Phrase.changed, hpq])
    · exact known rfl (both_readGeneric below)
    · exact known rfl (both_readObject below (hflag _ (.inl rfl)))
    · exact known rfl (both_readProperty below)
    · exact known rfl (around fun p q hpq => by simp only [Change.Same, Phrase.changed, hpq])
    · exact known rfl (both_readIndexer below)
    · refine known rfl fun hm => ?_
      simp only [agrees_cons, agrees_nil, and_true] at hm
      exact (both_readChild below hm).then_pure fun p q hpq => by
        simp only [Change.Same, Phrase.changed, hpq, hflag "static" (.inr rfl)]
    · exact known rfl (both_readFunctionType below)
    · exact known rfl (both_readFunctionTypeParam below)
    · exact known rfl (both_readTypeParameter below)
    · exact known rfl (both_readIdentifier below)
    · exact both_readRestElement below hnull hl hl' h
    · exact known rfl (both_readFunctionDeclaration below)
    · exact both_error_left _ _

end

end Reader

end Flow

end Reannotate
