import Reannotate.Proofs.Agreement
import Reannotate.Proofs.Spans

/-!
# Wrappers

Wherever the reader takes any node it takes wrappers around the node, too. `Wrapped` says that a
document comes of another by wrapping; it is told by what one step can be, `Rewrapped`, since what
may be wrapped depends on the node around it. Both documents are accepted or neither is
(`Wrapped.accepts_iff`), and what is read of them is the same for each change that overlooks the
wrappers (`Wrapped.both_read`): for the change of nothing, if the wrappers have no spans, and else
for the one that takes all spans away.
-/

namespace Reannotate

namespace Json

def Itemwise (R : Json → Json → Prop) (j k : Json) : Prop :=
  j = k ∨ ∃ js ks, j = .array js ∧ k = .array ks ∧ List.Forall₂ R js ks

/-- Objects that differ in one field, where they are related, or one and the same value. -/
def AtField (name : String) (R : Json → Json → Prop) (j k : Json) : Prop :=
  j = k ∨ (∀ other, other ≠ name → j.get? other = k.get? other) ∧
    ∃ a ∈ j.get? name, ∃ b ∈ k.get? name, R a b

theorem truthy_of_get? {name : String} {j k : Json} (h : j.get? name = some k) :
    j.truthy = true := by
  cases j with
  | object fields =>
    cases fields with
    | nil => cases h
    | cons => rfl
  | _ => cases h

theorem get?_of_ne {name other : String} (h : other ≠ name) (before after : List (Text × Json))
    (j k : Json) : get? other (.object (before ++ (Text.ofString name, j) :: after)) =
      get? other (.object (before ++ (Text.ofString name, k) :: after)) := by
  have differs : (Text.ofString other == Text.ofString name) = false := by
    simpa [Text.ofString_inj] using h
  simp only [get?, List.lookup_append, List.lookup_cons, differs]

theorem listOf_array {P : Json → Prop} {js : List Json} :
    (Json.array js).ListOf P ↔ ∀ j ∈ js, P j := by
  constructor
  · rintro (empty | ⟨_, same, all⟩)
    · have : js = [] := by simpa [truthy] using empty
      simp [this]
    · cases same
      exact all
  · intro all
    exact .inr ⟨js, rfl, all⟩

section
variable {R R' : Json → Json → Prop} {P : Json → Prop} {j k : Json} {name : String}

theorem rel_refl (refl : ∀ a, R a a) {found : Option Json} : Option.Rel R found found := by
  cases found with
  | none => exact .none
  | some a => exact .some (refl a)

theorem rel_imp {l r : Option Json} (h : Option.Rel R l r)
    (hR : ∀ a, ∀ b ∈ r, R a b → R' a b) : Option.Rel R' l r := by
  cases h with
  | none => exact .none
  | some h => exact .some (hR _ _ rfl h)

theorem isSome_eq_of_rel {l r : Option Json} (h : Option.Rel R l r) : l.isSome = r.isSome := by
  cases h <;> rfl

theorem Itemwise.imp (h : Itemwise R j k) (hR : ∀ a b, b.depth < k.depth → R a b → R' a b) :
    Itemwise R' j k := by
  rcases h with rfl | ⟨js, ks, rfl, rfl, h⟩
  · exact .inl rfl
  · refine .inr ⟨js, ks, rfl, rfl, List.forall₂_iff_zip.2 ⟨h.length_eq, fun hab => ?_⟩⟩
    have below := depth_le_of_mem_items (List.of_mem_zip hab).2
    exact hR _ _ (Nat.lt_succ_of_le below) (List.forall₂_zip h hab)

theorem AtField.imp (h : AtField name R j k) (hR : ∀ a b, b.depth < k.depth → R a b → R' a b) :
    AtField name R' j k := by
  rcases h with rfl | ⟨others, a, ha, b, hb, h⟩
  · exact .inl rfl
  · exact .inr ⟨others, a, ha, b, hb, hR a b (depth_lt_of_get? hb) h⟩

theorem Itemwise.isNull_eq (h : Itemwise R j k) : j.isNull = k.isNull := by
  rcases h with rfl | ⟨js, ks, rfl, rfl, -⟩ <;> rfl

theorem AtField.isNull_eq (h : AtField name R j k) : j.isNull = k.isNull := by
  rcases h with rfl | ⟨-, a, ha, b, hb, -⟩
  · rfl
  · rw [isNull_of_isObject (isObject_of_get? ha), isNull_of_isObject (isObject_of_get? hb)]

theorem Itemwise.listOf_iff (h : Itemwise R j k) (hP : ∀ a b, R a b → (P a ↔ P b)) :
    j.ListOf P ↔ k.ListOf P := by
  rcases h with rfl | ⟨js, ks, rfl, rfl, h⟩
  · rfl
  · rw [listOf_array, listOf_array]
    induction h with
    | nil => simp
    | cons hab _ ih => rw [List.forall_mem_cons, List.forall_mem_cons, hP _ _ hab, ih]

theorem AtField.get?_eq (h : AtField name R j k) {other : String} (ho : other ≠ name) :
    j.get? other = k.get? other := by
  rcases h with rfl | ⟨others, -⟩
  · rfl
  · exact others other ho

theorem AtField.rel (refl : ∀ a, R a a) (h : AtField name R j k) :
    Option.Rel R (j.get? name) (k.get? name) := by
  rcases h with rfl | ⟨-, a, ha, b, hb, h⟩
  · exact rel_refl refl
  · rw [Option.mem_def.1 ha, Option.mem_def.1 hb]
    exact .some h

theorem Itemwise.items (refl : ∀ a, R a a) (h : Itemwise R j k) :
    List.Forall₂ R (items (some j)) (items (some k)) := by
  rcases h with rfl | ⟨js, ks, rfl, rfl, h⟩
  · exact List.forall₂_same.2 fun a _ => refl a
  · exact h

end

end Json

namespace Flow

open Json (Inner HasType present items holds flag Itemwise AtField)
open Reader (flag_eq_holds)

def Content.Rewraps (R : Json → Json → Prop) (content : Content) (l r : Option Json) : Prop :=
  match content with
  | .node | .optionalNode => Option.Rel R l r
  | .nodes | .requiredNodes => Option.Rel (Itemwise R) l r
  | .params => Option.Rel (AtField "params" (Itemwise R)) l r
  | .restName | .annotatedRestName => Option.Rel (AtField "typeAnnotation" R) l r
  | .declared => Option.Rel (Itemwise fun a b => R a b ∧ a.get? "type" = b.get? "type") l r
  | _ => l = r

/-- The second document is the first, or it is a wrapper around a node, or both are nodes of one
type that have all in common but the nodes inside. -/
inductive Rewrapped (S : Json → Prop) (R : Json → Json → Prop) : Json → Json → Prop
  | same (j : Json) : Rewrapped S R j j
  | wrapper {j k w : Json} (node : (k.get? "type").isSome = true)
      (type : w.HasType "TypeAnnotation") (inner : w.get? "typeAnnotation" = some k)
      (allowed : S w) (h : R j k) : Rewrapped S R j w
  | inside {j k : Json} {kind : String} {fields : List (String × Content)} (hj : j.HasType kind)
      (hk : k.HasType kind) (hl : layout j kind = some fields)
      (others : ∀ name, name ∉ fields.map Prod.fst → j.get? name = k.get? name)
      (h : ∀ f ∈ fields, f.2.Rewraps R (j.get? f.1) (k.get? f.1)) : Rewrapped S R j k

/-- Nodes in the first document, or all of it, have wrappers around them in the second: any number
of wrappers, wherever the reader takes any node. `S` says which. -/
def Wrapped (S : Json → Prop) (j k : Json) : Prop :=
  ∃ R : Json → Json → Prop, (∀ a b, R a b → Rewrapped S R a b) ∧ R j k

/-! ## Fields -/

theorem notMem_of_layout {node : Json} {kind : String} {fields : List (String × Content)}
    (hl : layout node kind = some fields) :
    ∀ name ∈ ["type", "start", "end", "exact", "static"], name ∉ fields.map Prod.fst := by
  by_cases tuple : kind = "TupleTypeAnnotation"
  · subst tuple
    cases hl
    cases (node.get? "types").isSome <;> decide
  by_cases rest : kind = "RestElement"
  · subst rest
    change (if _ then _ else _) = _ at hl
    split at hl
    all_goals
      cases hl
      decide
  unfold layout at hl
  split at hl
  all_goals first
    | contradiction
    | cases hl
      decide

theorem layout_eq {j k : Json} {kind : String}
    (types : kind = "TupleTypeAnnotation" →
      (j.get? "types").isSome = (k.get? "types").isSome)
    (annotated : kind = "RestElement" → flag "typeAnnotation" j = flag "typeAnnotation" k) :
    layout j kind = layout k kind := by
  by_cases tuple : kind = "TupleTypeAnnotation"
  · subst tuple
    show some [(if (j.get? "types").isSome then _ else _, _)] = _
    rw [types rfl]
    rfl
  by_cases rest : kind = "RestElement"
  · subst rest
    show (if flag "typeAnnotation" j then _ else _) = _
    rw [annotated rfl]
    rfl
  unfold layout
  split
  all_goals first
    | rfl
    | contradiction

/-! ## Wrapped documents -/

section
variable {S : Json → Prop} {R R' : Json → Json → Prop} {j k : Json}

theorem Content.Rewraps.imp {content : Content} {l : Option Json} {name : String}
    (h : content.Rewraps R l (k.get? name))
    (hR : ∀ a b, b.depth < k.depth → R a b → R' a b) : content.Rewraps R' l (k.get? name) := by
  have deep : ∀ {b : Json}, b ∈ k.get? name → ∀ {c : Json}, c.depth < b.depth →
      c.depth < k.depth := fun hb _ hc => hc.trans (Json.depth_lt_of_get? hb)
  cases content with
  | node => exact Json.rel_imp h fun a b hb => hR a b (Json.depth_lt_of_get? hb)
  | optionalNode => exact Json.rel_imp h fun a b hb => hR a b (Json.depth_lt_of_get? hb)
  | nodes => exact Json.rel_imp h fun a b hb hab => hab.imp fun c d hd => hR c d (deep hb hd)
  | requiredNodes =>
    exact Json.rel_imp h fun a b hb hab => hab.imp fun c d hd => hR c d (deep hb hd)
  | params =>
    exact Json.rel_imp h fun a b hb hab => hab.imp fun c d hd hcd =>
      hcd.imp fun e f hf => hR e f (deep hb (hf.trans hd))
  | restName => exact Json.rel_imp h fun a b hb hab => hab.imp fun c d hd => hR c d (deep hb hd)
  | annotatedRestName =>
    exact Json.rel_imp h fun a b hb hab => hab.imp fun c d hd => hR c d (deep hb hd)
  | declared =>
    exact Json.rel_imp h fun a b hb hab => hab.imp fun c d hd hcd =>
      ⟨hR c d (deep hb hd) hcd.1, hcd.2⟩
  | _ => exact h

theorem Rewrapped.imp (h : Rewrapped S R j k) (hR : ∀ a b, R a b → R' a b) :
    Rewrapped S R' j k := by
  cases h with
  | same => exact .same j
  | wrapper node type inner allowed h => exact .wrapper node type inner allowed (hR _ _ h)
  | inside hj hk hl others h =>
    exact .inside hj hk hl others fun f hf => (h f hf).imp fun a b _ => hR a b

theorem wrapped_iff : Wrapped S j k ↔ Rewrapped S (Wrapped S) j k := by
  have closed : ∀ a b, Wrapped S a b → Rewrapped S (Wrapped S) a b := by
    rintro a b ⟨R, closed, h⟩
    exact (closed a b h).imp fun c d hcd => ⟨R, closed, hcd⟩
  constructor
  · exact closed j k
  · intro h
    exact ⟨Rewrapped S (Wrapped S), fun a b hab => hab.imp closed, h⟩

theorem Wrapped.refl (j : Json) : Wrapped S j j := wrapped_iff.2 (.same j)

theorem Wrapped.typed {j k : Json} (h : Wrapped S j k) :
    j = k ∨ (j.get? "type").isSome = true ∧ (k.get? "type").isSome = true := by
  cases wrapped_iff.1 h with
  | same => exact .inl rfl
  | wrapper node type inner allowed h =>
    have := Json.depth_lt_of_get? inner
    have wrapped := Option.isSome_of_eq_some type
    -- nothing but nodes is wrapped, so what is not changed inside the wrapper is a node as well
    rcases h.typed with rfl | both
    · exact .inr ⟨node, wrapped⟩
    · exact .inr ⟨both.1, wrapped⟩
  | inside hj hk => exact .inr ⟨Option.isSome_of_eq_some hj, Option.isSome_of_eq_some hk⟩
termination_by k.depth

theorem Wrapped.truthy_eq (h : Wrapped S j k) : j.truthy = k.truthy := by
  rcases h.typed with rfl | ⟨hj, hk⟩
  · rfl
  · obtain ⟨_, hj⟩ := Option.isSome_iff_exists.1 hj
    obtain ⟨_, hk⟩ := Option.isSome_iff_exists.1 hk
    rw [Json.truthy_of_get? hj, Json.truthy_of_get? hk]

theorem Wrapped.isNull_eq (h : Wrapped S j k) : j.isNull = k.isNull := by
  rcases h.typed with rfl | ⟨hj, hk⟩
  · rfl
  · obtain ⟨_, hj⟩ := Option.isSome_iff_exists.1 hj
    obtain ⟨_, hk⟩ := Option.isSome_iff_exists.1 hk
    rw [Json.isNull_of_isObject (Json.isObject_of_get? hj),
      Json.isNull_of_isObject (Json.isObject_of_get? hk)]

theorem layout_of_rewraps {kind : String} {fields : List (String × Content)}
    (hl : layout j kind = some fields)
    (others : ∀ name, name ∉ fields.map Prod.fst → j.get? name = k.get? name)
    (h : ∀ f ∈ fields, f.2.Rewraps (Wrapped S) (j.get? f.1) (k.get? f.1)) :
    layout k kind = some fields := by
  rw [← hl]
  symm
  apply layout_eq
  · rintro rfl
    have hl : some [(if (j.get? "types").isSome then "types" else "elementTypes", _)] = _ := hl
    cases types : (j.get? "types").isSome with
    | true =>
      rw [types] at hl
      cases hl
      have found : Option.Rel (Itemwise (Wrapped S)) (j.get? "types") (k.get? "types") :=
        h _ List.mem_cons_self
      rw [← Json.isSome_eq_of_rel found, types]
    | false =>
      rw [types] at hl
      cases hl
      rw [← others "types" (by decide), types]
  · rintro rfl
    have hl : (if flag "typeAnnotation" j then _ else _) = _ := hl
    rw [flag_eq_holds, flag_eq_holds]
    cases own : flag "typeAnnotation" j with
    | true =>
      rw [own, if_pos rfl] at hl
      cases hl
      have found : Option.Rel (Wrapped S) (j.get? "typeAnnotation") (k.get? "typeAnnotation") :=
        h _ (List.mem_cons_of_mem _ List.mem_cons_self)
      generalize j.get? "typeAnnotation" = l, k.get? "typeAnnotation" = r at found ⊢
      cases found with
      | none => rfl
      | some hab => exact hab.truthy_eq
    | false =>
      rw [own, if_neg Bool.false_ne_true] at hl
      cases hl
      rw [others "typeAnnotation" (by decide)]

end

/-! ## What is accepted -/

section
variable {R : Json → Json → Prop} {content : Content} {j k : Json} {l r : Option Json}

/-- Both count as nodes, or neither does. -/
structure CountsLike (G : Json → Prop) (a b : Json) : Prop where
  isNull_eq : a.isNull = b.isNull
  iff : G a ↔ G b

theorem CountsLike.orNull {G : Json → Prop} {a b : Json} (h : CountsLike G a b) :
    (a = .null ∨ G a) ↔ (b = .null ∨ G b) := by
  rw [← Json.isNull_iff, ← Json.isNull_iff, h.isNull_eq, h.iff]

theorem isRestName_iff_of_atField (h : AtField "typeAnnotation" R j k) :
    IsRestName j ↔ IsRestName k := by
  rw [IsRestName, IsRestName, HasType, HasType, h.get?_eq (by decide), h.get?_eq (by decide)]

theorem Content.Rewraps.meets_iff {G : Json → Prop} (h : content.Rewraps (CountsLike G) l r) :
    content.Meets G l ↔ content.Meets G r := by
  have refl : ∀ a, CountsLike G a a := fun a => ⟨rfl, Iff.rfl⟩
  cases content with
  | node =>
    cases h with
    | none => rfl
    | some h => simpa [Meets] using h.iff
  | optionalNode =>
    cases h with
    | none => rfl
    | some h => simpa [Meets] using h.orNull
  | nodes =>
    cases h with
    | none => rfl
    | some h => simpa [Meets] using h.listOf_iff fun _ _ hab => hab.iff
  | requiredNodes =>
    cases h with
    | none => rfl
    | some h => simpa [Meets] using h.listOf_iff fun _ _ hab => hab.iff
  | params =>
    cases h with
    | none => rfl
    | @some a b h =>
      have null := h.isNull_eq
      have lists := h.rel fun _ => .inl rfl
      simp only [Meets, Option.mem_def, Option.some.injEq, forall_eq', ← Json.isNull_iff, null]
      generalize a.get? "params" = l, b.get? "params" = r at lists
      cases lists with
      | none => rfl
      | some h => simp [h.listOf_iff fun _ _ hab => hab.iff]
  | restName =>
    cases h with
    | none => rfl
    | some h => simpa [Meets] using isRestName_iff_of_atField h
  | annotatedRestName =>
    cases h with
    | none => rfl
    | @some a b h =>
      have name := isRestName_iff_of_atField h
      have types := h.rel refl
      simp only [Meets, Option.mem_def, Option.some.injEq, exists_eq_left', name]
      generalize a.get? "typeAnnotation" = l, b.get? "typeAnnotation" = r at types
      cases types with
      | none => rfl
      | some h => simp [h.orNull]
  | declared =>
    cases h with
    | none => rfl
    | some h =>
      simp only [Meets, Option.mem_def, Option.some.injEq, forall_eq']
      refine h.listOf_iff fun a b hab => ?_
      rw [HasType, HasType, HasType, HasType, hab.2, hab.1.iff]
  | _ => rw [show l = r from h]

end

theorem accepts_read_iff {j : Json} {kind : String} {fields : List (String × Content)}
    (type : j.HasType kind) (hl : layout j kind = some fields) :
    Accepts (read j) ↔ Fills (fun k => Accepts (read k)) j fields := by
  have each : ∀ part, Accepts (Reader.reading j part) ↔ Accepts (read part.1) := fun _ => Iff.rfl
  have named := Reader.accepts_readNamed (G := fun k => Accepts (read k)) each type.isObject
    (fun _ => Reader.isObject_of_accepts) kind
  rw [accepts_read]
  constructor
  · rintro ⟨kind', type', h⟩
    cases type.eq type'
    obtain ⟨fields', hl', h⟩ := named.1 h
    cases hl.symm.trans hl'
    exact h
  · intro h
    exact ⟨kind, type, named.2 ⟨fields, hl, h⟩⟩

theorem accepts_wrapper_iff {w j : Json} (type : w.HasType "TypeAnnotation")
    (inner : w.get? "typeAnnotation" = some j) : Accepts (read w) ↔ Accepts (read j) := by
  rw [accepts_read_iff type rfl]
  simp [Content.Meets, inner]

theorem Wrapped.accepts_iff {S : Json → Prop} {j k : Json} (h : Wrapped S j k) :
    Accepts (read j) ↔ Accepts (read k) := by
  cases wrapped_iff.1 h with
  | same => rfl
  | wrapper node type inner allowed h =>
    have := Json.depth_lt_of_get? inner
    rw [accepts_wrapper_iff type inner]
    exact h.accepts_iff
  | inside hj hk hl others h =>
    rw [accepts_read_iff hj hl, accepts_read_iff hk (layout_of_rewraps hl others h)]
    refine forall₂_congr fun f hf => ((h f hf).imp fun a b hb hab => ?_).meets_iff
    exact ⟨hab.isNull_eq, hab.accepts_iff⟩
termination_by k.depth

/-! ## What is read -/

theorem both_self {α : Type} {R : α → α → Prop} {x : Except Fault α} (refl : ∀ a, R a a) :
    Both R x x := by
  intro a b ha hb
  cases ha.symm.trans hb
  exact refl a

theorem forall₂_items_of_rel {R : Json → Json → Prop} (refl : ∀ j, R j j) {l r : Option Json}
    (h : Option.Rel (Itemwise R) l r) : List.Forall₂ R (items l) (items r) := by
  cases h with
  | none => exact .nil
  | some h => exact h.items refl

theorem Content.Rewraps.agree {R : Json → Json → Prop} (refl : ∀ j, R j j)
    (null : ∀ a b, R a b → a.isNull = b.isNull) (c : Change) {content : Content}
    {l r : Option Json} (h : content.Rewraps R l r) : content.Agree c R l r := by
  have annotated : ∀ {a b}, AtField "typeAnnotation" R a b → SameName a b ∧
      Option.Rel R (present (a.get? "typeAnnotation")) (present (b.get? "typeAnnotation")) :=
    fun hab => ⟨hab.get?_eq (by decide), Reader.rel_present null (hab.rel refl)⟩
  cases content with
  | node => exact h
  | optionalNode => exact Reader.rel_present null h
  | nodes => exact forall₂_items_of_rel refl h
  | requiredNodes => exact forall₂_items_of_rel refl h
  | params =>
    refine Reader.rel_mono (fun a b hab => ?_)
      (Reader.rel_present (fun a b hab => hab.isNull_eq) h)
    exact forall₂_items_of_rel refl (hab.rel fun _ => .inl rfl)
  | restName => exact Reader.rel_mono (fun a b hab => (annotated hab).1) h
  | annotatedRestName => exact Reader.rel_mono (fun a b hab => annotated hab) h
  | declared => exact forall₂_items_of_rel (fun j => ⟨refl j, rfl⟩) h
  | value => exact h
  | flag => exact congrArg holds h
  | named =>
    rw [show l = r from h]
    exact Json.rel_refl (R := SameName) fun _ => rfl
  | typeName =>
    rw [show l = r from h]
    exact Json.rel_refl fun _ => both_self fun m => Eq.refl (c.generic m)
  | key =>
    rw [show l = r from h]
    exact Json.rel_refl fun _ => both_self fun _ => rfl
  | variance => rw [show l = r from h, Agree]
  | propertyVariance =>
    rw [show l = r from h]
    exact both_self fun _ => rfl
  | comments =>
    rw [show l = r from h]
    exact List.forall₂_same.2 fun _ _ => ⟨rfl, Iff.rfl⟩

theorem Phrase.orSpan_none (p : Phrase) : p.orSpan none = p := by
  unfold orSpan
  split
  · rename_i none
    rw [Option.isNone_iff_eq_none] at none
    cases p with
    | typeName n => cases n <;> cases none <;> rfl
    | _ =>
      cases none
      rfl
  · rfl

/-- What the change leaves of a phrase does not tell whether such a wrapper gave it its span. -/
structure Overlooks (c : Change) (S : Json → Prop) : Prop where
  wrapper : ∀ w, S w → ∀ p, c.Same p (p.orSpan (Reader.span? w))
  node : ∀ s p q, c.Same p q → c.Same (p.orSpan s) (q.orSpan s)

theorem overlooks_keep : Overlooks .keep fun w => Reader.span? w = none where
  wrapper := by
    intro w silent p
    rw [same_keep_iff, silent, Phrase.orSpan_none]
  node := by
    intro s p q same
    rw [same_keep_iff] at same ⊢
    rw [same]

theorem overlooks_spanless : Overlooks .spanless fun _ => True where
  wrapper _ _ p := (p.spanless_orSpan _).symm
  node s p q same := (p.spanless_orSpan s).trans (same.trans (q.spanless_orSpan s).symm)

theorem Wrapped.both_read {c : Change} {S : Json → Prop} (overlooks : Overlooks c S) {j k : Json}
    (h : Wrapped S j k) : Both c.Same (read j) (read k) := by
  cases wrapped_iff.1 h with
  | same => exact both_self fun _ => rfl
  | wrapper node type inner allowed h =>
    intro p q hp hq
    obtain ⟨q', hq', rfl⟩ := read_inv type hq
    obtain ⟨child, child_eq, hchild⟩ := Reader.readChild_inv hq'
    cases inner.symm.trans child_eq
    have := Json.depth_lt_of_get? inner
    -- what is read of the wrapper is what is read inside, with the span of the wrapper if need be
    have same := h.both_read overlooks p q' hp hchild
    exact same.trans (overlooks.wrapper k allowed q')
  | @inside _ kind fields hj hk hl others h =>
    have lookup : ∀ name ∈ ["type", "start", "end", "exact", "static"],
        j.get? name = k.get? name :=
      fun name hname => others name (notMem_of_layout hl name hname)
    have spans : Reader.span? j = Reader.span? k := by
      rw [Reader.span?_eq, Reader.span?_eq, lookup "start" (by decide), lookup "end" (by decide)]
    have flags : ∀ name, name = "exact" ∨ name = "static" →
        c.flag (flag name j) = c.flag (flag name k) := by
      rintro name (rfl | rfl)
      all_goals rw [flag_eq_holds, flag_eq_holds, lookup _ (by decide)]
    have below : ∀ (a : Inner j) (b : Inner k), Wrapped S a.1 b.1 →
        Both c.Same (read a.1) (read b.1) := by
      intro a b hab
      have := b.2
      exact hab.both_read overlooks
    have null : ∀ a b, Wrapped S a b → a.isNull = b.isNull := fun _ _ hab => hab.isNull_eq
    have agree : Agrees c (Wrapped S) j k fields :=
      fun f hf => (h f hf).agree Wrapped.refl null c
    have named := Reader.both_readNamed below null flags hl (layout_of_rewraps hl others h) agree
    rw [Reader.read_of_hasType hj, Reader.read_of_hasType hk, spans]
    exact named.then_pure (overlooks.node _)
termination_by k.depth

end Flow

open Reannotate.Flow

/-- Wrappers around nodes change nothing if they have no spans. If they have, then the document is
still accepted as before, and the tree is the same but for the spans of its phrases: a phrase has
the span of its own node, or else of the innermost wrapper around it that has one. -/
theorem wrappers_transparent (j k : Json) :
    (Wrapped (fun w => Reader.span? w = none) j k →
      ∀ p, read j = .ok p ↔ read k = .ok p) ∧
    (Wrapped (fun _ => True) j k →
      (Accepts (read j) ↔ Accepts (read k)) ∧
      ∀ p q, read j = .ok p → read k = .ok q →
        p.spanless = q.spanless ∧ Spanned j p ∧ Spanned k q) := by
  constructor
  · intro h p
    have same := h.both_read overlooks_keep
    constructor
    · intro hp
      obtain ⟨q, hq⟩ := h.accepts_iff.1 ⟨p, hp⟩
      rw [same_keep_iff.1 (same p q hp hq), hq]
    · intro hp
      obtain ⟨q, hq⟩ := h.accepts_iff.2 ⟨p, hp⟩
      rw [← same_keep_iff.1 (same q p hq hp), hq]
  · intro h
    refine ⟨h.accepts_iff, fun p q hp hq => ?_⟩
    exact ⟨h.both_read overlooks_spanless p q hp hq, spanned_of_reads hp, spanned_of_reads hq⟩

def typeAround (kind : String) (inner : Json) (fields : List (Text × Json)) : Json :=
  .object (("type", .str kind) :: ("typeAnnotation", inner) :: fields)

def wrapper (inner : Json) (fields : List (Text × Json)) : Json :=
  typeAround "TypeAnnotation" inner fields

def spanFields (start stop : Int) : List (Text × Json) :=
  [("start", .int start), ("end", .int stop)]

theorem wrapped_wrapper {S : Json → Prop} {j k : Json} {fields : List (Text × Json)}
    (node : (k.get? "type").isSome = true) (allowed : S (wrapper k fields)) (h : Wrapped S j k) :
    Wrapped S j (wrapper k fields) :=
  wrapped_iff.2 (.wrapper node rfl rfl allowed h)

theorem wrapped_typeAround {S : Json → Prop} {kind : String} {fields : List (Text × Json)}
    (hl : ∀ node, layout node kind = some [("typeAnnotation", .node)]) {j k : Json}
    (h : Wrapped S j k) : Wrapped S (typeAround kind j fields) (typeAround kind k fields) := by
  have type : ∀ j, (typeAround kind j fields).HasType kind := fun _ => rfl
  refine wrapped_iff.2 (.inside (type j) (type k) (hl _) ?_ ?_)
  · intro name hname
    exact Json.get?_of_ne (by simpa using hname) [("type", .str kind)] fields j k
  · rw [List.forall_mem_singleton]
    exact .some h

def stringType : Json := .object [("type", .str "StringTypeAnnotation")]

def nullableString : Json := typeAround "NullableTypeAnnotation" stringType []

def wrappedString (outer inner : List (Text × Json)) : Json :=
  let string := wrapper (wrapper stringType []) inner
  wrapper (typeAround "NullableTypeAnnotation" string []) outer

theorem wrapped_wrappedString {S : Json → Prop} {outer inner : List (Text × Json)}
    (hS : ∀ j, ∀ fields ∈ [[], inner, outer], S (wrapper j fields)) :
    Wrapped S nullableString (wrappedString outer inner) := by
  have once : Wrapped S stringType (wrapper stringType []) :=
    wrapped_wrapper rfl (hS _ [] (by simp)) (.refl _)
  have string : Wrapped S stringType (wrapper (wrapper stringType []) inner) :=
    wrapped_wrapper rfl (hS _ inner (by simp)) once
  exact wrapped_wrapper rfl (hS _ outer (by simp)) (wrapped_typeAround (fun _ => rfl) string)

theorem wrappers_transparent_nullable :
    (Wrapped (fun w => Reader.span? w = none) nullableString (wrappedString [] []) ∧
      ∃ p, read nullableString = .ok p ∧ read (wrappedString [] []) = .ok p) ∧
    Wrapped (fun _ => True) nullableString (wrappedString (spanFields 0 9) (spanFields 2 8)) ∧
      ∃ p q, read nullableString = .ok p ∧
        read (wrappedString (spanFields 0 9) (spanFields 2 8)) = .ok q ∧
        p.spanless = q.spanless ∧ p.span = none ∧ q.span = some ⟨.int 0, .int 9⟩ := by
  have silent : Wrapped (fun w => Reader.span? w = none) nullableString (wrappedString [] []) :=
    wrapped_wrappedString fun j fields hf => by
      simp only [List.mem_cons, List.not_mem_nil, or_false, or_self] at hf
      subst hf
      rfl
  have spanned : Wrapped (fun _ => True) nullableString
      (wrappedString (spanFields 0 9) (spanFields 2 8)) :=
    wrapped_wrappedString fun _ _ _ => trivial
  obtain ⟨p, hp, none⟩ : ∃ p, read nullableString = .ok p ∧ p.span = none :=
    ⟨_, by with_unfolding_all rfl, rfl⟩
  obtain ⟨q, hq, outer⟩ : ∃ q, read (wrappedString (spanFields 0 9) (spanFields 2 8)) = .ok q ∧
      q.span = some ⟨.int 0, .int 9⟩ := ⟨_, by with_unfolding_all rfl, rfl⟩
  refine ⟨⟨silent, p, hp, ((wrappers_transparent _ _).1 silent p).1 hp⟩, spanned, p, q, hp, hq, ?_⟩
  exact ⟨(((wrappers_transparent _ _).2 spanned).2 p q hp hq).1, none, outer⟩

/-- A wrapper that is inside another gives the span in its place. -/
theorem span_of_inner_wrapper :
    let before := wrapper stringType (spanFields 0 9)
    let after := wrapper (wrapper stringType (spanFields 2 8)) (spanFields 0 9)
    Wrapped (fun _ => True) before after ∧ ∃ p q, read before = .ok p ∧ read after = .ok q ∧
      p.span = some ⟨.int 0, .int 9⟩ ∧ q.span = some ⟨.int 2, .int 8⟩ := by
  intro before after
  refine ⟨?_, ?_⟩
  · apply wrapped_typeAround (fun _ => rfl)
    exact wrapped_wrapper rfl trivial (.refl _)
  · exact ⟨_, _, by with_unfolding_all rfl, by with_unfolding_all rfl, rfl, rfl⟩

end Reannotate
