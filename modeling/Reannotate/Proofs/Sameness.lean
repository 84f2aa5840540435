import Reannotate.Proofs.Grammar
import Reannotate.TypeScript.Same

/-!
# Proper nodes

A node is proper if each of its slots holds what the slot is meant for (`Node.Proper`); what a
conversion makes need not be asked for, so `undefined` may stand anywhere, and members and
parameters in any order. Proper nodes are the same only if they are equal (`Node.Proper.same_iff`):
no scalar of another kind can be alike to one of theirs.
-/

namespace Reannotate

def Scalar.Whole : Scalar → Prop
  | .bool _ | .int _ | .str _ => True
  | .null | .float _ => False

theorem Scalar.Textual.eq_of_alike {s t : Scalar} (h : s.Textual) (alike : s.alike t = true) :
    s = t := by
  obtain ⟨text, rfl⟩ := h
  exact (Scalar.str_alike_iff.1 alike).symm

theorem Scalar.Whole.eq_of_sameLiteral {s t : Scalar} (h : s.Whole)
    (same : s.sameLiteral t = true) : s = t := by
  have ⟨kind, alike⟩ : s.sameKind t = true ∧ s.alike t = true := by
    simpa [Scalar.sameLiteral] using same
  cases s with
  | null | float => exact h.elim
  | str text => exact (Scalar.str_alike_iff.1 alike).symm
  | int n =>
    cases t with
    | int m => simpa [Scalar.alike, Scalar.normal] using alike
    | _ => cases kind
  | bool b =>
    cases t with
    | bool c => cases b <;> cases c <;> first | rfl | cases alike
    | _ => cases kind

theorem Scalar.sameLiteral_refl (s : Scalar) : s.sameLiteral s = true := by
  rw [Scalar.sameLiteral, Scalar.alike_refl, Bool.and_true]
  cases s <;> rfl

namespace TypeScript

inductive SlotSort
  | type
  | member
  | typeParameter
  | parameter

def PropertyKey.Proper (k : PropertyKey) : Prop :=
  k.text.Textual ∧ ∃ b, k.quoted = .bool b

def Comment.Proper (c : Comment) : Prop :=
  c.value.Textual ∧ ∃ b, c.block = .bool b

structure Comments.Proper (cs : Comments) : Prop where
  leading : ∀ c ∈ cs.leading, c.Proper
  inner : ∀ c ∈ cs.inner, c.Proper
  trailing : ∀ c ∈ cs.trailing, c.Proper

/-- The nodes for a slot, with nodes for their slots in turn. The types of members and parameters
may be missing. -/
inductive Node.Proper : SlotSort → Node → Prop
  | keyword {name : Text} (h : keyword (.str name) ∈ keywords) : Proper .type (keyword (.str name))
  | this : Proper .type this
  | literal {v : Scalar} (h : v.Whole) : Proper .type (literal v)
  | reference {name : EntityName} {args : Option (List Node)} (hn : name.Textual)
      (h : ∀ ns ∈ args, ∀ n ∈ ns, Proper .type n) : Proper .type (reference name args)
  | operator {op : Operator} {n : Node} (h : Proper .type n) : Proper .type (operator op n)
  | access {n i : Node} (hn : Proper .type n) (hi : Proper .type i) : Proper .type (access n i)
  | array {n : Node} (h : Proper .type n) : Proper .type (array n)
  | group {g : Grouping} {ns : List Node} (h : ∀ n ∈ ns, Proper .type n) : Proper .type (group g ns)
  | object {ms : List Node} (h : ∀ m ∈ ms, Proper .member m) : Proper .type (object ms)
  | function {ts : Option (List Node)} {ps : List Node} {r : Option Node}
      (ht : ∀ ns ∈ ts, ∀ n ∈ ns, Proper .typeParameter n) (hp : ∀ n ∈ ps, Proper .parameter n)
      (hr : ∀ n ∈ r, Proper .type n) : Proper .type (function ts ps r)
  | property {key : PropertyKey} {t : Option Node} {optional readonly : Bool} {comments : Comments}
      (hk : key.Proper) (h : ∀ n ∈ t, Proper .type n) (hc : comments.Proper) :
      Proper .member (property key t optional readonly comments)
  | index {name : Scalar} {k t : Option Node} (hn : name.Textual) (hk : ∀ n ∈ k, Proper .type n)
      (ht : ∀ n ∈ t, Proper .type n) : Proper .member (index name k t)
  | typeParameter {name : Scalar} {c d : Option Node} (hn : name.Textual)
      (hc : ∀ n ∈ c, Proper .type n) (hd : ∀ n ∈ d, Proper .type n) :
      Proper .typeParameter (typeParameter name c d)
  | parameter {name : Scalar} {t : Option Node} {optional : Bool} (hn : name.Textual)
      (h : ∀ n ∈ t, Proper .type n) : Proper .parameter (parameter name t optional)
  | rest {name : Scalar} {t : Option Node} (hn : name.Textual) (h : ∀ n ∈ t, Proper .type n) :
      Proper .parameter (rest name t)

/-! ## Every node is the same as itself -/

theorem alikeLists_refl {α : Type} {r : α → α → Bool} (h : ∀ a, r a a = true) (as : List α) :
    alikeLists r as as = true := by
  induction as with
  | nil => rfl
  | cons a as ih => rw [alikeLists, h, ih, Bool.and_true]

theorem Comments.same_refl (c : Comments) : c.same c = true := by
  have each : ∀ cs : List Comment, alikeLists Comment.same cs cs = true :=
    alikeLists_refl fun c => by simp [Comment.same, Scalar.alike_refl]
  simp [Comments.same, each]

theorem EntityName.same_refl (n : EntityName) : n.same n = true := by
  cases n <;> simp [EntityName.same, Scalar.alike_refl]

mutual

theorem Node.same_refl (n : Node) : n.same n = true := by
  match n with
  | .bare k => simp [Node.same, alikeLists_refl Scalar.alike_refl]
  | .hole | .this => simp [Node.same]
  | .keyword name => simp [Node.same, Scalar.alike_refl]
  | .literal v => simp [Node.same, Scalar.sameLiteral_refl]
  | .reference name as => simp [Node.same, EntityName.same_refl, sameMaybeMany_refl as]
  | .operator o t => simp [Node.same, Node.same_refl t]
  | .access o i => simp [Node.same, Node.same_refl o, Node.same_refl i]
  | .array e => simp [Node.same, Node.same_refl e]
  | .group g ts => simp [Node.same, sameEach_refl ts]
  | .property k t o r c =>
    simp [Node.same, PropertyKey.same, Scalar.alike_refl, sameMaybe_refl t, Comments.same_refl]
  | .index n k t => simp [Node.same, Scalar.alike_refl, sameMaybe_refl k, sameMaybe_refl t]
  | .object ms => simp [Node.same, sameEach_refl ms]
  | .typeParameter n c d => simp [Node.same, Scalar.alike_refl, sameMaybe_refl c, sameMaybe_refl d]
  | .parameter n t o => simp [Node.same, Scalar.alike_refl, sameMaybe_refl t]
  | .rest n t => simp [Node.same, Scalar.alike_refl, sameMaybe_refl t]
  | .function ts ps r =>
    simp [Node.same, sameMaybeMany_refl ts, sameEach_refl ps, sameMaybe_refl r]

theorem sameEach_refl (ns : List Node) : sameEach ns ns = true := by
  match ns with
  | [] => simp [sameEach]
  | n :: rest => simp [sameEach, Node.same_refl n, sameEach_refl rest]

theorem sameMaybe_refl (o : Option Node) : sameMaybe o o = true := by
  match o with
  | none => simp [sameMaybe]
  | some n => simp [sameMaybe, Node.same_refl n]

theorem sameMaybeMany_refl (o : Option (List Node)) : sameMaybeMany o o = true := by
  match o with
  | none => simp [sameMaybeMany]
  | some ns => simp [sameMaybeMany, sameEach_refl ns]

end

/-! ## Proper nodes are the same only if they are equal -/

theorem eq_of_bool_alike {s t : Scalar} (hs : ∃ b, s = .bool b) (ht : ∃ b, t = .bool b)
    (alike : s.alike t = true) : s = t := by
  obtain ⟨b, rfl⟩ := hs
  obtain ⟨c, rfl⟩ := ht
  cases b <;> cases c <;> first | rfl | cases alike

theorem PropertyKey.Proper.eq_of_same {k l : PropertyKey} (hk : k.Proper) (hl : l.Proper)
    (same : k.same l = true) : k = l := by
  have ⟨text, quoted⟩ : k.text.alike l.text = true ∧ k.quoted.alike l.quoted = true := by
    simpa [PropertyKey.same] using same
  obtain ⟨_, _⟩ := k
  obtain ⟨_, _⟩ := l
  rw [PropertyKey.mk.injEq]
  exact ⟨hk.1.eq_of_alike text, eq_of_bool_alike hk.2 hl.2 quoted⟩

theorem Comment.Proper.eq_of_same {c d : Comment} (hc : c.Proper) (hd : d.Proper)
    (same : c.same d = true) : c = d := by
  have ⟨value, block⟩ : c.value.alike d.value = true ∧ c.block.alike d.block = true := by
    simpa [Comment.same] using same
  obtain ⟨_, _⟩ := c
  obtain ⟨_, _⟩ := d
  rw [Comment.mk.injEq]
  exact ⟨hc.1.eq_of_alike value, eq_of_bool_alike hc.2 hd.2 block⟩

theorem eq_of_alikeLists {α : Type} {r : α → α → Bool} : ∀ {as bs : List α},
    (∀ a ∈ as, ∀ b ∈ bs, r a b = true → a = b) → alikeLists r as bs = true → as = bs
  | [], [], _, _ => rfl
  | a :: as, b :: bs, h, same => by
    have ⟨hab, hrest⟩ : r a b = true ∧ alikeLists r as bs = true := by
      simpa [alikeLists] using same
    have head := h a List.mem_cons_self b List.mem_cons_self hab
    have tail := eq_of_alikeLists
      (fun a ha b hb => h a (List.mem_cons_of_mem _ ha) b (List.mem_cons_of_mem _ hb)) hrest
    rw [head, tail]

theorem Comments.Proper.eq_of_same {c d : Comments} (hc : c.Proper) (hd : d.Proper)
    (same : c.same d = true) : c = d := by
  have ⟨⟨leading, inner⟩, trailing⟩ : (alikeLists Comment.same c.leading d.leading = true ∧
      alikeLists Comment.same c.inner d.inner = true) ∧
      alikeLists Comment.same c.trailing d.trailing = true := by
    simpa [Comments.same] using same
  obtain ⟨_, _, _⟩ := c
  obtain ⟨_, _, _⟩ := d
  rw [Comments.mk.injEq]
  refine ⟨eq_of_alikeLists ?_ leading, eq_of_alikeLists ?_ inner, eq_of_alikeLists ?_ trailing⟩
  · exact fun c h d h' => (hc.leading c h).eq_of_same (hd.leading d h')
  · exact fun c h d h' => (hc.inner c h).eq_of_same (hd.inner d h')
  · exact fun c h d h' => (hc.trailing c h).eq_of_same (hd.trailing d h')

theorem EntityName.Textual.eq_of_same {m n : EntityName} (h : m.Textual) (same : m.same n = true) :
    m = n := by
  cases m with
  | plain name =>
    cases n with
    | plain other => rw [of_decide_eq_true same]
    | qualified => cases same
  | qualified left right =>
    cases n with
    | plain => cases same
    | qualified left' right' =>
      have ⟨hl, hr⟩ : left.alike left' = true ∧ right.alike right' = true := by
        simpa [EntityName.same] using same
      rw [h.1.eq_of_alike hl, h.2.eq_of_alike hr]

theorem eq_of_sameEach {ss ts : List Node} (h : ∀ s ∈ ss, ∀ t ∈ ts, s.same t = true → s = t)
    (same : sameEach ss ts = true) : ss = ts := by
  induction ss generalizing ts with
  | nil =>
    cases ts with
    | nil => rfl
    | cons => simp [sameEach] at same
  | cons s ss ih =>
    cases ts with
    | nil => simp [sameEach] at same
    | cons t ts =>
      have ⟨hst, hrest⟩ : s.same t = true ∧ sameEach ss ts = true := by
        simpa [sameEach] using same
      have head := h s List.mem_cons_self t List.mem_cons_self hst
      have tail := ih
        (fun s hs t ht => h s (List.mem_cons_of_mem _ hs) t (List.mem_cons_of_mem _ ht)) hrest
      rw [head, tail]

theorem eq_of_sameMaybe {o o' : Option Node} (h : ∀ s ∈ o, ∀ t ∈ o', s.same t = true → s = t)
    (same : sameMaybe o o' = true) : o = o' := by
  cases o <;> cases o' <;> simp only [sameMaybe, Bool.false_eq_true] at same
  · rfl
  · rw [h _ rfl _ rfl same]

theorem eq_of_sameMaybeMany {o o' : Option (List Node)}
    (h : ∀ ss ∈ o, ∀ s ∈ ss, ∀ ts ∈ o', ∀ t ∈ ts, s.same t = true → s = t)
    (same : sameMaybeMany o o' = true) : o = o' := by
  cases o <;> cases o' <;> simp only [sameMaybeMany, Bool.false_eq_true] at same
  · rfl
  · rw [eq_of_sameEach (fun s hs t ht => h _ rfl s hs _ rfl t ht) same]

theorem Node.Proper.eq_of_same {a : SlotSort} {s : Node} (hs : s.Proper a) :
    ∀ {b : SlotSort} {t : Node}, t.Proper b → s.same t = true → s = t := by
  -- Flags that are alike are equal only if both are flags, so `t` has to be proper as well.
  induction hs with
  | keyword h =>
    intro b t ht same
    cases ht with
    | keyword h' =>
      rw [Node.same, Scalar.alike_str] at same
      rw [same]
    | _ => simp [Node.same] at same
  | this =>
    intro b t ht same
    cases ht with
    | this => rfl
    | _ => simp [Node.same] at same
  | literal h =>
    intro b t ht same
    cases ht with
    | literal h' =>
      rw [Node.same] at same
      rw [h.eq_of_sameLiteral same]
    | _ => simp [Node.same] at same
  | reference hn h ih =>
    intro b t ht same
    cases ht with
    | reference hn' h' =>
      rw [Node.same, Bool.and_eq_true] at same
      have args := eq_of_sameMaybeMany
        (fun ss hss s hs ts hts t ht => ih ss hss s hs (h' ts hts t ht)) same.2
      rw [hn.eq_of_same same.1, args]
    | _ => simp [Node.same] at same
  | operator h ih =>
    intro b t ht same
    cases ht with
    | operator h' =>
      rw [Node.same, Bool.and_eq_true] at same
      rw [of_decide_eq_true same.1, ih h' same.2]
    | _ => simp [Node.same] at same
  | access hn hi ihn ihi =>
    intro b t ht same
    cases ht with
    | access hn' hi' =>
      rw [Node.same, Bool.and_eq_true] at same
      rw [ihn hn' same.1, ihi hi' same.2]
    | _ => simp [Node.same] at same
  | array h ih =>
    intro b t ht same
    cases ht with
    | array h' =>
      rw [Node.same] at same
      rw [ih h' same]
    | _ => simp [Node.same] at same
  | group h ih =>
    intro b t ht same
    cases ht with
    | group h' =>
      rw [Node.same, Bool.and_eq_true] at same
      have types := eq_of_sameEach (fun s hs t ht => ih s hs (h' t ht)) same.2
      rw [of_decide_eq_true same.1, types]
    | _ => simp [Node.same] at same
  | object h ih =>
    intro b t ht same
    cases ht with
    | object h' =>
      rw [Node.same] at same
      rw [eq_of_sameEach (fun s hs t ht => ih s hs (h' t ht)) same]
    | _ => simp [Node.same] at same
  | function ht hp hr iht ihp ihr =>
    intro b t hf same
    cases hf with
    | function ht' hp' hr' =>
      rw [Node.same, Bool.and_eq_true, Bool.and_eq_true] at same
      have typeParams := eq_of_sameMaybeMany
        (fun ss hss s hs ts hts t h => iht ss hss s hs (ht' ts hts t h)) same.1.1
      have params := eq_of_sameEach (fun s hs t h => ihp s hs (hp' t h)) same.1.2
      have result := eq_of_sameMaybe (fun s hs t h => ihr s hs (hr' t h)) same.2
      rw [typeParams, params, result]
    | _ => simp [Node.same] at same
  | property hk h hc ih =>
    intro b t ht same
    cases ht with
    | property hk' h' hc' =>
      simp only [Node.same, Bool.and_eq_true, beq_iff_eq] at same
      obtain ⟨⟨⟨⟨key, type⟩, optional⟩, readonly⟩, comments⟩ := same
      have type := eq_of_sameMaybe (fun s hs t ht => ih s hs (h' t ht)) type
      rw [hk.eq_of_same hk' key, type, optional, readonly, hc.eq_of_same hc' comments]
    | _ => simp [Node.same] at same
  | index hn hk ht ihk iht =>
    intro b t hi same
    cases hi with
    | index hn' hk' ht' =>
      rw [Node.same, Bool.and_eq_true, Bool.and_eq_true] at same
      have key := eq_of_sameMaybe (fun s hs t h => ihk s hs (hk' t h)) same.1.2
      have type := eq_of_sameMaybe (fun s hs t h => iht s hs (ht' t h)) same.2
      rw [hn.eq_of_alike same.1.1, key, type]
    | _ => simp [Node.same] at same
  | typeParameter hn hc hd ihc ihd =>
    intro b t ht same
    cases ht with
    | typeParameter hn' hc' hd' =>
      rw [Node.same, Bool.and_eq_true, Bool.and_eq_true] at same
      have constraint := eq_of_sameMaybe (fun s hs t h => ihc s hs (hc' t h)) same.1.2
      have default := eq_of_sameMaybe (fun s hs t h => ihd s hs (hd' t h)) same.2
      rw [hn.eq_of_alike same.1.1, constraint, default]
    | _ => simp [Node.same] at same
  | parameter hn h ih =>
    intro b t ht same
    cases ht with
    | parameter hn' h' =>
      rw [Node.same, Bool.and_eq_true, Bool.and_eq_true, beq_iff_eq] at same
      have type := eq_of_sameMaybe (fun s hs t ht => ih s hs (h' t ht)) same.1.2
      rw [hn.eq_of_alike same.1.1, type, same.2]
    | _ => simp [Node.same] at same
  | rest hn h ih =>
    intro b t ht same
    cases ht with
    | rest hn' h' =>
      rw [Node.same, Bool.and_eq_true] at same
      have type := eq_of_sameMaybe (fun s hs t ht => ih s hs (h' t ht)) same.2
      rw [hn.eq_of_alike same.1, type]
    | _ => simp [Node.same] at same

theorem Node.Proper.same_iff {a b : SlotSort} {s t : Node} (hs : s.Proper a) (ht : t.Proper b) :
    s.same t = true ↔ s = t := by
  constructor
  · exact hs.eq_of_same ht
  · rintro rfl
    exact Node.same_refl s

end TypeScript

end Reannotate
