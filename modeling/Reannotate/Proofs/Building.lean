import Mathlib.Data.List.Perm.Subperm
import Reannotate.Proofs.Everywhere
import Reannotate.Proofs.Lookup
import Reannotate.Proofs.Objects

/-!
# Objects are built as phrases are read

`build` and `read` run side by side: both fail with the same fault, or the object that is built
stands for the phrase that is read (`builds_build`). On the way each object that was made is either
adopted already, once and for all, or owned and still without a parent (`Owns`).
-/

namespace Reannotate.Flow

namespace Held

variable {α β : Type}

theorem slots_map_fst (field : String) (f : α → β) (x : Held α) :
    (x.map f).slots field = (x.slots field).map fun s => (s.1, f s.2) := by
  cases x with
  | one x => rfl
  | many xs => simp [slots, map, List.zipIdx_map, Prod.map]
  | plain v => rfl

theorem map_snd_slots (field : String) (x : Held α) : (x.slots field).map Prod.snd = x.all := by
  cases x with
  | one x => rfl
  | many xs => simp [slots, all, Function.comp_def, List.zipIdx_map_fst]
  | plain v => rfl

theorem held_part (field : String) (x : Held Phrase) : x.part.held field = x.slots field := by
  cases x with
  | plain v => cases v <;> rfl
  | _ => rfl

end Held

/-! ## Heaps -/

/-- The object at an address and all below it are what the phrase and all below it are. -/
inductive Stands (os : List Object) : Address → Phrase → Prop
  | intro {a : Address} {p : Phrase} {o : Object} {fields : List (String × Held (Address × Phrase))}
      (object : os[a]? = some o) (kind : o.kind = p.kind)
      (held : o.fields = fields.map fun f => (f.1, f.2.map Prod.fst))
      (parts : p.fields = fields.map fun f => (f.1, (f.2.map Prod.snd).part))
      (children : ∀ f ∈ fields, ∀ x ∈ f.2.all, Stands os x.1 x.2) : Stands os a p

/-- No object is held twice, and the parent of what is held is where it is held. -/
structure Heap.Sound (h : Heap) : Prop where
  vacant : ∀ a, h.objects.length ≤ a → h.parent a = none
  apart : ∀ (a : Address) (o : Object), h.objects[a]? = some o → (o.children.map Prod.snd).Nodup
  linked : ∀ (a : Address) (o : Object), h.objects[a]? = some o →
    ∀ c ∈ o.children, h.parent c.2 = some a

/-- These objects are apart from each other, stand for these phrases, and nothing adopted them. -/
structure Owns (owned : List (Address × Phrase)) (h : Heap) : Prop where
  sound : h.Sound
  apart : (owned.map Prod.fst).Nodup
  present : ∀ x ∈ owned, x.1 < h.objects.length
  orphan : ∀ x ∈ owned, h.parent x.1 = none
  stands : ∀ x ∈ owned, Stands h.objects x.1 x.2

theorem Stands.append {os : List Object} {a : Address} {p : Phrase} (h : Stands os a p)
    (more : List Object) : Stands (os ++ more) a p := by
  induction h with
  | intro object kind held parts _ ih =>
    refine .intro ?_ kind held parts ih
    rw [List.getElem?_append_left (List.getElem?_eq_some_iff.1 object).1, object]

theorem Stands.same {os : List Object} {a : Address} {p q : Phrase} (h : Stands os a p)
    (kind : p.kind = q.kind) (fields : p.fields = q.fields) : Stands os a q := by
  cases h with
  | intro object hk held parts children =>
    exact .intro object (hk.trans kind) held (fields ▸ parts) children

theorem Owns.of_subperm {owned owned' : List (Address × Phrase)} {h : Heap} (hO : Owns owned h)
    (hs : owned'.Subperm owned) : Owns owned' h where
  sound := hO.sound
  apart := by
    obtain ⟨l, hperm, hsub⟩ := hs
    exact (hperm.map Prod.fst).nodup_iff.1 (hO.apart.sublist (hsub.map Prod.fst))
  present x hx := hO.present x (hs.subset hx)
  orphan x hx := hO.orphan x (hs.subset hx)
  stands x hx := hO.stands x (hs.subset hx)

theorem owns_empty : Owns [] Heap.empty where
  sound :=
    { vacant := fun _ _ => rfl
      apart := by simp [Heap.empty]
      linked := by simp [Heap.empty] }
  apart := List.nodup_nil
  present := by simp
  orphan := by simp
  stands := by simp

def heldAll (fields : List (String × Held (Address × Phrase))) : List (Address × Phrase) :=
  fields.flatMap fun f => f.2.all

theorem children_held (kind : String) (fields : List (String × Held (Address × Phrase))) :
    (Object.mk kind (fields.map fun f => (f.1, f.2.map Prod.fst))).children.map Prod.snd =
      (heldAll fields).map Prod.fst := by
  unfold Object.children heldAll
  rw [List.flatMap_map, List.map_flatMap, List.map_flatMap]
  refine List.flatMap_congr fun f _ => ?_
  rw [Held.slots_map_fst, List.map_map, ← Held.map_snd_slots f.1 f.2, List.map_map]
  rfl

@[simp] theorem Heap.objects_adopt (h : Heap) (self : Address) (children : List Address) :
    (h.adopt self children).objects = h.objects := rfl

theorem Heap.parent_adopt (h : Heap) (self : Address) (children : List Address) (a : Address) :
    (h.adopt self children).parent a = if a ∈ children then some self else h.parent a := rfl

theorem getElem?_concat_eq_some {os : List Object} {new o : Object} {a : Nat}
    (h : (os ++ [new])[a]? = some o) : os[a]? = some o ∨ a = os.length ∧ o = new := by
  rw [List.getElem?_append] at h
  split at h
  · exact .inl h
  · rename_i ha
    have : a - os.length = 0 := by
      by_contra hne
      rw [List.getElem?_eq_none (by simp; omega)] at h
      cases h
    rw [this] at h
    cases h
    exact .inr ⟨by omega, rfl⟩

theorem Heap.Sound.construct {h : Heap} (sound : h.Sound) {o : Object}
    (apart : (o.children.map Prod.snd).Nodup)
    (present : ∀ a ∈ o.children.map Prod.snd, a < h.objects.length)
    (orphan : ∀ a ∈ o.children.map Prod.snd, h.parent a = none) :
    (Heap.adopt ⟨h.objects ++ [o], h.parent⟩ h.objects.length (o.children.map Prod.snd)).Sound := by
  refine ⟨?_, ?_, ?_⟩
  · intro a ha
    rw [Heap.objects_adopt, List.length_append] at ha
    have ha : h.objects.length ≤ a := Nat.le_of_lt ha
    rw [Heap.parent_adopt, if_neg fun hm => Nat.not_lt.2 ha (present a hm), sound.vacant a ha]
  · intro a o' ho'
    rcases getElem?_concat_eq_some ho' with ho' | ⟨rfl, rfl⟩
    · exact sound.apart a o' ho'
    · exact apart
  · intro a o' ho' c hc
    rw [Heap.parent_adopt]
    rcases getElem?_concat_eq_some ho' with ho' | ⟨rfl, rfl⟩
    · -- What an older object holds has a parent already, so it is not adopted again.
      have linked := sound.linked a o' ho' c hc
      rw [if_neg, linked]
      intro hm
      rw [orphan _ hm] at linked
      cases linked
    · rw [if_pos (List.mem_map_of_mem hc)]

section
variable {owned : List (Address × Phrase)} {fields : List (String × Held (Address × Phrase))}
  {h : Heap} {p : Phrase}

theorem Owns.construct (hO : Owns (owned ++ heldAll fields) h)
    (hp : p.fields = fields.map fun f => (f.1, (f.2.map Prod.snd).part)) {o : Object}
    (ho : o = ⟨p.kind, fields.map fun f => (f.1, f.2.map Prod.fst)⟩) :
    Owns (owned ++ [(h.objects.length, p)])
      (Heap.adopt ⟨h.objects ++ [o], h.parent⟩ h.objects.length
        ((heldAll fields).map Prod.fst)) := by
  obtain ⟨sound, apart, present, orphan, stands⟩ := hO
  simp only [List.forall_mem_append] at present orphan stands
  rw [List.map_append, List.nodup_append] at apart
  obtain ⟨apartOwned, apartHeld, disjoint⟩ := apart
  have children : o.children.map Prod.snd = (heldAll fields).map Prod.fst := by
    rw [ho]
    exact children_held p.kind fields
  have present' : ∀ a ∈ (heldAll fields).map Prod.fst, a < h.objects.length := by
    rw [List.forall_mem_map]
    exact present.2
  have orphan' : ∀ a ∈ (heldAll fields).map Prod.fst, h.parent a = none := by
    rw [List.forall_mem_map]
    exact orphan.2
  refine ⟨?_, ?_, ?_, ?_, ?_⟩
  · rw [← children] at apartHeld present' orphan' ⊢
    exact sound.construct apartHeld present' orphan'
  · rw [List.map_append, List.nodup_append]
    refine ⟨apartOwned, by simp, ?_⟩
    intro a ha b hb
    obtain ⟨x, hx, rfl⟩ := List.mem_map.1 ha
    cases List.mem_singleton.1 hb
    exact Nat.ne_of_lt (present.1 x hx)
  · rw [Heap.objects_adopt, List.length_append, List.forall_mem_append, List.forall_mem_singleton]
    exact ⟨fun x hx => Nat.lt_succ_of_lt (present.1 x hx), Nat.lt_succ_self _⟩
  · simp only [Heap.parent_adopt, List.forall_mem_append, List.forall_mem_singleton]
    constructor
    · intro x hx
      rw [if_neg fun hm => disjoint _ (List.mem_map_of_mem hx) _ hm rfl, orphan.1 x hx]
    · rw [if_neg fun hm => Nat.lt_irrefl _ (present' _ hm), sound.vacant _ (Nat.le_refl _)]
  · rw [Heap.objects_adopt, List.forall_mem_append, List.forall_mem_singleton]
    refine ⟨fun x hx => (stands.1 x hx).append _, ?_⟩
    refine .intro (List.getElem?_concat_length ..) (by rw [ho]) (by rw [ho]) hp fun f hf x hx => ?_
    exact (stands.2 x (List.mem_flatMap.2 ⟨f, hf, hx⟩)).append _

end

/-! ## Side by side -/

/-- From a heap of which `P` holds, `b` fails with the fault of `x`, or has a result as well, and
`Q` holds of both results and the heap then. -/
def Mirrors {α β : Type} (P : Heap → Prop) (x : Except Fault α) (b : Building β)
    (Q : α → β → Heap → Prop) : Prop :=
  ∀ h, P h → match x with
    | .ok v => ∃ w h', b.run h = .ok (w, h') ∧ Q v w h'
    | .error e => b.run h = .error e

section
variable {α β γ δ : Type} {P : Heap → Prop} {Q : α → β → Heap → Prop} {R : γ → δ → Heap → Prop}

theorem mirrors_pure {v : α} {w : β} (h : ∀ heap, P heap → Q v w heap) :
    Mirrors P (.ok v) (pure w) Q :=
  fun heap hP => ⟨w, heap, rfl, h heap hP⟩

theorem mirrors_throw (e : Fault) : Mirrors P (.error e) (throw e : Building β) Q := fun _ _ => rfl

theorem Mirrors.bind {x : Except Fault α} {b : Building β} {f : α → Except Fault γ}
    {g : β → Building δ} (h : Mirrors P x b Q) (hfg : ∀ v w, Mirrors (Q v w) (f v) (g w) R) :
    Mirrors P (x >>= f) (b >>= g) R := by
  intro heap hP
  have hx := h heap hP
  cases x with
  | error e =>
    show (b >>= g).run heap = .error e
    rw [StateT.run_bind, show b.run heap = .error e from hx]
    rfl
  | ok v =>
    obtain ⟨w, heap', hrun, hq⟩ := hx
    have hv := hfg v w heap' hq
    have run : (b >>= g).run heap = (g w).run heap' := by
      rw [StateT.run_bind, hrun]
      rfl
    show match f v with | .ok v => _ | .error e => _
    rw [run]
    exact hv

theorem Mirrors.lift_bind {x : Except Fault α} {f : α → Except Fault γ} {g : α → Building δ}
    (h : ∀ v, Mirrors P (f v) (g v) R) : Mirrors P (x >>= f) (liftM x >>= g) R := by
  have lifted : Mirrors P x (liftM x : Building α) fun v w heap => v = w ∧ P heap := by
    intro heap hP
    cases x with
    | error e => rfl
    | ok v => exact ⟨v, heap, rfl, rfl, hP⟩
  refine lifted.bind fun v w heap hP => ?_
  obtain ⟨rfl, hP⟩ := hP
  exact h v heap hP

end

abbrev Gives {α β γ : Type} (left : γ → α) (right : γ → β) (own : γ → List (Address × Phrase))
    (owned : List (Address × Phrase)) (v : α) (w : β) (heap : Heap) : Prop :=
  ∃ z, v = left z ∧ w = right z ∧ Owns (owned ++ own z) heap

/-- Whatever is owned before, `b` mirrors `x`, and what they give is owned besides. -/
def Builds {α β γ : Type} (left : γ → α) (right : γ → β) (own : γ → List (Address × Phrase))
    (x : Except Fault α) (b : Building β) : Prop :=
  ∀ owned, Mirrors (Owns owned) x b (Gives left right own owned)

structure Parameters where
  params : List (Address × Phrase)
  rest : Option (Address × Phrase)

namespace Parameters

def read (z : Parameters) : Reader.Declared := ⟨z.params.map Prod.snd, z.rest.map Prod.snd⟩

def built (z : Parameters) : Building.Declared := ⟨z.params.map Prod.fst, z.rest.map Prod.fst⟩

def all (z : Parameters) : List (Address × Phrase) := z.params ++ z.rest.toList

end Parameters

abbrev BuildsOne : Except Fault Phrase → Building Address → Prop :=
  Builds Prod.snd Prod.fst fun z => [z]

abbrev BuildsMany : Except Fault (List Phrase) → Building (List Address) → Prop :=
  Builds (List.map Prod.snd) (List.map Prod.fst) id

abbrev BuildsMaybe : Except Fault (Option Phrase) → Building (Option Address) → Prop :=
  Builds (Option.map Prod.snd) (Option.map Prod.fst) Option.toList

abbrev BuildsParams :
    Except Fault (Option (List Phrase)) → Building (Option (List Address)) → Prop :=
  Builds (Option.map (List.map Prod.snd)) (Option.map (List.map Prod.fst)) fun zs => zs.getD []

theorem Builds.bind {α β γ δ ε : Type} {left : γ → α} {right : γ → β}
    {own : γ → List (Address × Phrase)} {x : Except Fault α} {b : Building β}
    {f : α → Except Fault δ} {g : β → Building ε} {R : δ → ε → Heap → Prop}
    {owned : List (Address × Phrase)} (h : Builds left right own x b)
    (hfg : ∀ z, Mirrors (Owns (owned ++ own z)) (f (left z)) (g (right z)) R) :
    Mirrors (Owns owned) (x >>= f) (b >>= g) R := by
  refine (h owned).bind fun v w heap hz => ?_
  obtain ⟨z, rfl, rfl, hO⟩ := hz
  exact hfg z heap hO

theorem builds_pure {α β γ : Type} {left : γ → α} {right : γ → β}
    {own : γ → List (Address × Phrase)} (z : γ) (h : own z = []) :
    Builds left right own (.ok (left z)) (pure (right z)) :=
  fun owned => mirrors_pure fun heap hO => ⟨z, rfl, rfl, by rwa [h, List.append_nil]⟩

theorem Builds.then_pure {α β γ γ' δ ε : Type} {left : γ → α} {right : γ → β}
    {own : γ → List (Address × Phrase)} {left' : γ' → δ} {right' : γ' → ε}
    {own' : γ' → List (Address × Phrase)} {x : Except Fault α} {b : Building β} {f : α → δ}
    {g : β → ε} (h : Builds left right own x b) (k : γ → γ') (hf : ∀ z, f (left z) = left' (k z))
    (hg : ∀ z, g (right z) = right' (k z)) (hown : ∀ z, own' (k z) = own z) :
    Builds left' right' own' (do return f (← x)) (do return g (← b)) := by
  intro owned
  refine h.bind fun z => mirrors_pure fun heap hO => ⟨k z, hf z, hg z, ?_⟩
  rwa [hown]

@[simp] theorem heldAll_nil : heldAll [] = [] := rfl

@[simp] theorem heldAll_cons (name : String) (x : Held (Address × Phrase))
    (fields : List (String × Held (Address × Phrase))) :
    heldAll ((name, x) :: fields) = x.all ++ heldAll fields := rfl

namespace Held

variable {α β : Type}

@[simp] theorem all_one (x : α) : (one x).all = [x] := rfl

@[simp] theorem all_many (xs : List α) : (many xs).all = xs := rfl

@[simp] theorem all_plain (v : Plain) : (plain v : Held α).all = [] := rfl

@[simp] theorem all_value (j : Json) : (value j : Held α).all = [] := rfl

@[simp] theorem all_maybe (o : Option α) : (maybe o).all = o.toList := by
  cases o <;> rfl

@[simp] theorem all_maybeMany (o : Option (List α)) : (maybeMany o).all = o.getD [] := by
  cases o <;> rfl

@[simp] theorem map_one (f : α → β) (x : α) : (one x).map f = one (f x) := rfl

@[simp] theorem map_many (f : α → β) (xs : List α) : (many xs).map f = many (xs.map f) := rfl

@[simp] theorem map_value (f : α → β) (j : Json) : (value j).map f = value j := rfl

@[simp] theorem map_maybe (f : α → β) (o : Option α) : (maybe o).map f = maybe (o.map f) := by
  cases o <;> rfl

@[simp] theorem map_maybeMany (f : α → β) (o : Option (List α)) :
    (maybeMany o).map f = maybeMany (o.map (List.map f)) := by
  cases o <;> rfl

@[simp] theorem part_one (p : Phrase) : (one p).part = .phrase p := rfl

@[simp] theorem part_many (ps : List Phrase) : (many ps).part = .phrases ps := rfl

@[simp] theorem part_value (j : Json) : (value j).part = .value j := rfl

@[simp] theorem part_maybe (o : Option Phrase) : (maybe o).part = Part.maybe o := by
  cases o <;> rfl

@[simp] theorem part_maybeMany (o : Option (List Phrase)) :
    (maybeMany o).part = Part.maybeMany o := by
  cases o <;> rfl

end Held

theorem getD_map_map {α β : Type} (f : α → β) (o : Option (List α)) :
    (o.map (List.map f)).getD [] = (o.getD []).map f := by
  cases o <;> rfl

namespace Building

open Json (Inner required optional flag field?)
open Reader (Below readAll readChild readMaybe readOptional readMembers readList readRequiredList
  readParams readTypeName)

section
variable {owned current : List (Address × Phrase)}

theorem mirrors_construct {α : Type} {v : α} {R : α → Address → Heap → Prop} (p : Phrase)
    (fields : List (String × Held (Address × Phrase))) {kind : String}
    {held : List (String × Held Address)} {adopted : List Address}
    (hc : current.Perm (owned ++ heldAll fields)) (hk : kind = p.kind)
    (hp : p.fields = fields.map fun f => (f.1, (f.2.map Prod.snd).part))
    (hf : held = fields.map fun f => (f.1, f.2.map Prod.fst))
    (ha : adopted = (heldAll fields).map Prod.fst)
    (hR : ∀ a heap, Owns (owned ++ [(a, p)]) heap → R v a heap) :
    Mirrors (Owns current) (.ok v) (construct kind held adopted) R := by
  intro heap hO
  refine ⟨heap.objects.length, _, rfl, hR _ _ ?_⟩
  rw [ha]
  exact (hO.of_subperm hc.symm.subperm).construct hp (by rw [hk, hf])

theorem owns_one {p : Phrase} (a : Address) (heap : Heap) (h : Owns (owned ++ [(a, p)]) heap) :
    Gives Prod.snd Prod.fst (fun z => [z]) owned p a heap :=
  ⟨(a, p), rfl, rfl, h⟩

end

/-! ## Small readers -/

section
variable {node : Json} {below : Below node} {below' : Inner node → Building Address}
variable (h : ∀ part, BuildsOne (below part) (below' part))
include h

theorem builds_all (ps : List (Inner node)) :
    BuildsMany (readAll below ps) (buildAll below' ps) := by
  unfold readAll buildAll
  induction ps with
  | nil =>
    rw [List.mapM_nil, List.mapM_nil]
    exact builds_pure [] rfl
  | cons part ps ih =>
    intro owned
    rw [List.mapM_cons, List.mapM_cons]
    refine (h part).bind fun z => ih.bind fun zs => ?_
    exact mirrors_pure fun heap hO => ⟨z :: zs, rfl, rfl, by simpa using hO⟩

theorem builds_child (name : String) : BuildsOne (readChild below name) (buildChild below' name) :=
  fun owned => Mirrors.lift_bind fun part => h part owned

theorem builds_maybe (o : Option (Inner node)) :
    BuildsMaybe (readMaybe below o) (buildMaybe below' o) := by
  cases o with
  | none => exact builds_pure none rfl
  | some part => exact (h part).then_pure some (fun _ => rfl) (fun _ => rfl) fun _ => rfl

theorem builds_optional (name : String) :
    BuildsMaybe (readOptional below name) (buildOptional below' name) :=
  fun owned => Mirrors.lift_bind fun part => builds_maybe h part owned

theorem builds_members (o : Option (Inner node)) :
    BuildsMany (readMembers below o) (buildMembers below' o) := by
  cases o with
  | none => exact builds_pure [] rfl
  | some part => exact fun owned => Mirrors.lift_bind fun parts => builds_all h parts owned

theorem builds_list (name : String) : BuildsMany (readList below name) (buildList below' name) :=
  fun owned => Mirrors.lift_bind fun part => builds_members h part owned

theorem builds_requiredList (name : String) :
    BuildsMany (readRequiredList below name) (buildRequiredList below' name) :=
  fun owned => Mirrors.lift_bind fun part => builds_members h (some part) owned

theorem builds_params (name : String) :
    BuildsParams (readParams below name) (buildParams below' name) := by
  refine fun owned => Mirrors.lift_bind fun outer => ?_
  cases outer with
  | none =>
    have nothing : BuildsParams (.ok none) (pure none) := builds_pure none rfl
    exact nothing owned
  | some outer =>
    refine Mirrors.lift_bind fun params => ?_
    exact (builds_members h _).then_pure some (fun _ => rfl) (fun _ => rfl) (fun _ => rfl) owned

end

/-! ## Nodes -/

abbrev BuildsName : Except Fault TypeName → Building Address → Prop :=
  Builds Prod.snd Prod.fst fun z : Address × TypeName => [(z.1, .typeName z.2)]

theorem builds_typeName (node : Json) : BuildsName (readTypeName node) (buildTypeName node) := by
  intro owned
  rw [readTypeName, buildTypeName]
  refine Mirrors.lift_bind fun type => ?_
  split
  · refine Mirrors.lift_bind fun name => Mirrors.lift_bind fun text => ?_
    exact mirrors_construct (.typeName (.plain (Reader.span? node) text))
      [("text", .value (.str text))] (by simp) rfl rfl rfl rfl
      fun a heap hO => ⟨(a, _), rfl, rfl, hO⟩
  · split
    · refine Mirrors.lift_bind fun q => ?_
      have := q.2
      refine (builds_typeName q.1).bind fun y => Mirrors.lift_bind fun i => ?_
      have := i.2
      refine (builds_typeName i.1).bind fun z => ?_
      exact mirrors_construct (.typeName (.qualified (Reader.span? node) y.2 z.2))
        [("qualification", .one (y.1, .typeName y.2)), ("id", .one (z.1, .typeName z.2))]
        (by simp) rfl rfl rfl rfl fun a heap hO => ⟨(a, _), rfl, rfl, hO⟩
    · exact mirrors_throw _
termination_by node.depth

theorem mirrors_identifier (name : Json) (t : Option (Address × Phrase)) (o : Bool)
    (owned : List (Address × Phrase)) : Mirrors (Owns (owned ++ t.toList))
      (.ok (.parameter none .declared name (t.map Prod.snd) o))
      (identifier name (t.map Prod.fst) o) (Gives Prod.snd Prod.fst (fun z => [z]) owned) :=
  mirrors_construct (.parameter none .declared name _ o) [("name", .value name),
    ("type_annotation", .maybe t), ("optional", .value (.bool o))] (by simp) rfl
    (by simp [Phrase.fields]) (by simp) (by simp [Option.toList_map]) owns_one

section
variable {node : Json} {below : Below node} {below' : Inner node → Building Address}
variable (h : ∀ part, BuildsOne (below part) (below' part))
include h

theorem builds_generic : BuildsOne (Reader.readGeneric below) (buildGeneric below') := by
  intro owned
  refine (builds_params h _).bind fun as => Mirrors.lift_bind fun id => ?_
  refine (builds_typeName id.1).bind fun z => ?_
  refine mirrors_construct (.generic none z.2 _) [("id", .one (z.1, .typeName z.2)),
    ("type_args", .maybeMany as)] ?_ rfl (by simp [Phrase.fields]) (by simp)
    (by simp [getD_map_map]) owns_one
  -- The arguments are read first.
  simp only [heldAll_cons, heldAll_nil, Held.all_one, Held.all_maybeMany, List.append_nil,
    List.append_assoc]
  exact (List.perm_append_singleton _ _).append_left owned

theorem builds_around (name field kind : String) (f : Phrase → Phrase)
    (hk : ∀ p, kind = (f p).kind) (hf : ∀ p, (f p).fields = [(field, .phrase p)]) :
    BuildsOne (do return f (← readChild below name)) (do
      let child ← buildChild below' name
      construct kind [(field, .one child)] [child]) := by
  intro owned
  refine (builds_child h _).bind fun z => ?_
  exact mirrors_construct (f z.2) [(field, .one z)] (by simp) (hk _) (hf _) rfl rfl owns_one

omit h in
theorem builds_group {x : Except Fault (List Phrase)} {b : Building (List Address)}
    (h : BuildsMany x b) (g : Grouping) :
    BuildsOne (do return .group none g (← x)) (do group g (← b)) := by
  intro owned
  refine h.bind fun zs => ?_
  exact mirrors_construct (.group none g _) [("types", .many zs)] (by simp) rfl rfl rfl
    (by simp) owns_one

theorem builds_tuple : BuildsOne (Reader.readTuple below) (buildTuple below') :=
  builds_group (builds_list h _) .tuple

theorem builds_object : BuildsOne (Reader.readObject below) (buildObject below') := by
  intro owned
  refine (builds_list h _).bind fun ps => (builds_list h _).bind fun is => ?_
  refine (builds_list h _).bind fun cs => ?_
  exact mirrors_construct (.object none _ _ _ _) [("properties", .many ps), ("indexers", .many is),
    ("call_properties", .many cs), ("exact", .value _)] (by simp) rfl rfl rfl (by simp) owns_one

theorem builds_property : BuildsOne (Reader.readProperty below) (buildProperty below') := by
  intro owned
  refine Mirrors.lift_bind fun part => Mirrors.lift_bind fun key => ?_
  refine (builds_child h _).bind fun v => Mirrors.lift_bind fun kind => ?_
  refine Mirrors.lift_bind fun leading => Mirrors.lift_bind fun inner => ?_
  refine Mirrors.lift_bind fun trailing => Mirrors.lift_bind fun w => ?_
  exact mirrors_construct (.property none key v.2 _ w ⟨leading, inner, trailing⟩)
    [("key", .plain (.key key)), ("value", .one v), ("optional", .value _), ("variance", .value _),
      ("leading_comments", .plain (.comments leading)),
      ("inner_comments", .plain (.comments inner)),
      ("trailing_comments", .plain (.comments trailing))] (by simp) rfl rfl rfl rfl owns_one

theorem builds_indexer : BuildsOne (Reader.readIndexer below) (buildIndexer below') := by
  intro owned
  refine Mirrors.lift_bind fun id => (builds_child h _).bind fun k => ?_
  refine (builds_child h _).bind fun v => Mirrors.lift_bind fun w => ?_
  exact mirrors_construct (.indexer none id k.2 v.2 w) [("id", .value id), ("key", .one k),
    ("value", .one v), ("variance", .value w)] (by simp) rfl rfl rfl rfl owns_one

theorem builds_callProperty : BuildsOne
    (do return .callProperty none (← readChild below "value") (flag "static" node))
    (do callProperty (← buildChild below' "value") (flag "static" node)) := by
  intro owned
  refine (builds_child h _).bind fun z => ?_
  exact mirrors_construct (.callProperty none z.2 _) [("value", .one z), ("static", .value _)]
    (by simp) rfl rfl rfl rfl owns_one

theorem builds_functionType :
    BuildsOne (Reader.readFunctionType below) (buildFunctionType below') := by
  intro owned
  refine (builds_list h _).bind fun ps => (builds_optional h _).bind fun r => ?_
  refine (builds_optional h _).bind fun rest => (builds_params h _).bind fun ts => ?_
  exact mirrors_construct (.callable none .ofType _ _ _ _) [("params", .many ps),
    ("return_type", .maybe r), ("rest", .maybe rest), ("type_params", .maybeMany ts)] (by simp) rfl
    (by simp [Phrase.fields]) (by simp) (by simp [getD_map_map, Option.toList_map]) owns_one

theorem builds_functionTypeParam :
    BuildsOne (Reader.readFunctionTypeParam below) (buildFunctionTypeParam below') := by
  intro owned
  refine Mirrors.lift_bind fun name => (builds_optional h _).bind fun t => ?_
  exact mirrors_construct (.parameter none .ofType name _ _) [("name", .value name),
    ("type_annotation", .maybe t), ("optional", .value (.bool (flag "optional" node)))] (by simp)
    rfl (by simp [Phrase.fields]) (by simp) (by simp [Option.toList_map]) owns_one

theorem builds_typeParameter :
    BuildsOne (Reader.readTypeParameter below) (buildTypeParameter below') := by
  intro owned
  refine Mirrors.lift_bind fun name => (builds_optional h _).bind fun b => ?_
  refine (builds_optional h _).bind fun d => Mirrors.lift_bind fun w => ?_
  exact mirrors_construct (.typeParameter none name.1 _ _ w) [("name", .value name.1),
    ("bound", .maybe b), ("default", .maybe d), ("variance", .value w)] (by simp) rfl
    (by simp [Phrase.fields]) (by simp) (by simp [Option.toList_map]) owns_one

theorem builds_identifier : BuildsOne (Reader.readIdentifier below) (buildIdentifier below') := by
  intro owned
  refine Mirrors.lift_bind fun name => (builds_optional h _).bind fun t => ?_
  exact mirrors_identifier name.1 t _ owned

theorem builds_restElement :
    BuildsOne (Reader.readRestElement below) (buildRestElement below') := by
  intro owned
  refine Mirrors.lift_bind fun argument => Mirrors.lift_bind fun type => ?_
  split
  · refine Mirrors.lift_bind fun name => (builds_maybe h _).bind fun t => ?_
    exact mirrors_identifier name.1 t _ owned
  · exact mirrors_throw _

/-! ## Declared functions -/

omit h in
theorem perm_param (ps rest : List (Address × Phrase)) (y : Address × Phrase) :
    (ps ++ rest ++ [y]).Perm (ps ++ [y] ++ rest) := by
  rw [List.append_assoc, List.append_assoc]
  exact List.perm_append_comm.append_left ps

/-- A rest parameter that another one follows is left behind, without a parent. -/
theorem builds_declaredParam (z : Parameters) (param : Inner node)
    (owned : List (Address × Phrase)) : Mirrors (Owns (owned ++ z.all))
      (Reader.readDeclaredParam below z.read param) (buildDeclaredParam below' z.built param)
      (Gives Parameters.read Parameters.built Parameters.all owned) := by
  refine Mirrors.lift_bind fun type => ?_
  split
  · refine (h param).bind fun y => mirrors_pure fun heap hO => ?_
    rw [List.append_assoc] at hO
    have kept : (z.params ++ [y]).Sublist (z.params ++ z.rest.toList ++ [y]) := by
      rw [List.append_assoc]
      exact (List.sublist_append_right _ _).append_left z.params
    exact ⟨⟨z.params, some y⟩, rfl, rfl, hO.of_subperm (kept.append_left owned).subperm⟩
  · split
    · refine (h param).bind fun y => mirrors_pure fun heap hO => ?_
      rw [List.append_assoc] at hO
      have kept := (perm_param z.params z.rest.toList y).symm.append_left owned
      refine ⟨⟨z.params ++ [y], z.rest⟩, ?_, ?_, hO.of_subperm kept.subperm⟩
      · simp [Parameters.read]
      · simp [Parameters.built]
    · exact mirrors_throw _

theorem builds_declared (params : List (Inner node)) (z : Parameters)
    (owned : List (Address × Phrase)) : Mirrors (Owns (owned ++ z.all))
      (params.foldlM (Reader.readDeclaredParam below) z.read)
      (params.foldlM (buildDeclaredParam below') z.built)
      (Gives Parameters.read Parameters.built Parameters.all owned) := by
  induction params generalizing z with
  | nil => exact mirrors_pure fun heap hO => ⟨z, rfl, rfl, hO⟩
  | cons param params ih =>
    rw [List.foldlM_cons, List.foldlM_cons]
    refine (builds_declaredParam h z param owned).bind fun v w heap hz => ?_
    obtain ⟨z', rfl, rfl, hO⟩ := hz
    exact ih z' heap hO

theorem builds_declaredParams : Builds Parameters.read Parameters.built Parameters.all
    (Reader.readDeclaredParams below) (buildDeclaredParams below') := by
  refine fun owned => Mirrors.lift_bind fun list => ?_
  cases list with
  | none =>
    have nothing : Builds Parameters.read Parameters.built Parameters.all
        (.ok ⟨[], none⟩) (pure ⟨[], none⟩) := builds_pure (Parameters.mk [] none) rfl
    exact nothing owned
  | some list =>
    refine Mirrors.lift_bind fun params => ?_
    have declared := builds_declared h params ⟨[], none⟩ owned
    rwa [show Parameters.all ⟨[], none⟩ = [] from rfl, List.append_nil] at declared

theorem builds_functionDeclaration :
    BuildsOne (Reader.readFunctionDeclaration below) (buildFunctionDeclaration below') := by
  intro owned
  rw [Reader.readFunctionDeclaration_eq]
  refine (builds_declaredParams h).bind fun z => Mirrors.lift_bind fun name => ?_
  refine (builds_optional h _).bind fun r => (builds_params h _).bind fun ts => ?_
  refine mirrors_construct (.callable none (.declared name) _ _ _ _) [("name", .value name),
    ("params", .many z.params), ("return_type", .maybe r), ("rest", .maybe z.rest),
    ("type_params", .maybeMany ts)] ?_ rfl (by simp [Phrase.fields, Parameters.read])
    (by simp [Parameters.built]) (by simp [getD_map_map, Option.toList_map, Parameters.built])
    owns_one
  -- The rest parameter is read with the others, before the type of what is returned.
  simp only [heldAll_cons, heldAll_nil, Held.all_value, Held.all_many, Held.all_maybe,
    Held.all_maybeMany, List.append_nil, List.nil_append, List.append_assoc, Parameters.all]
  exact ((List.perm_append_comm_assoc _ _ _).append_left z.params).append_left owned

theorem builds_named (kind : String) :
    BuildsOne (Reader.readNamed below kind) (buildNamed below' kind) := by
  intro owned
  unfold Reader.readNamed
  split
  · rename_i which hp
    unfold buildNamed
    rw [hp]
    exact mirrors_construct (.primitive none which) [] (by simp) rfl rfl rfl rfl owns_one
  · rename_i k hl hp
    have hp : Reader.primitive? kind = none := Option.eq_none_iff_forall_ne_some.2 hp
    unfold buildNamed
    rw [hp, hl]
    refine Mirrors.lift_bind fun v => ?_
    exact mirrors_construct (.literal none k v.1) [("value", .value v.1)] (by simp) rfl rfl rfl rfl
      owns_one
  · rename_i hp hl
    split
    · exact builds_child h _ owned
    · exact builds_around h "elementType" "element" "ArrayType" (.array none) (fun _ => rfl)
        (fun _ => rfl) owned
    · exact builds_tuple h owned
    · exact builds_group (builds_requiredList h "types") .union owned
    · exact builds_group (builds_requiredList h "types") .intersection owned
    · exact builds_around h "typeAnnotation" "type_annotation" "NullableType" (.nullable none)
        (fun _ => rfl) (fun _ => rfl) owned
    · exact builds_around h "argument" "argument" "TypeofType" (.typeof none) (fun _ => rfl)
        (fun _ => rfl) owned
    · exact builds_generic h owned
    · exact builds_object h owned
    · exact builds_property h owned
    · exact builds_around h "argument" "argument" "ObjectTypeSpreadProperty" (.spread none)
        (fun _ => rfl) (fun _ => rfl) owned
    · exact builds_indexer h owned
    · exact builds_callProperty h owned
    · exact builds_functionType h owned
    · exact builds_functionTypeParam h owned
    · exact builds_typeParameter h owned
    · exact builds_identifier h owned
    · exact builds_restElement h owned
    · exact builds_functionDeclaration h owned
    · -- The names that failed to fit on the one side fail to fit on the other.
      unfold buildNamed
      rw [hp, hl]
      dsimp only
      split <;> first | contradiction | exact mirrors_throw _

theorem builds_kind (kind : Text) :
    BuildsOne (Reader.readKind below kind) (buildKind below' kind) := by
  unfold Reader.readKind buildKind
  cases kind.string? with
  | some name => exact builds_named h name
  | none => exact fun owned => mirrors_throw _

end

end Building

theorem Phrase.kind_withSpan (s : Option Span) (p : Phrase) : (p.withSpan s).kind = p.kind := by
  cases p with
  | typeName n => cases n <;> rfl
  | parameter s' form n t o => cases form <;> rfl
  | callable s' form ps r rest ts => cases form <;> rfl
  | _ => rfl

theorem Phrase.kind_orSpan (s : Option Span) (p : Phrase) : (p.orSpan s).kind = p.kind := by
  unfold orSpan
  split
  · exact kind_withSpan s p
  · rfl

theorem Phrase.fields_orSpan (s : Option Span) (p : Phrase) : (p.orSpan s).fields = p.fields := by
  unfold orSpan
  split
  · exact fields_withSpan s p
  · rfl

theorem Owns.orSpan {owned : List (Address × Phrase)} {a : Address} {p : Phrase} {h : Heap}
    (hO : Owns (owned ++ [(a, p)]) h) (s : Option Span) : Owns (owned ++ [(a, p.orSpan s)]) h := by
  obtain ⟨sound, apart, present, orphan, stands⟩ := hO
  simp only [List.forall_mem_append, List.forall_mem_singleton] at present orphan stands
  refine ⟨sound, ?_, ?_, ?_, ?_⟩
  · rwa [List.map_append] at apart ⊢
  · simpa only [List.forall_mem_append, List.forall_mem_singleton] using present
  · simpa only [List.forall_mem_append, List.forall_mem_singleton] using orphan
  · rw [List.forall_mem_append, List.forall_mem_singleton]
    exact ⟨stands.1, stands.2.same (p.kind_orSpan s).symm (p.fields_orSpan s).symm⟩

theorem BuildsOne.orSpan {x : Except Fault Phrase} {b : Building Address} (h : BuildsOne x b)
    (s : Option Span) : BuildsOne (do return (← x).orSpan s) b := by
  intro owned heap hO
  have built := h owned heap hO
  cases x with
  | error e => exact built
  | ok p =>
    obtain ⟨a, heap', run, ⟨_, _⟩, rfl, rfl, hO⟩ := built
    exact ⟨_, heap', run, ⟨_, _⟩, rfl, rfl, hO.orSpan s⟩

/-- A node fails to build with the fault of reading it, or its object stands for the phrase read. -/
theorem builds_build (j : Json) : BuildsOne (read j) (build j) := by
  intro owned
  have below : ∀ part : Json.Inner j, BuildsOne (Reader.reading j part) (build part.1) := by
    intro part
    have := part.2
    exact builds_build part.1
  rw [read, build]
  refine Mirrors.lift_bind fun kind => ?_
  exact BuildsOne.orSpan (Building.builds_kind below kind) (Reader.span? j) owned
termination_by j.depth

end Reannotate.Flow
