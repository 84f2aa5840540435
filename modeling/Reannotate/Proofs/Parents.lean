import Mathlib.Data.List.Infix
import Mathlib.Data.List.Nodup
import Reannotate.Proofs.Building

/-!
# Parents form the tree

A path leads from the root down through slots to an object (`Heap.At`), and parents lead from an
object up again (`Heap.Ancestry`). After a successful `build` the two agree: each object has one
path, and its ancestry are the objects at the proper prefixes of that path (`parents_form_tree`).
-/

namespace Reannotate.Flow

/-- The object that is reached from the root through these slots, innermost first. -/
inductive Heap.At (h : Heap) (root : Address) : List Slot → Address → Prop
  | root : h.At root [] root
  | child {path : List Slot} {a : Address} {o : Object} {s : Slot} {c : Address}
      (above : h.At root path a) (object : h.objects[a]? = some o) (held : (s, c) ∈ o.children) :
      h.At root (s :: path) c

/-- Following the parents from an object, these come up before one without a parent. -/
inductive Heap.Ancestry (h : Heap) : Address → List Address → Prop
  | last {a : Address} (orphan : h.parent a = none) : h.Ancestry a []
  | next {a b : Address} {bs : List Address} (parent : h.parent a = some b)
      (rest : h.Ancestry b bs) : h.Ancestry a (b :: bs)

namespace Heap

variable {h : Heap} {root : Address}

theorem Ancestry.unique {a : Address} {as bs : List Address} (ha : h.Ancestry a as)
    (hb : h.Ancestry a bs) : bs = as := by
  induction ha generalizing bs with
  | last orphan =>
    cases hb with
    | last _ => rfl
    | next parent _ =>
      rw [orphan] at parent
      cases parent
  | next parent _ ih =>
    cases hb with
    | last orphan =>
      rw [orphan] at parent
      cases parent
    | next parent' rest =>
      rw [parent] at parent'
      cases parent'
      rw [ih rest]

theorem At.ancestry (sound : h.Sound) (orphan : h.parent root = none) {path : List Slot}
    {a : Address} (ha : h.At root path a) :
    ∃ as, h.Ancestry a as ∧ path.tails.tail.Forall₂ (h.At root) as ∧
      (a :: as).getLast? = some root := by
  induction ha with
  | root => exact ⟨[], .last orphan, .nil, rfl⟩
  | @child path a o s c above object held ih =>
    obtain ⟨as, ancestry, at_, last⟩ := ih
    refine ⟨a :: as, .next (sound.linked a o object _ held) ancestry, ?_, ?_⟩
    · cases path with
      | nil => exact .cons above at_
      | cons s' path => exact .cons above at_
    · rw [List.getLast?_cons_cons, last]

theorem At.path_unique (sound : h.Sound) (orphan : h.parent root = none) {path path' : List Slot}
    {a : Address} (ha : h.At root path a) (ha' : h.At root path' a) : path' = path := by
  induction ha generalizing path' with
  | root =>
    cases ha' with
    | root => rfl
    | child _ object held =>
      have := sound.linked _ _ object _ held
      rw [orphan] at this
      cases this
  | child above object held ih =>
    have parent := sound.linked _ _ object _ held
    cases ha' with
    | root =>
      rw [orphan] at parent
      cases parent
    | child above' object' held' =>
      have parent' := sound.linked _ _ object' _ held'
      -- One parent, hence one object that holds it, and that holds it in one slot.
      rw [parent] at parent'
      cases parent'
      rw [object] at object'
      cases object'
      cases List.inj_on_of_nodup_map (sound.apart _ _ object) held' held rfl
      rw [ih above']

end Heap

/-! ## Places -/

theorem Stands.children {os : List Object} {a : Address} {p : Phrase} (h : Stands os a p) :
    ∃ (o : Object) (cs : List (Slot × Address × Phrase)), os[a]? = some o ∧
      o.children = cs.map (fun c => (c.1, c.2.1)) ∧ p.children = cs.map (fun c => (c.1, c.2.2)) ∧
      ∀ c ∈ cs, Stands os c.2.1 c.2.2 := by
  obtain ⟨object, kind, held, parts, children⟩ := h
  rename_i o fields
  refine ⟨o, fields.flatMap fun f => f.2.slots f.1, object, ?_, ?_, ?_⟩
  · rw [Object.children, held, List.flatMap_map, List.map_flatMap]
    exact List.flatMap_congr fun f _ => Held.slots_map_fst f.1 Prod.fst f.2
  · rw [Phrase.children, parts, List.flatMap_map, List.map_flatMap]
    refine List.flatMap_congr fun f _ => ?_
    exact (Held.held_part f.1 _).trans (Held.slots_map_fst f.1 Prod.snd f.2)
  · intro c hc
    obtain ⟨f, hf, hc⟩ := List.mem_flatMap.1 hc
    refine children f hf c.2 ?_
    rw [← Held.map_snd_slots f.1 f.2]
    exact List.mem_map_of_mem hc

theorem Part.field_of_mem_held {field : String} {part : Part} {c : Slot × Phrase}
    (h : c ∈ part.held field) : c.1.field = field := by
  cases part with
  | phrase q =>
    cases List.mem_singleton.1 h
    rfl
  | phrases qs =>
    obtain ⟨_, _, rfl⟩ := List.mem_map.1 h
    rfl
  | _ => cases h

theorem Part.nodup_held (field : String) (part : Part) :
    ((part.held field).map Prod.fst).Nodup := by
  cases part with
  | phrase q => exact List.nodup_singleton _
  | phrases qs =>
    have indices : ((qs.zipIdx.map Prod.snd).map fun i => Slot.mk field (some i)).Nodup := by
      rw [List.zipIdx_map_snd]
      refine List.Nodup.map (fun i j hij => ?_) List.nodup_range'
      cases hij
      rfl
    rw [List.map_map] at indices
    rwa [held, List.map_map]
  | _ => exact List.nodup_nil

theorem Phrase.nodup_fields (p : Phrase) : (p.fields.map Prod.fst).Nodup := by
  cases p with
  | typeName n => cases n <;> simp [fields, TypeName.fields]
  | callable s form ps r rest ts => cases form <;> simp [fields]
  | _ => simp [fields]

theorem Phrase.nodup_slots (p : Phrase) : (p.children.map Prod.fst).Nodup := by
  rw [children, List.map_flatMap, List.nodup_flatMap]
  refine ⟨fun f _ => f.2.nodup_held f.1, (List.pairwise_map.1 p.nodup_fields).imp ?_⟩
  intro f g hne s hf hg
  obtain ⟨c, hc, rfl⟩ := List.mem_map.1 hf
  obtain ⟨d, hd, hdc⟩ := List.mem_map.1 hg
  have hd := Part.field_of_mem_held hd
  rw [hdc, Part.field_of_mem_held hc] at hd
  exact hne hd

namespace Heap

variable {h : Heap} {root : Address} {p : Phrase}

theorem At.place (hroot : Stands h.objects root p) {path : List Slot} {a : Address}
    (ha : h.At root path a) :
    ∃ place ∈ p.places [], place.trail.map Frame.slot = path ∧ Stands h.objects a place.phrase := by
  induction ha with
  | root => exact ⟨_, Phrase.self_mem_places [] p, rfl, hroot⟩
  | child above object held ih =>
    obtain ⟨place, hplace, hpath, hs⟩ := ih
    obtain ⟨o, cs, ho, left, right, stands⟩ := hs.children
    rw [object] at ho
    cases ho
    rw [left] at held
    obtain ⟨c, hc, hcs⟩ := List.mem_map.1 held
    cases hcs
    have child : (c.1, c.2.2) ∈ place.phrase.children := by
      rw [right]
      exact List.mem_map_of_mem hc
    refine ⟨_, Phrase.child_mem_places hplace child, ?_, stands c hc⟩
    rw [List.map_cons, hpath]

theorem At.unique (hroot : Stands h.objects root p) {path : List Slot} {a b : Address}
    (ha : h.At root path a) (hb : h.At root path b) : b = a := by
  induction ha generalizing b with
  | root =>
    cases hb
    rfl
  | @child path a o s c above object held ih =>
    cases hb with
    | child above' object' held' =>
      cases ih above'
      rw [object] at object'
      cases object'
      obtain ⟨place, _, _, hs⟩ := above.place hroot
      obtain ⟨_, cs, ho, left, right, _⟩ := hs.children
      rw [object] at ho
      cases ho
      -- The slots of an object are those of its phrase, and no two of these are the same.
      have slots : o.children.map Prod.fst = place.phrase.children.map Prod.fst := by
        rw [left, right, List.map_map, List.map_map]
        rfl
      have apart := place.phrase.nodup_slots
      rw [← slots] at apart
      cases List.inj_on_of_nodup_map apart held held' rfl
      rfl

/-- Below an object at a path, whose ancestry stands for the frames around it, there is one for each
place, whose ancestry stands for the frames around the place. -/
theorem At.places (sound : h.Sound) {q : Phrase} {trail : List Frame} {a : Address}
    {as : List Address} (ha : h.At root (trail.map Frame.slot) a) (hs : Stands h.objects a q)
    (ancestry : h.Ancestry a as) (around : as.Forall₂ (Stands h.objects) (trail.map Frame.around))
    {place : Place} (hplace : place ∈ q.places trail) :
    ∃ b bs, h.At root (place.trail.map Frame.slot) b ∧ Stands h.objects b place.phrase ∧
      h.Ancestry b bs ∧ bs.Forall₂ (Stands h.objects) (place.trail.map Frame.around) := by
  rcases Phrase.mem_places.1 hplace with rfl | ⟨c, hc, hplace⟩
  · exact ⟨a, as, ha, hs, ancestry, around⟩
  · have := Phrase.sizeOf_lt_of_mem_children hc
    obtain ⟨o, cs, object, left, right, stands⟩ := hs.children
    rw [right] at hc
    obtain ⟨d, hd, rfl⟩ := List.mem_map.1 hc
    have held : (d.1, d.2.1) ∈ o.children := by
      rw [left]
      exact List.mem_map_of_mem hd
    have inner : h.At root ((⟨q, d.1⟩ :: trail : List Frame).map Frame.slot) d.2.1 :=
      .child ha object held
    exact inner.places sound (stands d hd) (.next (sound.linked a o object _ held) ancestry)
      (.cons hs around) hplace
termination_by sizeOf q

end Heap

/-- When a node is read, its objects are built as well, and their parents form exactly the tree:
what an object holds has the object as its parent; there is one object at each place of the tree,
with the objects at the proper prefixes of its path as ancestry; and no object is at two paths. -/
theorem parents_form_tree {j : Json} {p : Phrase} (hp : read j = .ok p) :
    ∃ root h, (build j).run .empty = .ok (root, h) ∧ Stands h.objects root p ∧
      h.parent root = none ∧
      (∀ a o, h.objects[a]? = some o → ∀ c ∈ o.children, h.parent c.2 = some a) ∧
      (∀ path a, h.At root path a →
        (∀ b, h.At root path b → b = a) ∧ (∀ path', h.At root path' a → path' = path) ∧
        ∃ as, h.Ancestry a as ∧ (∀ bs, h.Ancestry a bs → bs = as) ∧
          path.tails.tail.Forall₂ (h.At root) as ∧ (a :: as).getLast? = some root) ∧
      (∀ path a, h.At root path a → ∃ place ∈ p.places [],
        place.trail.map Frame.slot = path ∧ Stands h.objects a place.phrase) ∧
      ∀ place ∈ p.places [], ∃ a as, h.At root (place.trail.map Frame.slot) a ∧
        Stands h.objects a place.phrase ∧ h.Ancestry a as ∧
        as.Forall₂ (Stands h.objects) (place.trail.map Frame.around) := by
  have built := builds_build j [] Heap.empty owns_empty
  rw [hp] at built
  obtain ⟨root, h, run, z, rfl, rfl, hO⟩ := built
  have sound := hO.sound
  have orphan : h.parent z.1 = none := hO.orphan z (List.mem_singleton_self z)
  have stands : Stands h.objects z.1 z.2 := hO.stands z (List.mem_singleton_self z)
  refine ⟨z.1, h, run, stands, orphan, sound.linked, ?_, fun path a ha => ha.place stands, ?_⟩
  · intro path a ha
    obtain ⟨as, ancestry, prefixes, last⟩ := ha.ancestry sound orphan
    exact ⟨fun b hb => ha.unique stands hb, fun path' ha' => ha.path_unique sound orphan ha', as,
      ancestry, fun bs hbs => ancestry.unique hbs, prefixes, last⟩
  · intro place hplace
    exact Heap.At.places sound (.root (h := h)) stands (.last orphan) .nil hplace

def qualifiedNode : Json :=
  .object [("type", .str "GenericTypeAnnotation"),
    ("id", .object [("type", .str "QualifiedTypeIdentifier"),
      ("qualification", .object [("type", .str "Identifier"), ("name", .str "A")]),
      ("id", .object [("type", .str "Identifier"), ("name", .str "B")])]),
    ("typeParameters", .object [
      ("params", .array [.object [("type", .str "StringTypeAnnotation")]])])]

def qualifiedName : TypeName := .qualified none (.plain none "A") (.plain none "B")

def qualifiedType : Phrase := .generic none qualifiedName (some [.primitive none .string])

theorem parents_form_tree_qualified : read qualifiedNode = .ok qualifiedType ∧
    ∃ root h a b, (build qualifiedNode).run .empty = .ok (root, h) ∧
      Stands h.objects a (.typeName (.plain none "A")) ∧ h.Ancestry a [b, root] ∧
      Stands h.objects b (.typeName qualifiedName) := by
  have hp : read qualifiedNode = .ok qualifiedType := by with_unfolding_all rfl
  obtain ⟨root, h, run, _, _, _, paths, _, places⟩ := parents_form_tree hp
  have inner : ⟨[⟨.typeName qualifiedName, ⟨"qualification", none⟩⟩, ⟨qualifiedType, ⟨"id", none⟩⟩],
      .typeName (.plain none "A")⟩ ∈ qualifiedType.places [] :=
    Phrase.child_mem_places (Phrase.child_mem_places (Phrase.self_mem_places [] qualifiedType)
      List.mem_cons_self) List.mem_cons_self
  obtain ⟨a, as, ha, stands, ancestry, around⟩ := places _ inner
  obtain ⟨_, _, as', ancestry', unique, _, last⟩ := paths _ a ha
  cases unique as ancestry
  cases around with
  | cons hb rest =>
    cases rest with
    | cons _ rest =>
      cases rest
      cases last
      exact ⟨hp, _, h, a, _, run, stands, ancestry, hb⟩

end Reannotate.Flow
