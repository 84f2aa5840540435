import Mathlib.Data.List.Basic
import Reannotate.Flow.Part

/-!
# What holds everywhere in a tree

`Everywhere P p`: `P` holds of the phrase at each place of the tree `p`. It holds of a phrase and in
each of its fields (`everywhere_iff`); a span makes no difference to the fields.
-/

namespace Reannotate.Flow

/-! ## Places -/

namespace Phrase

theorem places_eq (trail : List Frame) (p : Phrase) :
    p.places trail = ⟨trail, p⟩ :: p.children.flatMap fun c => c.2.places (⟨p, c.1⟩ :: trail) := by
  rw [places, List.flatMap_subtype (g := fun c => places (⟨p, c.1⟩ :: trail) c.2) (fun _ _ => rfl),
    List.unattach_attach]

theorem mem_places {trail : List Frame} {p : Phrase} {place : Place} :
    place ∈ p.places trail ↔
      place = ⟨trail, p⟩ ∨ ∃ c ∈ p.children, place ∈ c.2.places (⟨p, c.1⟩ :: trail) := by
  rw [places_eq, List.mem_cons, List.mem_flatMap]

theorem self_mem_places (trail : List Frame) (p : Phrase) : ⟨trail, p⟩ ∈ p.places trail :=
  mem_places.2 (.inl rfl)

theorem mem_children_of_phrase {p q : Phrase} {field : String} (h : (field, .phrase q) ∈ p.fields) :
    (⟨field, none⟩, q) ∈ p.children :=
  List.mem_flatMap.2 ⟨_, h, List.mem_singleton_self _⟩

theorem mem_children_of_phrases {p q : Phrase} {field : String} {qs : List Phrase} {i : Nat}
    (h : (field, .phrases qs) ∈ p.fields) (hq : qs[i]? = some q) :
    (⟨field, some i⟩, q) ∈ p.children :=
  List.mem_flatMap.2 ⟨_, h, List.mem_map.2 ⟨(q, i), List.mem_zipIdx_iff_getElem?.2 hq, rfl⟩⟩

theorem child_mem_places {trail t : List Frame} {p q : Phrase} {c : Slot × Phrase}
    (h : ⟨t, q⟩ ∈ p.places trail) (hc : c ∈ q.children) :
    ⟨⟨q, c.1⟩ :: t, c.2⟩ ∈ p.places trail := by
  rcases mem_places.1 h with he | ⟨d, hd, hq⟩
  · obtain ⟨rfl, rfl⟩ := Place.mk.inj he
    exact mem_places.2 (.inr ⟨c, hc, self_mem_places _ _⟩)
  · have := sizeOf_lt_of_mem_children hd
    exact mem_places.2 (.inr ⟨d, hd, child_mem_places hq hc⟩)
termination_by sizeOf p

theorem places_append (t trail : List Frame) (p : Phrase) :
    p.places (t ++ trail) = (p.places t).map fun place => ⟨place.trail ++ trail, place.phrase⟩ := by
  rw [places_eq, places_eq, List.map_cons, List.map_flatMap]
  refine congrArg _ (List.flatMap_congr fun c hc => ?_)
  have := sizeOf_lt_of_mem_children hc
  exact places_append (⟨p, c.1⟩ :: t) trail c.2
termination_by sizeOf p

end Phrase

/-! ## Properties of all phrases of a tree -/

def Phrase.Everywhere (P : Phrase → Prop) (p : Phrase) : Prop :=
  ∀ place ∈ p.places [], P place.phrase

def Part.Everywhere (P : Phrase → Prop) : Part → Prop
  | .phrase p => p.Everywhere P
  | .phrases ps => ∀ p ∈ ps, p.Everywhere P
  | _ => True

section
variable {P : Phrase → Prop}

namespace Part

theorem everywhere_held {field : String} {part : Part} :
    (∀ c ∈ part.held field, c.2.Everywhere P) ↔ part.Everywhere P := by
  cases part with
  | phrase p => simp [held, Everywhere]
  | phrases ps =>
    simp only [held, Everywhere, List.forall_mem_map]
    constructor
    · intro h p hp
      obtain ⟨i, hi, rfl⟩ := List.getElem_of_mem hp
      exact h (ps[i], i) (List.mem_zipIdx_iff_getElem?.2 (List.getElem?_eq_getElem hi))
    · exact fun h c hc => h c.1 (List.fst_mem_of_mem_zipIdx hc)
  | _ => simp [held, Everywhere]

@[simp] theorem everywhere_phrase {p : Phrase} : (phrase p).Everywhere P ↔ p.Everywhere P := Iff.rfl

@[simp] theorem everywhere_phrases {ps : List Phrase} :
    (phrases ps).Everywhere P ↔ ∀ p ∈ ps, p.Everywhere P := Iff.rfl

@[simp] theorem everywhere_value (j : Json) : (value j).Everywhere P := trivial

@[simp] theorem everywhere_key (k : PropertyKey) : (key k).Everywhere P := trivial

@[simp] theorem everywhere_comments (cs : List Comment) : (comments cs).Everywhere P := trivial

@[simp] theorem everywhere_maybe {o : Option Phrase} :
    (maybe o).Everywhere P ↔ ∀ p ∈ o, p.Everywhere P := by
  cases o <;> simp [maybe, Everywhere]

@[simp] theorem everywhere_maybeMany {o : Option (List Phrase)} :
    (maybeMany o).Everywhere P ↔ ∀ ps ∈ o, ∀ p ∈ ps, p.Everywhere P := by
  cases o <;> simp [maybeMany, Everywhere]

end Part

namespace Phrase

theorem everywhere_iff_children {p : Phrase} :
    p.Everywhere P ↔ P p ∧ ∀ c ∈ p.children, c.2.Everywhere P := by
  have extended : ∀ (c : Slot × Phrase), (∀ place ∈ c.2.places [⟨p, c.1⟩], P place.phrase) ↔
      c.2.Everywhere P := fun c => by
    rw [← List.nil_append [(⟨p, c.1⟩ : Frame)], places_append, List.forall_mem_map]
    rfl
  rw [Everywhere, places_eq, List.forall_mem_cons]
  simp only [List.forall_mem_flatMap, extended]

theorem everywhere_iff {p : Phrase} :
    p.Everywhere P ↔ P p ∧ ∀ f ∈ p.fields, f.2.Everywhere P := by
  rw [everywhere_iff_children, children]
  simp only [List.forall_mem_flatMap, Part.everywhere_held]

theorem Everywhere.here {p : Phrase} (h : p.Everywhere P) : P p :=
  (everywhere_iff.1 h).1

theorem Everywhere.below {p : Phrase} (h : p.Everywhere P) : ∀ f ∈ p.fields, f.2.Everywhere P :=
  (everywhere_iff.1 h).2

/-! ### By the sort of a phrase -/

@[simp] theorem everywhere_plain {s : Option Span} {t : Text} :
    (typeName (.plain s t)).Everywhere P ↔ P (typeName (.plain s t)) := by
  simp [everywhere_iff, fields, TypeName.fields]

@[simp] theorem everywhere_qualified {s : Option Span} {q i : TypeName} :
    (typeName (.qualified s q i)).Everywhere P ↔ P (typeName (.qualified s q i)) ∧
      (typeName q).Everywhere P ∧ (typeName i).Everywhere P := by
  simp [everywhere_iff, fields, TypeName.fields]

@[simp] theorem everywhere_primitive {s : Option Span} {w : Primitive} :
    (primitive s w).Everywhere P ↔ P (primitive s w) := by
  simp [everywhere_iff, fields]

@[simp] theorem everywhere_literal {s : Option Span} {k : LiteralKind} {v : Json} :
    (literal s k v).Everywhere P ↔ P (literal s k v) := by
  simp [everywhere_iff, fields]

@[simp] theorem everywhere_array {s : Option Span} {e : Phrase} :
    (array s e).Everywhere P ↔ P (array s e) ∧ e.Everywhere P := by
  simp [everywhere_iff, fields]

@[simp] theorem everywhere_group {s : Option Span} {g : Grouping} {ts : List Phrase} :
    (group s g ts).Everywhere P ↔ P (group s g ts) ∧ ∀ t ∈ ts, t.Everywhere P := by
  simp [everywhere_iff, fields]

@[simp] theorem everywhere_nullable {s : Option Span} {t : Phrase} :
    (nullable s t).Everywhere P ↔ P (nullable s t) ∧ t.Everywhere P := by
  simp [everywhere_iff, fields]

@[simp] theorem everywhere_typeof {s : Option Span} {a : Phrase} :
    (typeof s a).Everywhere P ↔ P (typeof s a) ∧ a.Everywhere P := by
  simp [everywhere_iff, fields]

@[simp] theorem everywhere_generic {s : Option Span} {id : TypeName} {as : Option (List Phrase)} :
    (generic s id as).Everywhere P ↔ P (generic s id as) ∧ (typeName id).Everywhere P ∧
      ∀ ps ∈ as, ∀ p ∈ ps, p.Everywhere P := by
  simp [everywhere_iff, fields]

@[simp] theorem everywhere_property {s : Option Span} {k : PropertyKey} {v : Phrase} {o : Bool}
    {w : Option Variance} {c : Comments} :
    (property s k v o w c).Everywhere P ↔ P (property s k v o w c) ∧ v.Everywhere P := by
  simp [everywhere_iff, fields]

@[simp] theorem everywhere_spread {s : Option Span} {a : Phrase} :
    (spread s a).Everywhere P ↔ P (spread s a) ∧ a.Everywhere P := by
  simp [everywhere_iff, fields]

@[simp] theorem everywhere_indexer {s : Option Span} {i w : Json} {k v : Phrase} :
    (indexer s i k v w).Everywhere P ↔
      P (indexer s i k v w) ∧ k.Everywhere P ∧ v.Everywhere P := by
  simp [everywhere_iff, fields]

@[simp] theorem everywhere_callProperty {s : Option Span} {v : Phrase} {st : Bool} :
    (callProperty s v st).Everywhere P ↔ P (callProperty s v st) ∧ v.Everywhere P := by
  simp [everywhere_iff, fields]

@[simp] theorem everywhere_object {s : Option Span} {ps is cs : List Phrase} {x : Bool} :
    (object s ps is cs x).Everywhere P ↔ P (object s ps is cs x) ∧
      (∀ p ∈ ps, p.Everywhere P) ∧ (∀ p ∈ is, p.Everywhere P) ∧ ∀ p ∈ cs, p.Everywhere P := by
  simp [everywhere_iff, fields]

@[simp] theorem everywhere_typeParameter {s : Option Span} {n w : Json} {b d : Option Phrase} :
    (typeParameter s n b d w).Everywhere P ↔ P (typeParameter s n b d w) ∧
      (∀ p ∈ b, p.Everywhere P) ∧ ∀ p ∈ d, p.Everywhere P := by
  simp [everywhere_iff, fields]

@[simp] theorem everywhere_parameter {s : Option Span} {form : ParameterForm} {n : Json} {t : Option Phrase}
    {o : Bool} : (parameter s form n t o).Everywhere P ↔
      P (parameter s form n t o) ∧ ∀ p ∈ t, p.Everywhere P := by
  simp [everywhere_iff, fields]

@[simp] theorem everywhere_callable {s : Option Span} {form : CallableForm} {ps : List Phrase}
    {r rest : Option Phrase} {ts : Option (List Phrase)} :
    (callable s form ps r rest ts).Everywhere P ↔ P (callable s form ps r rest ts) ∧
      (∀ p ∈ ps, p.Everywhere P) ∧ (∀ p ∈ r, p.Everywhere P) ∧ (∀ p ∈ rest, p.Everywhere P) ∧
      ∀ qs ∈ ts, ∀ q ∈ qs, q.Everywhere P := by
  cases form <;> simp [everywhere_iff, fields]

theorem everywhere_typeName (h : ∀ n, P (.typeName n)) (n : TypeName) :
    (Phrase.typeName n).Everywhere P := by
  induction n with
  | plain s t => exact everywhere_plain.2 (h _)
  | qualified s q i ihq ihi => exact everywhere_qualified.2 ⟨h _, ihq, ihi⟩

theorem fields_withSpan (s : Option Span) (p : Phrase) : (p.withSpan s).fields = p.fields := by
  cases p with
  | typeName n => cases n <;> rfl
  | callable s' form ps r rest ts => cases form <;> rfl
  | _ => rfl

theorem everywhere_orSpan {s : Option Span} {p : Phrase} (hP : P p → P (p.withSpan s))
    (h : p.Everywhere P) : (p.orSpan s).Everywhere P := by
  unfold orSpan
  split
  · rw [everywhere_iff, fields_withSpan]
    exact (everywhere_iff.1 h).imp_left hP
  · exact h

end Phrase

end

end Reannotate.Flow
