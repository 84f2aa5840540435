import Reannotate.Flow.Basic

/-!
# Parts of phrases

`Phrase.fields` lists the parts of a phrase by name, in order. The phrases among them are its
`children`; `places` lists all phrases of a tree from the root down, each with its trail, the
phrases around it from the inside out.
-/

namespace Reannotate.Flow

/-- What a field of a phrase holds, or what is found inside that. -/
inductive Part
  | phrase (p : Phrase)
  | phrases (ps : List Phrase)
  | key (k : PropertyKey)
  | comments (cs : List Comment)
  | comment (c : Comment)
  | value (j : Json)

namespace Part

def maybe : Option Phrase → Part
  | none => .value .null
  | some p => .phrase p

def maybeMany : Option (List Phrase) → Part
  | none => .value .null
  | some ps => .phrases ps

def span : Part → Option Span
  | .phrase p => p.span
  | _ => none

end Part

def Variance.name : Variance → String
  | .plus => "plus"
  | .minus => "minus"

def TypeName.fields : TypeName → List (String × Part)
  | .plain _ t => [("text", .value (.str t))]
  | .qualified _ q i => [("qualification", .phrase (.typeName q)), ("id", .phrase (.typeName i))]

namespace Phrase

def fields : Phrase → List (String × Part)
  | .typeName n => n.fields
  | .primitive _ _ => []
  | .literal _ _ v => [("value", .value v)]
  | .array _ e => [("element", .phrase e)]
  | .group _ _ ts => [("types", .phrases ts)]
  | .nullable _ t => [("type_annotation", .phrase t)]
  | .typeof _ a => [("argument", .phrase a)]
  | .generic _ i as => [("id", .phrase (.typeName i)), ("type_args", .maybeMany as)]
  | .property _ k v o w c => [
      ("key", .key k), ("value", .phrase v), ("optional", .value (.bool o)),
      ("variance", .value ((w.map fun w => Json.str w.name).getD .null)),
      ("leading_comments", .comments c.leading), ("inner_comments", .comments c.inner),
      ("trailing_comments", .comments c.trailing)]
  | .spread _ a => [("argument", .phrase a)]
  | .indexer _ i k v w => [
      ("id", .value i), ("key", .phrase k), ("value", .phrase v), ("variance", .value w)]
  | .callProperty _ v st => [("value", .phrase v), ("static", .value (.bool st))]
  | .object _ ps is cs x => [
      ("properties", .phrases ps), ("indexers", .phrases is), ("call_properties", .phrases cs),
      ("exact", .value (.bool x))]
  | .typeParameter _ n b d w => [
      ("name", .value n), ("bound", .maybe b), ("default", .maybe d), ("variance", .value w)]
  | .parameter _ _ n t o => [
      ("name", .value n), ("type_annotation", .maybe t), ("optional", .value (.bool o))]
  | .callable _ .ofType ps r rest ts => [
      ("params", .phrases ps), ("return_type", .maybe r), ("rest", .maybe rest),
      ("type_params", .maybeMany ts)]
  | .callable _ (.declared n) ps r rest ts => [
      ("name", .value n), ("params", .phrases ps), ("return_type", .maybe r),
      ("rest", .maybe rest), ("type_params", .maybeMany ts)]

end Phrase

/-- Where a phrase hangs: in a field, and at which index if the field holds several. -/
structure Slot where
  field : String
  index : Option Nat
  deriving DecidableEq

def Part.held (field : String) : Part → List (Slot × Phrase)
  | .phrase p => [(⟨field, none⟩, p)]
  | .phrases ps => ps.zipIdx.map fun (p, i) => (⟨field, some i⟩, p)
  | _ => []

def Phrase.children (p : Phrase) : List (Slot × Phrase) :=
  p.fields.flatMap fun (field, part) => part.held field

noncomputable def Part.weight : Part → Nat
  | .phrase p => sizeOf p
  | .phrases ps => sizeOf ps
  | _ => 0

@[simp] theorem Part.weight_phrase (p : Phrase) : (Part.phrase p).weight = sizeOf p := rfl

@[simp] theorem Part.weight_phrases (ps : List Phrase) : (Part.phrases ps).weight = sizeOf ps := rfl

@[simp] theorem Part.weight_key (k : PropertyKey) : (Part.key k).weight = 0 := rfl

@[simp] theorem Part.weight_comments (cs : List Comment) : (Part.comments cs).weight = 0 := rfl

@[simp] theorem Part.weight_value (j : Json) : (Part.value j).weight = 0 := rfl

theorem Part.weight_maybe (o : Option Phrase) : (Part.maybe o).weight < sizeOf o := by
  cases o <;> simp [maybe]

theorem Part.weight_maybeMany (o : Option (List Phrase)) :
    (Part.maybeMany o).weight < sizeOf o := by
  cases o <;> simp [maybeMany]

theorem Part.sizeOf_le_of_mem_held {field : String} {part : Part} {c : Slot × Phrase}
    (h : c ∈ part.held field) : sizeOf c.2 ≤ part.weight := by
  cases part with
  | phrase p => simp [held] at h; simp [h]
  | phrases ps =>
    simp only [held, List.mem_map] at h
    obtain ⟨⟨q, i⟩, hq, rfl⟩ := h
    exact Nat.le_of_lt (List.sizeOf_lt_of_mem (List.fst_mem_of_mem_zipIdx hq))
  | _ => simp [held] at h

theorem Phrase.weight_lt_of_mem_fields {p : Phrase} {f : String × Part} (h : f ∈ p.fields) :
    f.2.weight < sizeOf p := by
  suffices ∀ f ∈ p.fields, f.2.weight < sizeOf p from this f h
  cases p with
  | typeName n =>
    cases n with
    | plain s t =>
      simp only [fields, TypeName.fields, List.mem_singleton, forall_eq, Part.weight_value,
        typeName.sizeOf_spec]
      omega
    | qualified s q i => simp [fields, TypeName.fields]; omega
  | generic s i as =>
    have := Part.weight_maybeMany as
    simp [fields]; omega
  | typeParameter s n b d w =>
    have := Part.weight_maybe b
    have := Part.weight_maybe d
    simp [fields]; omega
  | parameter s f n t o =>
    have := Part.weight_maybe t
    simp [fields]; omega
  | callable s form ps r rest ts =>
    have := Part.weight_maybe r
    have := Part.weight_maybe rest
    have := Part.weight_maybeMany ts
    cases form <;> simp [fields] <;> omega
  | _ => simp [fields] <;> omega

theorem Phrase.sizeOf_lt_of_mem_children {p : Phrase} {c : Slot × Phrase} (h : c ∈ p.children) :
    sizeOf c.2 < sizeOf p := by
  obtain ⟨f, hf, hc⟩ := List.mem_flatMap.1 h
  exact Nat.lt_of_le_of_lt (Part.sizeOf_le_of_mem_held hc) (weight_lt_of_mem_fields hf)

/-- A phrase around another, and the slot where the way down to the other begins. -/
structure Frame where
  around : Phrase
  slot : Slot

/-- A phrase of a tree and the frames around it, innermost first. -/
structure Place where
  trail : List Frame
  phrase : Phrase

def Phrase.places (trail : List Frame) (p : Phrase) : List Place :=
  ⟨trail, p⟩ :: p.children.attach.flatMap fun c => places (⟨p, c.1.1⟩ :: trail) c.1.2
termination_by sizeOf p
decreasing_by exact sizeOf_lt_of_mem_children c.2

end Reannotate.Flow
