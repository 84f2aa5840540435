import Mathlib.Order.FixedPoints
import Mathlib.Order.CompletePartialOrder
import Reannotate.Proofs.Lookup

/-!
# The layout of nodes

`layout` lists, for each type of nodes, the fields that matter to the reader and what each of them
holds. A field can be required to meet its content (`Content.Meets`), given which documents count as
nodes; the nodes themselves are then the least set closed under the layouts (`grammar`).

Not listed are `start` and `end`, which are looked up in any node and never needed, and `exact` and
`static`, of which nothing but a warning comes.
-/

namespace Reannotate

namespace Json

/-- What counts as false is an empty list, and any other list is an array. -/
def ListOf (P : Json → Prop) (j : Json) : Prop :=
  j.truthy = false ∨ ∃ items, j = .array items ∧ ∀ item ∈ items, P item

theorem ListOf.mono {P Q : Json → Prop} {j : Json} (h : ∀ k, P k → Q k) (hj : j.ListOf P) :
    j.ListOf Q := by
  rcases hj with hj | ⟨items, hi, hall⟩
  · exact .inl hj
  · exact .inr ⟨items, hi, fun item hm => h item (hall item hm)⟩

end Json

namespace Flow

inductive IsTypeName : Json → Prop
  | plain {j : Json} {text : Text} (type : j.HasType "Identifier")
      (name : j.get? "name" = some (.str text)) : IsTypeName j
  | qualified {j q i : Json} (type : j.HasType "QualifiedTypeIdentifier")
      (qualification : j.get? "qualification" = some q) (id : j.get? "id" = some i)
      (hq : IsTypeName q) (hi : IsTypeName i) : IsTypeName j

def IsKey (j : Json) : Prop :=
  (j.HasType "Identifier" ∧ (j.get? "name").isSome = true) ∨
    (j.HasType "StringLiteral" ∧ (j.get? "value").isSome = true)

def IsRestName (j : Json) : Prop :=
  j.HasType "Identifier" ∧ (j.get? "name").isSome = true

/-- What a field of a node holds. A field that may be left out may also be null. -/
inductive Content
  | value
  /-- Anything, if it is there at all. Only its truth counts. -/
  | flag
  | node
  | optionalNode
  | nodes
  | requiredNodes
  /-- A list of nodes one level down, under `params`. The level may be left out. -/
  | params
  | named
  | typeName
  | key
  | variance
  | propertyVariance
  | comments
  | restName
  | annotatedRestName
  | declared

namespace Content

def Meets (G : Json → Prop) (c : Content) (found : Option Json) : Prop :=
  match c with
  | .value => found.isSome = true
  | .flag => True
  | .node => ∃ j ∈ found, G j
  | .optionalNode => ∀ j ∈ found, j = .null ∨ G j
  | .nodes => ∀ j ∈ found, j.ListOf G
  | .requiredNodes => ∃ j ∈ found, j.ListOf G
  | .params => ∀ j ∈ found, j = .null ∨ ∃ ps ∈ j.get? "params", ps.ListOf G
  | .named => ∀ j ∈ found, j = .null ∨ (j.get? "name").isSome = true
  | .typeName => ∃ j ∈ found, IsTypeName j
  | .key => ∃ j ∈ found, IsKey j
  | .variance => ∀ j ∈ found, j = .null ∨ (j.get? "kind").isSome = true
  | .propertyVariance => ∀ j ∈ found, j = .null ∨
      ∃ kind ∈ j.get? "kind", kind = .null ∨ kind = .str "plus" ∨ kind = .str "minus"
  | .comments => ∀ j ∈ found, j.ListOf fun comment => (comment.get? "value").isSome = true
  | .restName => ∃ j ∈ found, IsRestName j
  | .annotatedRestName => ∃ j ∈ found, IsRestName j ∧
      ∀ type ∈ j.get? "typeAnnotation", type = .null ∨ G type
  | .declared => ∀ j ∈ found, j.ListOf fun param =>
      (param.HasType "RestElement" ∨ param.HasType "Identifier") ∧ G param

theorem Meets.mono {G H : Json → Prop} (h : ∀ j, G j → H j) {c : Content} {found : Option Json}
    (hc : c.Meets G found) : c.Meets H found := by
  cases c with
  | node =>
    obtain ⟨j, hj, hG⟩ := hc
    exact ⟨j, hj, h j hG⟩
  | optionalNode => exact fun j hj => (hc j hj).imp_right (h j)
  | nodes => exact fun j hj => (hc j hj).mono h
  | requiredNodes =>
    obtain ⟨j, hj, hG⟩ := hc
    exact ⟨j, hj, hG.mono h⟩
  | params =>
    intro j hj
    rcases hc j hj with hnull | ⟨ps, hps, hG⟩
    · exact .inl hnull
    · exact .inr ⟨ps, hps, hG.mono h⟩
  | annotatedRestName =>
    obtain ⟨j, hj, hname, hG⟩ := hc
    exact ⟨j, hj, hname, fun type ht => (hG type ht).imp_right (h type)⟩
  | declared =>
    intro j hj
    exact (hc j hj).mono fun param hp => ⟨hp.1, h param hp.2⟩
  | _ => exact hc

end Content

/-- The fields of a node that matter. Two types of nodes look for a part in one of two places. -/
def layout (node : Json) : String → Option (List (String × Content))
  | "AnyTypeAnnotation" | "BooleanTypeAnnotation" | "NumberTypeAnnotation" | "StringTypeAnnotation"
  | "VoidTypeAnnotation" | "MixedTypeAnnotation" | "EmptyTypeAnnotation" | "ExistsTypeAnnotation"
  | "ThisTypeAnnotation" | "NullLiteralTypeAnnotation" => some []
  | "BooleanLiteralTypeAnnotation" | "NumberLiteralTypeAnnotation"
  | "StringLiteralTypeAnnotation" => some [("value", .value)]
  | "TypeAnnotation" | "NullableTypeAnnotation" => some [("typeAnnotation", .node)]
  | "ArrayTypeAnnotation" => some [("elementType", .node)]
  | "TypeofTypeAnnotation" | "ObjectTypeSpreadProperty" => some [("argument", .node)]
  | "UnionTypeAnnotation" | "IntersectionTypeAnnotation" => some [("types", .requiredNodes)]
  | "TupleTypeAnnotation" =>
    some [(if (node.get? "types").isSome then "types" else "elementTypes", .nodes)]
  | "GenericTypeAnnotation" => some [("typeParameters", .params), ("id", .typeName)]
  | "ObjectTypeAnnotation" =>
    some [("properties", .nodes), ("indexers", .nodes), ("callProperties", .nodes)]
  | "ObjectTypeProperty" => some [("key", .key), ("value", .node), ("optional", .flag),
      ("variance", .propertyVariance), ("leadingComments", .comments),
      ("innerComments", .comments), ("trailingComments", .comments)]
  | "ObjectTypeIndexer" =>
    some [("id", .named), ("key", .node), ("value", .node), ("variance", .variance)]
  | "ObjectTypeCallProperty" => some [("value", .node)]
  | "FunctionTypeAnnotation" => some [("params", .nodes), ("returnType", .optionalNode),
      ("rest", .optionalNode), ("typeParameters", .params)]
  | "FunctionTypeParam" =>
    some [("name", .named), ("typeAnnotation", .optionalNode), ("optional", .flag)]
  | "TypeParameter" => some [("name", .value), ("bound", .optionalNode),
      ("default", .optionalNode), ("variance", .variance)]
  | "Identifier" => some [("name", .value), ("typeAnnotation", .optionalNode), ("optional", .flag)]
  | "RestElement" =>
    if node.flag "typeAnnotation" then some [("argument", .restName), ("typeAnnotation", .node)]
    else some [("argument", .annotatedRestName)]
  | "FunctionDeclaration" => some [("params", .declared), ("id", .named),
      ("returnType", .optionalNode), ("typeParameters", .params)]
  | _ => none

def Fills (G : Json → Prop) (node : Json) (fields : List (String × Content)) : Prop :=
  ∀ f ∈ fields, f.2.Meets G (node.get? f.1)

@[simp] theorem fills_nil {G : Json → Prop} {node : Json} : Fills G node [] ↔ True := by
  simp [Fills]

@[simp] theorem fills_cons {G : Json → Prop} {node : Json} {name : String} {c : Content}
    {fields : List (String × Content)} : Fills G node ((name, c) :: fields) ↔
      c.Meets G (node.get? name) ∧ Fills G node fields := by
  simp [Fills]

/-- The documents that are laid out as nodes if those in `G` count as nodes inside them. -/
def laidOut (G : Set Json) : Set Json :=
  {j | ∃ kind fields, j.HasType kind ∧ layout j kind = some fields ∧ Fills (· ∈ G) j fields}

theorem monotone_laidOut : Monotone laidOut := by
  intro G H h j hj
  obtain ⟨kind, fields, hk, hl, hall⟩ := hj
  exact ⟨kind, fields, hk, hl, fun f hf => (hall f hf).mono h⟩

def grammar : Set Json →o Set Json :=
  ⟨laidOut, monotone_laidOut⟩

end Flow

end Reannotate
