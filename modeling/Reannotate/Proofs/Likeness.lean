import Mathlib.Data.List.Forall2
import Reannotate.Proofs.Layout

/-!
# Alike documents

Two documents are alike if they match in all that `layout` lists, with alike documents for the nodes
inside (`Alike`). They may differ in what it does not list: in `start` and `end`, in `exact` and
`static` and in fields that are never looked up. Of a flag only the truth matters, and of a variance
only whether it is `plus`, and that only for properties.
-/

namespace Reannotate

namespace Json

def present : Option Json → Option Json
  | none => none
  | some j => if j.isNull then none else some j

def items : Option Json → List Json
  | some (.array js) => js
  | _ => []

def holds : Option Json → Bool
  | none => false
  | some j => j.truthy

end Json

namespace Flow

open Json (present items holds)

inductive SameTypeName : Json → Json → Prop
  | plain {j k : Json} (hj : j.HasType "Identifier") (hk : k.HasType "Identifier")
      (name : j.get? "name" = k.get? "name") : SameTypeName j k
  | qualified {j k q r i l : Json} (hj : j.HasType "QualifiedTypeIdentifier")
      (hk : k.HasType "QualifiedTypeIdentifier") (hq : j.get? "qualification" = some q)
      (hr : k.get? "qualification" = some r) (hi : j.get? "id" = some i)
      (hl : k.get? "id" = some l) (qualification : SameTypeName q r) (id : SameTypeName i l) :
      SameTypeName j k

def SameName (j k : Json) : Prop :=
  j.get? "name" = k.get? "name"

def SameKey (j k : Json) : Prop :=
  (j.HasType "Identifier" ∧ k.HasType "Identifier" ∧ SameName j k) ∨
    (j.HasType "StringLiteral" ∧ k.HasType "StringLiteral" ∧ j.get? "value" = k.get? "value")

def SameComment (j k : Json) : Prop :=
  j.get? "value" = k.get? "value" ∧ (j.HasType "CommentLine" ↔ k.HasType "CommentLine")

def IsPlus (found : Option Json) : Prop :=
  found.bind (Json.get? "kind") = some (.str "plus")

instance (found : Option Json) : Decidable (IsPlus found) := inferInstanceAs (Decidable (_ = _))

def Content.Match (R : Json → Json → Prop) (c : Content) (l r : Option Json) : Prop :=
  match c with
  | .value => l = r
  | .flag => holds l = holds r
  | .node => Option.Rel R l r
  | .optionalNode => Option.Rel R (present l) (present r)
  | .nodes | .requiredNodes | .declared => List.Forall₂ R (items l) (items r)
  | .params => Option.Rel
    (fun j k => List.Forall₂ R (items (j.get? "params")) (items (k.get? "params")))
    (present l) (present r)
  | .named => Option.Rel SameName (present l) (present r)
  | .typeName => Option.Rel SameTypeName l r
  | .key => Option.Rel SameKey l r
  | .variance => True
  | .propertyVariance => IsPlus l ↔ IsPlus r
  | .comments => List.Forall₂ SameComment (items l) (items r)
  | .restName => Option.Rel SameName l r
  | .annotatedRestName => Option.Rel (fun j k => SameName j k ∧
      Option.Rel R (present (j.get? "typeAnnotation")) (present (k.get? "typeAnnotation"))) l r

def Matches (R : Json → Json → Prop) (j k : Json) (fields : List (String × Content)) : Prop :=
  ∀ f ∈ fields, f.2.Match R (j.get? f.1) (k.get? f.1)

/-- Nodes of one type that match in every field that is laid out for them. -/
def MatchAsNodes (R : Json → Json → Prop) (j k : Json) : Prop :=
  ∃ kind fields, j.HasType kind ∧ k.HasType kind ∧ layout j kind = some fields ∧
    layout k kind = some fields ∧ Matches R j k fields

/-- Some relation holds of the two documents, and whenever it holds of two documents, then they
match as nodes, with related nodes inside. -/
def Alike (j k : Json) : Prop :=
  ∃ R : Json → Json → Prop, (∀ a b, R a b → MatchAsNodes R a b) ∧ R j k

@[simp] theorem matches_nil {R : Json → Json → Prop} {j k : Json} : Matches R j k [] ↔ True := by
  simp [Matches]

@[simp] theorem matches_cons {R : Json → Json → Prop} {j k : Json} {name : String} {c : Content}
    {fields : List (String × Content)} : Matches R j k ((name, c) :: fields) ↔
      c.Match R (j.get? name) (k.get? name) ∧ Matches R j k fields := by
  simp [Matches]

end Flow

end Reannotate
