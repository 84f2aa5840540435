import Reannotate.Conversion.Convert
import Reannotate.Proofs.Everywhere

/-!
# Well-kinded trees

In a well-kinded tree the values of names, keys, comments and literals are of the kind that they
should be, and so are the parts of signatures and the indexers. What stands for a type or among the
properties of an object may still be anything.
-/

namespace Reannotate

def Json.Textual (j : Json) : Prop :=
  ∃ s, j = .str s

def Json.Literal (j : Json) : Prop :=
  ∃ s, j = .scalar s ∧ s ≠ .null

namespace Flow

def Comments.Textual (c : Comments) : Prop :=
  ∀ comment ∈ c.leading ++ c.inner ++ c.trailing, comment.value.Textual

namespace Phrase

def isIndexer : Phrase → Bool
  | .indexer _ _ _ _ _ => true
  | _ => false

def isParameter : Phrase → Bool
  | .parameter _ _ _ _ _ => true
  | _ => false

def isTypeParameter : Phrase → Bool
  | .typeParameter _ _ _ _ _ => true
  | _ => false

/-- The values and parts that belong to the phrase alone are of the right kind. -/
def Fits : Phrase → Prop
  | .typeName (.qualified _ _ id) => id.depth = 0
  | .literal _ _ v => v.Literal
  | .property _ k _ _ _ c => k.text.Textual ∧ c.Textual
  | .indexer _ id _ _ _ => id = .null ∨ id.Textual
  | .object _ _ is _ _ => ∀ i ∈ is, i.isIndexer = true
  | .typeParameter _ n _ _ _ => n.Textual
  | .parameter _ _ n _ _ => n = .null ∨ n.Textual
  | .callable _ _ ps _ rest ts =>
    (∀ p ∈ ps, p.isParameter = true) ∧ (∀ p ∈ rest, p.isParameter = true) ∧
      ∀ qs ∈ ts, ∀ q ∈ qs, q.isTypeParameter = true
  | _ => True

abbrev WellKinded (p : Phrase) : Prop := p.Everywhere Fits

end Phrase

end Flow

/-! ## Members of well-kinded objects -/

namespace Converting

theorem exists_comments : ∀ {cs : List Flow.Comment}, (∀ c ∈ cs, c.value.Textual) →
    ∃ out, comments cs = .ok out
  | [], _ => ⟨[], rfl⟩
  | c :: cs, h => by
    obtain ⟨text, ht⟩ := h c List.mem_cons_self
    obtain ⟨out, hout⟩ := exists_comments fun c hc => h c (List.mem_cons_of_mem _ hc)
    unfold comments at hout ⊢
    rw [List.mapM_cons, hout, ht]
    exact ⟨_, rfl⟩

theorem exists_propertySignature {key : Flow.PropertyKey} {text : Text} (hkey : key.text = .str text)
    {cs : Flow.Comments} (hcs : cs.Textual) (type : TypeScript.Node) (optional : Bool)
    (variance : Option Flow.Variance) :
    ∃ out, propertySignature key type optional variance cs =
      .ok (.property ⟨.str text, .bool key.quoted⟩ (some type) optional (variance = some .plus) out) := by
  unfold Flow.Comments.Textual at hcs
  simp only [List.forall_mem_append] at hcs
  obtain ⟨leading, hleading⟩ := exists_comments hcs.1.1
  obtain ⟨inner, hinner⟩ := exists_comments hcs.1.2
  obtain ⟨trailing, htrailing⟩ := exists_comments hcs.2
  refine ⟨⟨leading, inner, trailing⟩, ?_⟩
  unfold propertySignature
  rw [hkey, hleading, hinner, htrailing]
  rfl

end Converting

end Reannotate
