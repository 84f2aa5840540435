import Reannotate.Proofs.Agreement
import Reannotate.Proofs.Indifference

/-!
# Alike documents are converted alike

If two alike documents are both read, then the phrases have the same bare form, and so their
conversions end alike (`alike_converted_alike`).
-/

namespace Reannotate

namespace Flow

open Json (isText_iff isNull_iff)

theorem Phrase.bare_withSpan (s : Option Span) (p : Phrase) : (p.withSpan s).bare = p.bare := by
  cases p with
  | typeName n => cases n <;> rfl
  | _ => rfl

theorem Phrase.bare_orSpan (s : Option Span) (p : Phrase) : (p.orSpan s).bare = p.bare := by
  unfold orSpan
  split
  · exact bare_withSpan s p
  · rfl

namespace Reader

/-! ## Names, keys and variances -/

theorem both_readTypeName {j k : Json} (h : SameTypeName j k) :
    Both (fun m n : TypeName => m.bare = n.bare) (readTypeName j) (readTypeName k) := by
  induction h with
  | plain hj hk hname =>
    rw [readTypeName_plain hj, readTypeName_plain hk]
    refine (both_required_eq hname).bind fun a b hab => ?_
    rw [hab]
    cases expectText b.1 with
    | error e => exact both_error_left _ _
    | ok text => exact both_ok rfl
  | qualified hj hk hq hr hi hl _ _ ihq ihi =>
    rw [readTypeName_qualified hj hq hi, readTypeName_qualified hk hr hl]
    refine ihq.bind fun m n hmn => ihi.then_pure fun i l hil => ?_
    rw [TypeName.bare, TypeName.bare, hmn, hil]

theorem both_readKey {j k : Json} (h : SameKey j k) : Both Eq (readKey j) (readKey k) := by
  rcases h with ⟨hj, hk, hname⟩ | ⟨hj, hk, hvalue⟩
  · rw [readKey_plain hj, readKey_plain hk]
    exact (both_required_eq hname).then_pure fun a b hab => by rw [hab]
  · rw [readKey_quoted hj, readKey_quoted hk]
    exact (both_required_eq hvalue).then_pure fun a b hab => by rw [hab]

theorem varianceKind_eq_plus (found : Option Json) :
    varianceKind found = .str "plus" ↔ IsPlus found := by
  rw [varianceKind, bind_get?_present, IsPlus]
  cases found.bind (Json.get? "kind") <;> simp

theorem bareVariance_of_propertyVariance {kind : Json} {w : Option Variance}
    (h : propertyVariance kind = .ok w) :
    bareVariance w = if kind = .str "plus" then some .plus else none := by
  unfold propertyVariance at h
  simp only [isText_iff, isNull_iff] at h
  split at h
  · rename_i hn
    cases h
    rw [hn]
    rfl
  · split at h
    · rename_i hp
      cases h
      rw [if_pos hp]
      rfl
    · rename_i hp
      split at h
      · cases h
        rw [if_neg hp]
        rfl
      · cases h

theorem both_propertyVariance {kind kind' : Json} (h : kind = .str "plus" ↔ kind' = .str "plus") :
    Both (fun w w' => bareVariance w = bareVariance w') (propertyVariance kind)
      (propertyVariance kind') := by
  intro w w' hw hw'
  rw [bareVariance_of_propertyVariance hw, bareVariance_of_propertyVariance hw']
  simp only [h]

end Reader

open Reader

/-! ## Fields that match -/

section
variable {R : Json → Json → Prop}

theorem Content.Match.agree (htype : ∀ a b, R a b → ∃ kind, a.HasType kind ∧ b.HasType kind)
    {content : Content} {l r : Option Json} (h : content.Match R l r) :
    content.Agree .bare R l r := by
  cases content with
  | typeName => exact rel_mono (fun _ _ => both_readTypeName) h
  | key => exact rel_mono (fun _ _ => both_readKey) h
  | variance => rfl
  | propertyVariance =>
    apply both_propertyVariance
    rw [varianceKind_eq_plus, varianceKind_eq_plus]
    exact h
  | declared =>
    refine List.Forall₂.imp (fun a b hab => ⟨hab, ?_⟩) h
    obtain ⟨kind, ha, hb⟩ := htype a b hab
    exact ha.trans hb.symm
  | _ => exact h

end

theorem both_read {R : Json → Json → Prop} (closed : ∀ a b, R a b → MatchAsNodes R a b)
    {j k : Json} (h : R j k) : Both Change.bare.Same (read j) (read k) := by
  have below : ∀ (a : Json.Inner j) (b : Json.Inner k), R a.1 b.1 →
      Both Change.bare.Same (read a.1) (read b.1) := fun a b hab => by
    have := a.2
    exact both_read closed hab
  have htype : ∀ a b, R a b → ∃ kind, a.HasType kind ∧ b.HasType kind := by
    intro a b hab
    obtain ⟨kind, -, ha, hb, -⟩ := closed a b hab
    exact ⟨kind, ha, hb⟩
  have hnull : ∀ a b, R a b → a.isNull = b.isNull := by
    intro a b hab
    obtain ⟨kind, ha, hb⟩ := htype a b hab
    rw [Json.isNull_of_isObject ha.isObject, Json.isNull_of_isObject hb.isObject]
  obtain ⟨kind, fields, hj, hk, hl, hl', hm⟩ := closed j k h
  rw [read_of_hasType hj, read_of_hasType hk]
  have agree : Agrees .bare R j k fields := fun f hf => (hm f hf).agree htype
  refine (both_readNamed below hnull (fun _ _ => rfl) hl hl' agree).then_pure fun p q hpq => ?_
  rw [Change.Same, ← Phrase.bare_eq_changed, ← Phrase.bare_eq_changed] at hpq ⊢
  rw [Phrase.bare_orSpan, Phrase.bare_orSpan, hpq]
termination_by j.depth

end Flow

open Reannotate.Flow (Phrase)

/-- If two alike documents are read, then the phrases are of one kind. Whether they are converted as
types or as signatures, the nodes are equal, or both conversions fail: with refusals of one kind and
message, or with one fault. -/
theorem alike_converted_alike (names : Names) {j k : Json} (h : Flow.Alike j k) {p q : Phrase}
    (hj : Flow.read j = .ok p) (hk : Flow.read k = .ok q) :
    p.kind = q.kind ∧
      Converting.InStep (Converting.convertPart names ⟨[], .phrase p⟩ none)
        (Converting.convertPart names ⟨[], .phrase q⟩ none) ∧
      Converting.InStep (Converting.convertSignaturePart names (.phrase p))
        (Converting.convertSignaturePart names (.phrase q)) := by
  obtain ⟨R, closed, hR⟩ := h
  have bare : p.bare = q.bare := by
    rw [p.bare_eq_changed, q.bare_eq_changed]
    exact Flow.both_read closed hR p q hj hk
  refine ⟨?_, ?_, ?_⟩
  · rw [← p.kind_bare, bare, q.kind_bare]
  · have left := Converting.inStep_convert names p .other
    have right := Converting.inStep_convert names q .other
    rw [bare] at left
    exact left.trans right.symm
  · have left := Converting.inStep_convertSignature names p
    have right := Converting.inStep_convertSignature names q
    rw [bare] at left
    exact left.trans right.symm

def stringNode : Json := .object [("type", .str "StringTypeAnnotation")]

def keyNode : Json := .object [("type", .str "Identifier"), ("name", .str "a")]

def minusProperty : Json :=
  .object [("type", .str "ObjectTypeProperty"), ("start", .int 3), ("end", .int 13),
    ("key", keyNode), ("value", stringNode), ("optional", .bool false),
    ("variance", .object [("kind", .str "minus")])]

def plainProperty : Json :=
  .object [("type", .str "ObjectTypeProperty"), ("key", keyNode), ("value", stringNode)]

def plusIndexer : Json :=
  .object [("type", .str "ObjectTypeIndexer"), ("key", stringNode), ("value", stringNode),
    ("variance", .object [("kind", .str "plus")])]

def plainIndexer : Json :=
  .object [("type", .str "ObjectTypeIndexer"), ("key", stringNode), ("value", stringNode)]

/-- `{| -a: string, +[string]: string |}`. -/
def exactNode : Json :=
  .object [("type", .str "ObjectTypeAnnotation"), ("start", .int 0), ("end", .int 36),
    ("exact", .bool true), ("properties", .array [minusProperty]),
    ("indexers", .array [plusIndexer])]

/-- `{ a: string, [string]: string }`. -/
def inexactNode : Json :=
  .object [("type", .str "ObjectTypeAnnotation"), ("properties", .array [plainProperty]),
    ("indexers", .array [plainIndexer])]

theorem alike_exactNode : Flow.Alike exactNode inexactNode := by
  refine ⟨fun a b => (a, b) ∈ [(exactNode, inexactNode), (minusProperty, plainProperty),
    (plusIndexer, plainIndexer), (stringNode, stringNode)], ?_, List.mem_cons_self⟩
  intro a b h
  simp only [List.mem_cons, Prod.mk.injEq, List.not_mem_nil, or_false] at h
  rcases h with ⟨rfl, rfl⟩ | ⟨rfl, rfl⟩ | ⟨rfl, rfl⟩ | ⟨rfl, rfl⟩
  · refine ⟨"ObjectTypeAnnotation", _, rfl, rfl, rfl, rfl, ?_⟩
    simp only [Flow.matches_cons, Flow.matches_nil, and_true]
    exact ⟨.cons (by simp) .nil, .cons (by simp) .nil, .nil⟩
  · refine ⟨"ObjectTypeProperty", _, rfl, rfl, rfl, rfl, ?_⟩
    simp only [Flow.matches_cons, Flow.matches_nil, and_true]
    refine ⟨.some (.inl ⟨rfl, rfl, rfl⟩), .some (by simp), rfl, ?_, .nil, .nil, .nil⟩
    exact iff_of_false (by decide) (by decide)
  · refine ⟨"ObjectTypeIndexer", _, rfl, rfl, rfl, rfl, ?_⟩
    simp only [Flow.matches_cons, Flow.matches_nil, and_true]
    exact ⟨.none, .some (by simp), .some (by simp), trivial⟩
  · exact ⟨"StringTypeAnnotation", _, rfl, rfl, rfl, rfl, by simp⟩

theorem alike_converted_alike_exact : Flow.Alike exactNode inexactNode ∧
    ∃ p q n, Flow.read exactNode = .ok p ∧ Flow.read inexactNode = .ok q ∧
      (Converting.convertPart .usual ⟨[], .phrase p⟩ none).outcome .empty =
        (.ok n, ⟨[.exactObject], []⟩) ∧
      ((Converting.convertPart .usual ⟨[], .phrase q⟩ none).outcome .empty).1 = .ok n := by
  obtain ⟨p, hp, n, hn⟩ : ∃ p, Flow.read exactNode = .ok p ∧ ∃ n,
      (Converting.convertPart .usual ⟨[], .phrase p⟩ none).outcome .empty =
        (.ok n, ⟨[.exactObject], []⟩) := ⟨_, by with_unfolding_all rfl, _, rfl⟩
  obtain ⟨q, hq⟩ : ∃ q, Flow.read inexactNode = .ok q := ⟨_, by with_unfolding_all rfl⟩
  refine ⟨alike_exactNode, p, q, n, hp, hq, hn, ?_⟩
  have ends := ((alike_converted_alike .usual alike_exactNode hp hq).2.1 .empty .empty rfl).1
  rw [hn] at ends
  generalize ((Converting.convertPart .usual ⟨[], .phrase q⟩ none).outcome .empty).1 = y at ends ⊢
  cases ends
  rfl

end Reannotate
