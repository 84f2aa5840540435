import Mathlib.Data.List.Forall2
import Reannotate.Flow.Basic

/-!
# Changed trees

A `Change` of a tree keeps its form and all names that are scalars, but not all else that is noted
in it. What a change leaves the same in two trees is what they have in common.
-/

namespace Reannotate.Flow

/-- Changes to what stands in a tree: to its spans, to names by themselves, to the names of generic
types, to the variances of properties, to other variances, and to flags that say `exact` or
`static`. -/
structure Change where
  span : Option Span → Option Span
  name : TypeName → TypeName
  generic : TypeName → TypeName
  variance : Option Variance → Option Variance
  note : Json → Json
  flag : Bool → Bool

mutual

def Phrase.changed (c : Change) : Phrase → Phrase
  | .typeName n => .typeName (c.name n)
  | .primitive s w => .primitive (c.span s) w
  | .literal s k v => .literal (c.span s) k v
  | .array s e => .array (c.span s) (e.changed c)
  | .group s g ts => .group (c.span s) g (changedEach c ts)
  | .nullable s t => .nullable (c.span s) (t.changed c)
  | .typeof s a => .typeof (c.span s) (a.changed c)
  | .generic s i as => .generic (c.span s) (c.generic i) (changedMany c as)
  | .property s k v o w cs => .property (c.span s) k (v.changed c) o (c.variance w) cs
  | .spread s a => .spread (c.span s) (a.changed c)
  | .indexer s i k v w => .indexer (c.span s) i (k.changed c) (v.changed c) (c.note w)
  | .callProperty s v st => .callProperty (c.span s) (v.changed c) (c.flag st)
  | .object s ps is cs x =>
    .object (c.span s) (changedEach c ps) (changedEach c is) (changedEach c cs) (c.flag x)
  | .typeParameter s n b d w =>
    .typeParameter (c.span s) n (changedMaybe c b) (changedMaybe c d) (c.note w)
  | .parameter s f n t o => .parameter (c.span s) f n (changedMaybe c t) o
  | .callable s f ps r rest ts =>
    .callable (c.span s) f (changedEach c ps) (changedMaybe c r) (changedMaybe c rest)
      (changedMany c ts)

def changedEach (c : Change) : List Phrase → List Phrase
  | [] => []
  | p :: ps => p.changed c :: changedEach c ps

def changedMaybe (c : Change) : Option Phrase → Option Phrase
  | none => none
  | some p => some (p.changed c)

def changedMany (c : Change) : Option (List Phrase) → Option (List Phrase)
  | none => none
  | some ps => some (changedEach c ps)

end

theorem changedEach_eq_map (c : Change) (ps : List Phrase) :
    changedEach c ps = ps.map (Phrase.changed c) := by
  induction ps with
  | nil => rfl
  | cons p ps ih => rw [changedEach, ih, List.map_cons]

abbrev Change.Same (c : Change) (p q : Phrase) : Prop :=
  p.changed c = q.changed c

section
variable {c : Change}

theorem changedEach_eq_of_forall₂ {ps qs : List Phrase} (h : List.Forall₂ c.Same ps qs) :
    changedEach c ps = changedEach c qs := by
  induction h with
  | nil => rfl
  | cons hpq _ ih => rw [changedEach, changedEach, hpq, ih]

theorem changedEach_append (ps qs : List Phrase) :
    changedEach c (ps ++ qs) = changedEach c ps ++ changedEach c qs := by
  rw [changedEach_eq_map, changedEach_eq_map, changedEach_eq_map, List.map_append]

theorem changedMaybe_eq_of_rel {o o' : Option Phrase} (h : Option.Rel c.Same o o') :
    changedMaybe c o = changedMaybe c o' := by
  cases h with
  | none => rfl
  | some h => rw [changedMaybe, changedMaybe, h]

end

theorem Phrase.kind_changed {c : Change} (hc : ∀ n, (c.name n).kind = n.kind) (p : Phrase) :
    (p.changed c).kind = p.kind := by
  cases p with
  | typeName n => exact hc n
  | parameter s f n t o => cases f <;> rfl
  | callable s f ps r rest ts => cases f <;> rfl
  | _ => rfl

/-! ## Changes of nothing and of spans -/

def Change.keep : Change where
  span := id
  name := id
  generic := id
  variance := id
  note := id
  flag := id

mutual

theorem Phrase.changed_keep (p : Phrase) : p.changed .keep = p := by
  match p with
  | .typeName _ | .primitive _ _ | .literal _ _ _ => rfl
  | .array _ e | .nullable _ e | .typeof _ e | .spread _ e | .callProperty _ e _
  | .property _ _ e _ _ _ =>
    rw [Phrase.changed, Phrase.changed_keep e]
    rfl
  | .group _ _ ts =>
    rw [Phrase.changed, changedEach_keep ts]
    rfl
  | .generic _ _ as =>
    rw [Phrase.changed, changedMany_keep as]
    rfl
  | .indexer _ _ k v _ =>
    rw [Phrase.changed, Phrase.changed_keep k, Phrase.changed_keep v]
    rfl
  | .object _ ps is cs _ =>
    rw [Phrase.changed, changedEach_keep ps, changedEach_keep is, changedEach_keep cs]
    rfl
  | .typeParameter _ _ b d _ =>
    rw [Phrase.changed, changedMaybe_keep b, changedMaybe_keep d]
    rfl
  | .parameter _ _ _ t _ =>
    rw [Phrase.changed, changedMaybe_keep t]
    rfl
  | .callable _ _ ps r rest ts =>
    rw [Phrase.changed, changedEach_keep ps, changedMaybe_keep r, changedMaybe_keep rest,
      changedMany_keep ts]
    rfl

theorem changedEach_keep (ps : List Phrase) : changedEach .keep ps = ps := by
  match ps with
  | [] => rfl
  | p :: ps => rw [changedEach, Phrase.changed_keep p, changedEach_keep ps]

theorem changedMaybe_keep (o : Option Phrase) : changedMaybe .keep o = o := by
  match o with
  | none => rfl
  | some p => rw [changedMaybe, Phrase.changed_keep p]

theorem changedMany_keep (o : Option (List Phrase)) : changedMany .keep o = o := by
  match o with
  | none => rfl
  | some ps => rw [changedMany, changedEach_keep ps]

end

theorem same_keep_iff {p q : Phrase} : Change.keep.Same p q ↔ p = q := by
  rw [Change.Same, p.changed_keep, q.changed_keep]

def TypeName.spanless : TypeName → TypeName
  | .plain _ t => .plain none t
  | .qualified _ q i => .qualified none q i

/-- No phrase has a span. The names of generic types are no phrases of their own and keep theirs. -/
def Change.spanless : Change where
  span _ := none
  name := TypeName.spanless
  generic := id
  variance := id
  note := id
  flag := id

def Phrase.spanless (p : Phrase) : Phrase :=
  p.changed .spanless

theorem Phrase.spanless_orSpan (s : Option Span) (p : Phrase) :
    (p.orSpan s).spanless = p.spanless := by
  unfold orSpan
  split
  · cases p with
    | typeName n => cases n <;> rfl
    | _ => rfl
  · rfl

end Reannotate.Flow
