import Reannotate.Proofs.Abreast

/-!
# What conversions do not look at

`Phrase.bare` is a phrase without its spans and without what no conversion looks at. A phrase and
its bare form are converted in step: both conversions ask for the same names and end alike, whatever
warnings were given before (`inStep_convert`). Only refusals tell the two apart, by the phrase that
they blame.
-/

namespace Reannotate

open Reannotate.Flow (Phrase TypeName Role Change)
open Reannotate.TypeScript (Node)

namespace Flow

def TypeName.bare : TypeName → TypeName
  | .plain _ t => .plain none t
  | .qualified _ q i => .qualified none q.bare i.bare

/-- Of variances only `plus` is looked at, and only in properties. -/
def bareVariance : Option Variance → Option Variance
  | some .plus => some .plus
  | _ => none

mutual

def Phrase.bare : Phrase → Phrase
  | .typeName n => .typeName n.bare
  | .primitive _ w => .primitive none w
  | .literal _ k v => .literal none k v
  | .array _ e => .array none e.bare
  | .group _ g ts => .group none g (bareEach ts)
  | .nullable _ t => .nullable none t.bare
  | .typeof _ a => .typeof none a.bare
  | .generic _ i as => .generic none i.bare (bareMany as)
  | .property _ k v o w c => .property none k v.bare o (bareVariance w) c
  | .spread _ a => .spread none a.bare
  | .indexer _ i k v _ => .indexer none i k.bare v.bare .null
  | .callProperty _ v _ => .callProperty none v.bare false
  | .object _ ps is cs _ => .object none (bareEach ps) (bareEach is) (bareEach cs) false
  | .typeParameter _ n b d _ => .typeParameter none n (bareMaybe b) (bareMaybe d) .null
  | .parameter _ f n t o => .parameter none f n (bareMaybe t) o
  | .callable _ f ps r rest ts =>
    .callable none f (bareEach ps) (bareMaybe r) (bareMaybe rest) (bareMany ts)

def bareEach : List Phrase → List Phrase
  | [] => []
  | p :: ps => p.bare :: bareEach ps

def bareMaybe : Option Phrase → Option Phrase
  | none => none
  | some p => some p.bare

def bareMany : Option (List Phrase) → Option (List Phrase)
  | none => none
  | some ps => some (bareEach ps)

end

theorem TypeName.kind_bare (n : TypeName) : n.bare.kind = n.kind := by
  cases n <;> rfl

theorem Phrase.kind_bare (p : Phrase) : p.bare.kind = p.kind := by
  cases p with
  | typeName n => exact n.kind_bare
  | parameter s f n t o => cases f <;> rfl
  | callable s f ps r rest ts => cases f <;> rfl
  | _ => rfl

def Change.bare : Change where
  span _ := none
  name := TypeName.bare
  generic := TypeName.bare
  variance := bareVariance
  note _ := .null
  flag _ := false

mutual

theorem Phrase.bare_eq_changed (p : Phrase) : p.bare = p.changed .bare := by
  match p with
  | .typeName n | .primitive s w | .literal s k v => rfl
  | .array s e | .nullable s e | .typeof s e | .spread s e | .callProperty s e st
  | .property s k e o w c =>
    simp only [Phrase.bare, Phrase.changed, Phrase.bare_eq_changed e, Change.bare]
  | .group s g ts => simp only [Phrase.bare, Phrase.changed, bareEach_eq_changed ts, Change.bare]
  | .generic s i as => simp only [Phrase.bare, Phrase.changed, bareMany_eq_changed as, Change.bare]
  | .indexer s i k v w =>
    simp only [Phrase.bare, Phrase.changed, Phrase.bare_eq_changed k, Phrase.bare_eq_changed v,
      Change.bare]
  | .object s ps is cs x =>
    simp only [Phrase.bare, Phrase.changed, bareEach_eq_changed ps, bareEach_eq_changed is,
      bareEach_eq_changed cs, Change.bare]
  | .typeParameter s n b d w =>
    simp only [Phrase.bare, Phrase.changed, bareMaybe_eq_changed b, bareMaybe_eq_changed d,
      Change.bare]
  | .parameter s f n t o =>
    simp only [Phrase.bare, Phrase.changed, bareMaybe_eq_changed t, Change.bare]
  | .callable s f ps r rest ts =>
    simp only [Phrase.bare, Phrase.changed, bareEach_eq_changed ps, bareMaybe_eq_changed r,
      bareMaybe_eq_changed rest, bareMany_eq_changed ts, Change.bare]

theorem bareEach_eq_changed (ps : List Phrase) : bareEach ps = changedEach .bare ps := by
  match ps with
  | [] => rfl
  | p :: ps => rw [bareEach, changedEach, Phrase.bare_eq_changed p, bareEach_eq_changed ps]

theorem bareMaybe_eq_changed (o : Option Phrase) : bareMaybe o = changedMaybe .bare o := by
  match o with
  | none => rfl
  | some p => rw [bareMaybe, changedMaybe, Phrase.bare_eq_changed p]

theorem bareMany_eq_changed (o : Option (List Phrase)) : bareMany o = changedMany .bare o := by
  match o with
  | none => rfl
  | some ps => rw [bareMany, changedMany, bareEach_eq_changed ps]

end

end Flow

namespace Converting

variable {α : Type}

/-- From logs with the same requests for names the conversions end alike, and so do their requests
then. -/
def InStep (c d : Converting α) : Prop :=
  ∀ log log', log.asked = log'.asked → SameEnd (c.outcome log).1 (d.outcome log').1 ∧
    (c.outcome log).2.asked = (d.outcome log').2.asked

theorem InStep.symm {c d : Converting α} (h : InStep c d) : InStep d c := by
  intro log log' hasked
  obtain ⟨hend, hafter⟩ := h log' log hasked.symm
  exact ⟨hend.symm, hafter.symm⟩

theorem InStep.trans {c d e : Converting α} (h : InStep c d) (h' : InStep d e) : InStep c e := by
  intro log log' hasked
  obtain ⟨hend, hafter⟩ := h log log rfl
  obtain ⟨hend', hafter'⟩ := h' log log' hasked
  exact ⟨hend.trans hend', hafter.trans hafter'⟩

theorem abreast_reference_bare {L : Log → Log → Prop}
    (hwarn : ∀ w, Abreast L (warn w) (warn w)) (names : Names) (p q : Phrase) (id : TypeName)
    (args : Option (List Node)) :
    Abreast L (reference names p id args) (reference names q id.bare args) := by
  rcases id with ⟨s, name⟩ | ⟨s, _ | _, _ | _⟩
  · simp only [reference, TypeName.bare]
    split
    · exact abreast_apply hwarn _ _ _ _
    · exact (abreast_lift _).bind fun name => abreast_referTo p q name args
  · exact abreast_pure _
  · exact abreast_throw _
  all_goals exact abreast_refuse _ _ _ _

theorem tolerates_bare (names : Names) :
    Tolerates (fun log log' => log.asked = log'.asked) names names .bare where
  warn w _ _ h := ⟨.ok (), h⟩
  ask used log log' h := by
    rw [outcome_askName, outcome_askName, h]
    exact ⟨SameEnd.refl _, rfl⟩
  exactness x _ _ h := by
    cases x
    · exact ⟨.ok (), h⟩
    · exact ⟨.ok (), h⟩
  reference := abreast_reference_bare (fun _ _ _ h => ⟨.ok (), h⟩) names
  kind n := n.kind_bare
  plus w := by rcases w with _ | _ | _ <;> simp [Change.bare, Flow.bareVariance]

theorem inStep_convert (names : Names) (p : Phrase) (role : Role Bool) :
    InStep (convert names p role) (convert names p.bare role) := by
  rw [p.bare_eq_changed]
  exact (tolerates_bare names).abreast_convert p role

theorem inStep_convertSignature (names : Names) (p : Phrase) :
    InStep (convertSignature names p) (convertSignature names p.bare) := by
  rw [p.bare_eq_changed]
  exact (tolerates_bare names).abreast_convertSignature p

end Converting

end Reannotate
