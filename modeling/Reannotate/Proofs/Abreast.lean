import Reannotate.Proofs.Change
import Reannotate.Proofs.Ending

/-!
# Two conversions abreast

Two conversions are abreast if from logs that are alike they end alike, and leave logs alike
(`Abreast`). If the single steps that may tell a tree from a changed one are abreast, then so are
the conversions of the two trees (`Tolerates.abreast_convert`).
-/

namespace Reannotate

open Reannotate.Flow (Phrase TypeName Role Change)
open Reannotate.TypeScript (Node)

/-! ## Ends alike -/

/-- The same result or the same fault, except that refusals may blame different parts. -/
inductive SameEnd {α : Type} : Except Fault α → Except Fault α → Prop
  | ok (a : α) : SameEnd (.ok a) (.ok a)
  | refused (kind message : Json) (s t : Option Flow.Part) :
    SameEnd (.error (.refused ⟨kind, message, s⟩)) (.error (.refused ⟨kind, message, t⟩))
  | error (e : Fault) : SameEnd (.error e) (.error e)

section
variable {α : Type} {x y z : Except Fault α}

theorem SameEnd.refl (x : Except Fault α) : SameEnd x x := by
  cases x with
  | ok a => exact .ok a
  | error e => exact .error e

theorem SameEnd.symm (h : SameEnd x y) : SameEnd y x := by
  cases h with
  | ok a => exact .ok a
  | refused kind message s t => exact .refused kind message t s
  | error e => exact .error e

theorem SameEnd.trans (h : SameEnd x y) (h' : SameEnd y z) : SameEnd x z := by
  cases h with
  | ok a => exact h'
  | refused kind message s t =>
    cases h' with
    | refused _ _ _ u => exact .refused kind message s u
    | error => exact .refused kind message s t
  | error e => exact h'

end

namespace Converting

/-- From logs that are alike the conversions end alike, and their logs then are alike. -/
def Abreast {α : Type} (L : Log → Log → Prop) (c d : Converting α) : Prop :=
  ∀ log log', L log log' → SameEnd (c.outcome log).1 (d.outcome log').1 ∧
    L (c.outcome log).2 (d.outcome log').2

section
variable {α β : Type} {L : Log → Log → Prop}

theorem abreast_pure (a : α) : Abreast L (pure a) (pure a) := fun _ _ h => ⟨.ok a, h⟩

theorem abreast_throw (e : Fault) : Abreast L (throw e : Converting α) (throw e) :=
  fun _ _ h => ⟨.error e, h⟩

theorem abreast_lift (x : Except Fault α) : Abreast L (liftM x) (liftM x) := by
  intro log log' h
  rw [outcome_lift, outcome_lift]
  exact ⟨SameEnd.refl x, h⟩

theorem abreast_refuse (kind message : Text) (s t : Flow.Part) :
    Abreast L (refuse kind message s : Converting α) (refuse kind message t) :=
  fun _ _ h => ⟨.refused _ _ _ _, h⟩

theorem Abreast.bind {c d : Converting α} {f g : α → Converting β} (h : Abreast L c d)
    (hfg : ∀ a, Abreast L (f a) (g a)) : Abreast L (c >>= f) (d >>= g) := by
  intro log log' hlog
  obtain ⟨hend, hafter⟩ := h log log' hlog
  rw [outcome_bind, outcome_bind]
  rcases hc : c.outcome log with ⟨x, after⟩
  rcases hd : d.outcome log' with ⟨y, after'⟩
  rw [hc, hd] at hend hafter
  cases hend with
  | ok a => exact hfg a after after' hafter
  | refused kind message s t => exact ⟨.refused kind message s t, hafter⟩
  | error e => exact ⟨.error e, hafter⟩

theorem Abreast.then_pure {c d : Converting α} (h : Abreast L c d) (f : α → β) :
    Abreast L (do return f (← c)) (do return f (← d)) :=
  h.bind fun a => abreast_pure (f a)

theorem abreast_apply (hwarn : ∀ w, Abreast L (warn w) (warn w)) (u : Utility) (s t : Flow.Part)
    (args : Option (List Node)) : Abreast L (u.apply s args) (u.apply t args) := by
  unfold Utility.apply
  split
  case h_5 => exact (hwarn _).bind fun _ => abreast_pure _
  case h_13 | h_14 => exact abreast_refuse _ _ _ _
  all_goals exact abreast_pure _

theorem abreast_referTo (p q : Phrase) (name : Text) (args : Option (List Node)) :
    Abreast L (referTo p name args) (referTo q name args) := by
  unfold referTo
  split
  case h_4 => exact abreast_refuse _ _ _ _
  all_goals exact abreast_pure _

end

/-! ## Changes that conversions tolerate -/

/-- What tells a tree from the changed one makes no difference in any single step. -/
structure Tolerates (L : Log → Log → Prop) (names names' : Names) (c : Change) : Prop where
  warn (w : Warning) : Abreast L (warn w) (warn w)
  ask (used : List Json) : Abreast L (askName names used) (askName names' used)
  exactness (x : Bool) : Abreast L (if x then Converting.warn .exactObject else pure ())
    (if c.flag x then Converting.warn .exactObject else pure ())
  reference (p q : Phrase) (id : TypeName) (args : Option (List Node)) :
    Abreast L (reference names p id args) (reference names' q (c.generic id) args)
  kind (n : TypeName) : (c.name n).kind = n.kind
  plus (w : Option Flow.Variance) : c.variance w = some .plus ↔ w = some .plus

theorem nameOf_changed (c : Change) (p : Phrase) : nameOf (p.changed c) = nameOf p := by
  cases p with
  | callable s f ps r rest ts => cases f <;> rfl
  | _ => rfl

theorem namesInUse_changed (c : Change) (ps : List Phrase) :
    namesInUse (Flow.changedEach c ps) = namesInUse ps := by
  unfold namesInUse
  rw [Flow.changedEach_eq_map, List.mapM_map]
  simp only [Function.comp_def, nameOf_changed]

theorem signatureRoles_changed (c : Change) (ps : List Phrase) :
    signatureRoles (Flow.changedEach c ps) = signatureRoles ps := by
  have optional : ∀ p : Phrase, (p.changed c).optional? = p.optional? := by
    intro p
    cases p <;> rfl
  unfold signatureRoles
  rw [Flow.changedEach_eq_map, List.mapM_map]
  simp only [Function.comp_def, optional]

namespace Tolerates

variable {L : Log → Log → Prop} {names names' : Names} {c : Change}

theorem abreast_refuseKind {α : Type} (h : Tolerates L names names' c) (p : Phrase) :
    Abreast L (refuseKind p : Converting α) (refuseKind (p.changed c)) := by
  unfold refuseKind
  rw [p.kind_changed h.kind]
  exact fun _ _ hlog => ⟨.refused _ _ _ _, hlog⟩

theorem abreast_primitive (h : Tolerates L names names' c) (w : Flow.Primitive) :
    Abreast L (primitive w) (primitive w) := by
  cases w with
  | «exists» => exact (h.warn _).bind fun _ => abreast_pure _
  | _ => exact abreast_pure _

theorem abreast_refuseCalls (cs : List Phrase) :
    Abreast L (refuseCalls cs) (refuseCalls (Flow.changedEach c cs)) := by
  cases cs with
  | nil => exact abreast_pure ()
  | cons c cs => exact abreast_refuse _ _ _ _

theorem abreast_nameFor (h : Tolerates L names names' c) (name : Json) (used : List Json) :
    Abreast L (nameFor names name used) (nameFor names' name used) := by
  unfold nameFor
  split
  · exact (h.ask used).bind fun fresh => abreast_pure _
  · exact abreast_pure _

theorem propertySignature_variance (h : Tolerates L names names' c) (k : Flow.PropertyKey)
    (type : Node) (o : Bool) (w : Option Flow.Variance) (cs : Flow.Comments) :
    propertySignature k type o (c.variance w) cs = propertySignature k type o w cs := by
  unfold propertySignature
  simp only [h.plus]

theorem after_exactness {α : Type} (h : Tolerates L names names' c) (x : Bool)
    {a b : Converting α} (hab : Abreast L a b) :
    Abreast L (if x then (do Converting.warn .exactObject; a) else a)
      (if c.flag x then (do Converting.warn .exactObject; b) else b) := by
  have both := (h.exactness x).bind fun _ => hab
  cases x <;> cases hx : c.flag _ <;> simpa [hx] using both

mutual

theorem abreast_convert (h : Tolerates L names names' c) (p : Phrase) (role : Role Bool) :
    Abreast L (convert names p role) (convert names' (p.changed c) role) := by
  match p with
  | .primitive s w => exact h.abreast_primitive w
  | .literal s k v => exact abreast_lift _
  | .array s e => exact (h.abreast_convert e role).then_pure _
  | .group s g ts => exact (h.abreast_each ts role).then_pure _
  | .nullable s t => exact (h.abreast_convert t role).then_pure _
  | .typeof s a => exact (h.abreast_convert a role).then_pure _
  | .generic s id as => exact (h.abreast_args as).bind fun args => h.reference _ _ id args
  | .object s ps is cs x =>
    apply h.after_exactness x
    refine (h.abreast_members ps).bind fun members => ?_
    refine (h.abreast_indexers is).bind fun indexers => ?_
    exact (abreast_refuseCalls cs).then_pure _
  | .callable s .ofType ps r rest ts =>
    have others : (Flow.changedEach c ps).map (fun _ => (.other : Role Bool)) =
        ps.map fun _ => .other := by
      rw [Flow.changedEach_eq_map, List.map_map]
      rfl
    refine (h.abreast_typeParams ts).bind fun typeParams => ?_
    rw [namesInUse_changed, others]
    refine (abreast_lift _).bind fun used => (h.abreast_params ps _ used).bind fun params => ?_
    exact (h.abreast_rest rest).bind fun last => (h.abreast_maybe r role).then_pure _
  | .typeName n => exact h.abreast_refuseKind _
  | .property s k v o w cs => exact h.abreast_refuseKind (.property s k v o w cs)
  | .spread s a => exact h.abreast_refuseKind (.spread s a)
  | .indexer s i k v w => exact h.abreast_refuseKind (.indexer s i k v w)
  | .callProperty s v st => exact h.abreast_refuseKind (.callProperty s v st)
  | .typeParameter s n b d w => exact h.abreast_refuseKind (.typeParameter s n b d w)
  | .parameter s f n t o => exact h.abreast_refuseKind (.parameter s f n t o)
  | .callable s (.declared n) ps r rest ts =>
    exact h.abreast_refuseKind (.callable s (.declared n) ps r rest ts)

theorem abreast_each (h : Tolerates L names names' c) (ps : List Phrase) (role : Role Bool) :
    Abreast L (convertEach names ps role) (convertEach names' (Flow.changedEach c ps) role) := by
  match ps with
  | [] => exact abreast_pure _
  | p :: rest =>
    exact (h.abreast_convert p role).bind fun node => (h.abreast_each rest role).then_pure _

theorem abreast_maybe (h : Tolerates L names names' c) (o : Option Phrase) (role : Role Bool) :
    Abreast L (convertMaybe names o role) (convertMaybe names' (Flow.changedMaybe c o) role) := by
  match o with
  | none => exact abreast_pure _
  | some p => exact (h.abreast_convert p role).then_pure _

theorem abreast_args (h : Tolerates L names names' c) (o : Option (List Phrase)) :
    Abreast L (convertArgs names o) (convertArgs names' (Flow.changedMany c o)) := by
  match o with
  | none => exact abreast_pure _
  | some ps => exact (h.abreast_each ps .other).then_pure _

theorem abreast_members (h : Tolerates L names names' c) (ps : List Phrase) :
    Abreast L (convertMembers names ps) (convertMembers names' (Flow.changedEach c ps)) := by
  match ps with
  | [] => exact abreast_pure _
  | p :: rest =>
    cases p with
    | property s k v o w cs =>
      refine (h.abreast_convert v _).bind fun type => ?_
      rw [h.propertySignature_variance]
      exact (abreast_lift _).bind fun member => (h.abreast_members rest).then_pure _
    | spread s a =>
      exact (h.abreast_convert a _).bind fun spread => (h.abreast_members rest).then_pure _
    | callable s f qs r dots ts => exact h.abreast_refuseKind (.callable s f qs r dots ts)
    | _ => exact h.abreast_refuseKind _

theorem abreast_indexers (h : Tolerates L names names' c) (ps : List Phrase) :
    Abreast L (convertIndexers names ps) (convertIndexers names' (Flow.changedEach c ps)) := by
  match ps with
  | [] => exact abreast_pure _
  | p :: rest =>
    cases p with
    | indexer s id k v w =>
      refine (h.abreast_convert k _).bind fun key => (h.abreast_convert v _).bind fun type => ?_
      exact (abreast_lift _).bind fun member => (h.abreast_indexers rest).then_pure _
    | _ => exact abreast_throw _

theorem abreast_params (h : Tolerates L names names' c) (ps : List Phrase)
    (roles : List (Role Bool)) (used : List Json) :
    Abreast L (convertParams names ps roles used)
      (convertParams names' (Flow.changedEach c ps) roles used) := by
  match ps, roles with
  | [], _ => exact abreast_pure _
  | p :: rest, [] => cases p <;> exact abreast_pure _
  | p :: rest, role :: roles =>
    cases p with
    | parameter s f n t o =>
      refine (h.abreast_nameFor n used).bind fun named => ?_
      refine (h.abreast_maybe t role).bind fun type => ?_
      exact (abreast_lift _).bind fun param => (h.abreast_params rest roles _).then_pure _
    | callable s f qs r dots ts =>
      cases f
      all_goals
        refine (abreast_lift _).bind fun name => (h.abreast_nameFor name used).bind fun _ => ?_
        exact abreast_throw _
    | _ =>
      refine (abreast_lift _).bind fun name => (h.abreast_nameFor name used).bind fun _ => ?_
      exact abreast_throw _

theorem abreast_rest (h : Tolerates L names names' c) (o : Option Phrase) :
    Abreast L (convertRest names o) (convertRest names' (Flow.changedMaybe c o)) := by
  match o with
  | none => exact abreast_pure _
  | some p =>
    cases p with
    | parameter s f n t o =>
      simp only [Flow.changedMaybe, Phrase.changed, convertRest_parameter]
      cases n.isNull with
      | true => exact abreast_pure _
      | false => exact (h.abreast_maybe t _).bind fun type => (abreast_lift _).then_pure _
    | callable s f qs r dots ts =>
      cases f
      all_goals
        refine (abreast_lift _).bind fun name => ?_
        cases name.isNull with
        | true => exact abreast_pure _
        | false => exact abreast_throw _
    | _ =>
      refine (abreast_lift _).bind fun name => ?_
      cases name.isNull with
      | true => exact abreast_pure _
      | false => exact abreast_throw _

theorem abreast_typeParams (h : Tolerates L names names' c) (o : Option (List Phrase)) :
    Abreast L (convertTypeParams names o) (convertTypeParams names' (Flow.changedMany c o)) := by
  match o with
  | none => exact abreast_pure _
  | some ps => exact (h.abreast_eachTypeParam ps).then_pure _

theorem abreast_eachTypeParam (h : Tolerates L names names' c) (ps : List Phrase) :
    Abreast L (convertEachTypeParam names ps)
      (convertEachTypeParam names' (Flow.changedEach c ps)) := by
  match ps with
  | [] => exact abreast_pure _
  | p :: rest =>
    cases p with
    | typeParameter s n b d w =>
      refine (h.abreast_maybe b _).bind fun bound => (h.abreast_maybe d _).bind fun default => ?_
      exact (abreast_lift _).bind fun param => (h.abreast_eachTypeParam rest).then_pure _
    | _ => exact abreast_throw _

end

theorem abreast_convertSignature (h : Tolerates L names names' c) (p : Phrase) :
    Abreast L (convertSignature names p) (convertSignature names' (p.changed c)) := by
  cases p with
  | callable s f ps r rest ts =>
    simp only [Phrase.changed, convertSignature_callable]
    rw [signatureRoles_changed, namesInUse_changed]
    refine (abreast_lift _).bind fun roles => ?_
    refine (h.abreast_typeParams ts).bind fun typeParams => ?_
    refine (abreast_lift _).bind fun used => ?_
    refine (h.abreast_params ps roles used).bind fun params => ?_
    exact (h.abreast_rest rest).bind fun last => (h.abreast_maybe r _).then_pure _
  | _ => exact abreast_throw _

end Tolerates

end Converting

end Reannotate
