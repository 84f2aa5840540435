import Reannotate.Proofs.Ending

/-!
# Properties of every step

What holds of the single steps of a conversion, and of one thing after another when it holds of
both, holds of the whole conversion (`StepClosed.convert`). So the outcome does not hang on the log
before if fresh names do not (`steady_convert`).
-/

namespace Reannotate

open Reannotate.Flow (Phrase Role)
open Reannotate.TypeScript (Node)

namespace Converting

/-- `R` holds of all steps that conversions are made of, and passes to sequences. -/
structure StepClosed (names : Names) (R : {α : Type} → Converting α → Prop) : Prop where
  lift : ∀ {α : Type} (x : Except Fault α), R (liftM x : Converting α)
  warn : ∀ w, R (warn w)
  askName : ∀ used, R (askName names used)
  bind : ∀ {α β : Type} {c : Converting α} {f : α → Converting β},
    R c → (∀ a, R (f a)) → R (c >>= f)

namespace StepClosed

variable {names : Names} {R : {α : Type} → Converting α → Prop} (h : StepClosed names R)
include h

theorem pure {α : Type} (a : α) : R (Pure.pure a : Converting α) := h.lift (.ok a)

theorem throw {α : Type} (e : Fault) : R (MonadExcept.throw e : Converting α) := h.lift (.error e)

theorem primitive (w : Flow.Primitive) : R (primitive w) := by
  cases w with
  | «exists» => exact h.bind (h.warn _) fun _ => h.pure _
  | _ => exact h.pure _

theorem utility (u : Utility) (subject : Flow.Part) (args : Option (List Node)) :
    R (u.apply subject args) := by
  unfold Utility.apply
  split
  case h_5 => exact h.bind (h.warn _) fun _ => h.pure _
  all_goals first | exact h.pure _ | exact h.throw _

theorem referTo (p : Phrase) (name : Text) (args : Option (List Node)) : R (referTo p name args) := by
  unfold Converting.referTo
  split
  · exact h.pure _
  · exact h.pure _
  · exact h.pure _
  · exact h.throw _

theorem reference (p : Phrase) (id : Flow.TypeName) (args : Option (List Node)) :
    R (reference names p id args) := by
  unfold Converting.reference
  split
  · split
    · exact h.utility _ _ _
    · exact h.bind (h.lift _) fun _ => h.referTo _ _ _
  · exact h.pure _
  · exact h.throw _
  · exact h.throw _

theorem nameFor (name : Json) (used : List Json) : R (nameFor names name used) := by
  unfold Converting.nameFor
  split
  · exact h.bind (h.askName used) fun _ => h.pure _
  · exact h.pure _

theorem refuseCalls (cs : List Phrase) : R (refuseCalls cs) := by
  cases cs with
  | nil => exact h.pure _
  | cons c cs => exact h.throw _

mutual

theorem convert (p : Phrase) (role : Role Bool) : R (convert names p role) := by
  match p with
  | .typeName n => exact h.throw _
  | .primitive s w => exact h.primitive w
  | .literal s k v => exact h.lift _
  | .array s e => exact h.bind (convert e role) fun _ => h.pure _
  | .group s g ts => exact h.bind (convertEach ts role) fun _ => h.pure _
  | .nullable s q => exact h.bind (convert q role) fun _ => h.pure _
  | .typeof s a => exact h.bind (convert a role) fun _ => h.pure _
  | .generic s id none => exact h.bind (h.pure _) fun _ => h.reference _ _ _
  | .generic s id (some as) =>
    exact h.bind (h.bind (convertEach as .other) fun _ => h.pure _) fun _ => h.reference _ _ _
  | .property s k v o w c => exact h.throw _
  | .spread s a => exact h.throw _
  | .indexer s i k v w => exact h.throw _
  | .callProperty s v st => exact h.throw _
  | .object s ps is cs x =>
    have parts : R (Converting.convertParts names ps is cs) :=
      h.bind (convertMembers ps) fun _ => h.bind (convertIndexers is) fun _ =>
        h.bind (h.refuseCalls cs) fun _ => h.pure _
    rw [Converting.convert_object]
    cases x with
    | true => exact h.bind (h.warn _) fun _ => parts
    | false => exact parts
  | .typeParameter s n b d w => exact h.throw _
  | .parameter s f n a o => exact h.throw _
  | .callable s (.declared n) ps r rest ts => exact h.throw _
  | .callable s .ofType ps r rest ts =>
    exact h.bind (convertTypeParams ts) fun _ => h.bind (h.lift _) fun _ =>
      h.bind (convertParams ps _ _) fun _ => h.bind (convertRest rest) fun _ =>
        h.bind (convertMaybe r role) fun _ => h.pure _

theorem convertEach (ps : List Phrase) (role : Role Bool) : R (convertEach names ps role) := by
  match ps with
  | [] => exact h.pure _
  | p :: rest => exact h.bind (convert p role) fun _ => h.bind (convertEach rest role) fun _ => h.pure _

theorem convertMaybe (o : Option Phrase) (role : Role Bool) : R (convertMaybe names o role) := by
  match o with
  | none => exact h.pure _
  | some p => exact h.bind (convert p role) fun _ => h.pure _

theorem convertMembers (ps : List Phrase) : R (convertMembers names ps) := by
  match ps with
  | [] => exact h.pure _
  | p :: rest =>
    cases p with
    | property s k v o w c =>
      exact h.bind (convert v _) fun _ => h.bind (h.lift _) fun _ =>
        h.bind (convertMembers rest) fun _ => h.pure _
    | spread s a =>
      exact h.bind (convert a _) fun _ => h.bind (convertMembers rest) fun _ => h.pure _
    | _ => exact h.throw _

theorem convertIndexers (ps : List Phrase) : R (convertIndexers names ps) := by
  match ps with
  | [] => exact h.pure _
  | p :: rest =>
    cases p with
    | indexer s id k v w =>
      exact h.bind (convert k _) fun _ => h.bind (convert v _) fun _ => h.bind (h.lift _) fun _ =>
        h.bind (convertIndexers rest) fun _ => h.pure _
    | _ => exact h.throw _

theorem convertParams (ps : List Phrase) (roles : List (Role Bool)) (used : List Json) :
    R (convertParams names ps roles used) := by
  match ps, roles with
  | [], _ => exact h.pure _
  | p :: rest, [] => cases p <;> exact h.pure _
  | p :: rest, role :: roles =>
    cases p with
    | parameter s f n a o =>
      exact h.bind (h.nameFor n used) fun _ => h.bind (convertMaybe a role) fun _ =>
        h.bind (h.lift _) fun _ => h.bind (convertParams rest roles _) fun _ => h.pure _
    | _ => exact h.bind (h.lift _) fun _ => h.bind (h.nameFor _ used) fun _ => h.throw _

theorem convertRest (o : Option Phrase) : R (convertRest names o) := by
  match o with
  | none => exact h.pure _
  | some p =>
    cases p with
    | parameter s f n a o =>
      rw [Converting.convertRest_parameter]
      cases n.isNull with
      | true => exact h.pure _
      | false => exact h.bind (convertMaybe a _) fun _ => h.bind (h.lift _) fun _ => h.pure _
    | _ =>
      refine h.bind (h.lift _) fun name => ?_
      cases name.isNull with
      | true => exact h.pure _
      | false => exact h.throw _

theorem convertTypeParams (o : Option (List Phrase)) : R (convertTypeParams names o) := by
  match o with
  | none => exact h.pure _
  | some ps => exact h.bind (convertEachTypeParam ps) fun _ => h.pure _

theorem convertEachTypeParam (ps : List Phrase) : R (convertEachTypeParam names ps) := by
  match ps with
  | [] => exact h.pure _
  | p :: rest =>
    cases p with
    | typeParameter s n b d w =>
      exact h.bind (convertMaybe b _) fun _ => h.bind (convertMaybe d _) fun _ =>
        h.bind (h.lift _) fun _ => h.bind (convertEachTypeParam rest) fun _ => h.pure _
    | _ => exact h.throw _

end

end StepClosed

/-! ## The log before -/

variable {α β : Type}

/-- The result and what is added to the log are the same after any log. -/
def Steady (c : Converting α) : Prop :=
  ∃ result warnings asked, ∀ log : Log,
    c.outcome log = (result, ⟨log.warnings ++ warnings, log.asked ++ asked⟩)

theorem steady_lift (x : Except Fault α) : Steady (liftM x : Converting α) :=
  ⟨x, [], [], fun log => by rw [outcome_lift, List.append_nil, List.append_nil]⟩

theorem Steady.bind {c : Converting α} {f : α → Converting β} (h : Steady c)
    (hf : ∀ a, Steady (f a)) : Steady (c >>= f) := by
  obtain ⟨result, warnings, asked, hc⟩ := h
  cases result with
  | error e =>
    refine ⟨.error e, warnings, asked, fun log => ?_⟩
    rw [outcome_bind, hc]
  | ok a =>
    obtain ⟨result', warnings', asked', ha⟩ := hf a
    refine ⟨result', warnings ++ warnings', asked ++ asked', fun log => ?_⟩
    rw [outcome_bind, hc]
    simp only [ha, List.append_assoc]

theorem Steady.same {c : Converting α} (h : Steady c) (log log' : Log) :
    (c.outcome log).1 = (c.outcome log').1 := by
  obtain ⟨result, warnings, asked, hc⟩ := h
  rw [hc, hc]

end Converting

def Names.Forgetful (names : Names) : Prop :=
  ∀ earlier earlier' used, names.fresh earlier used = names.fresh earlier' used

theorem Names.usual_forgetful : Names.usual.Forgetful := fun _ _ _ => rfl

namespace Converting

theorem stepClosed_steady {names : Names} (h : names.Forgetful) : StepClosed names Steady where
  lift := steady_lift
  warn w := ⟨.ok (), [w], [], fun log => by rw [outcome_warn, List.append_nil]⟩
  askName used := ⟨names.fresh [] used, [], [used], fun log => by
    rw [outcome_askName, List.append_nil, h log.asked []]⟩
  bind := Steady.bind

theorem steady_convert {names : Names} (h : names.Forgetful) (p : Phrase) (role : Role Bool) :
    Steady (convert names p role) :=
  (stepClosed_steady h).convert p role

end Converting

end Reannotate
