import Reannotate.Proofs.Warnings

/-!
# What roles change

A role decides whether a nullable type leaves out `undefined`, and nothing else. Two conversions of
one tree in two roles run in parallel: they leave the same log, are refused alike, and their nodes
are the same after `undefined` is deleted from every union (`roles_agree`).
-/

namespace Reannotate

open Reannotate.Flow (Phrase Role)
open Reannotate.TypeScript (Node)

namespace TypeScript

def Node.isUndefined : Node → Bool
  | .keyword name => name = .str "undefined"
  | _ => false

mutual

def Node.withoutUndefined : Node → Node
  | .reference n as => .reference n (withoutUndefinedMany as)
  | .operator o t => .operator o t.withoutUndefined
  | .access o i => .access o.withoutUndefined i.withoutUndefined
  | .array e => .array e.withoutUndefined
  | .group .union ts => .union ((withoutUndefinedEach ts).filter (!·.isUndefined))
  | .group g ts => .group g (withoutUndefinedEach ts)
  | .property k t o r c => .property k (withoutUndefinedMaybe t) o r c
  | .index n k t => .index n (withoutUndefinedMaybe k) (withoutUndefinedMaybe t)
  | .object ms => .object (withoutUndefinedEach ms)
  | .typeParameter n c d => .typeParameter n (withoutUndefinedMaybe c) (withoutUndefinedMaybe d)
  | .parameter n t o => .parameter n (withoutUndefinedMaybe t) o
  | .rest n t => .rest n (withoutUndefinedMaybe t)
  | .function ts ps r =>
    .function (withoutUndefinedMany ts) (withoutUndefinedEach ps) (withoutUndefinedMaybe r)
  | n => n

def withoutUndefinedEach : List Node → List Node
  | [] => []
  | n :: rest => n.withoutUndefined :: withoutUndefinedEach rest

def withoutUndefinedMaybe : Option Node → Option Node
  | none => none
  | some n => some n.withoutUndefined

def withoutUndefinedMany : Option (List Node) → Option (List Node)
  | none => none
  | some ns => some (withoutUndefinedEach ns)

end

end TypeScript

open Reannotate.TypeScript (withoutUndefinedEach withoutUndefinedMaybe)

/-! ## Agreement -/

section
variable {α β γ δ : Type} {same : Prop}

/-- `a` and `b` are one if `same` holds, and have one image under `f` in any case. -/
def Agree (same : Prop) (f : α → β) (a b : α) : Prop :=
  (same → a = b) ∧ f a = f b

theorem agree_refl (f : α → β) (a : α) : Agree same f a a := ⟨fun _ => rfl, rfl⟩

theorem Agree.map {f : α → β} {a b : α} (h : Agree same f a b) {g : α → γ} {f' : γ → δ}
    {g' : β → δ} (hg : ∀ a, f' (g a) = g' (f a)) : Agree same f' (g a) (g b) := by
  refine ⟨fun hs => congrArg g (h.1 hs), ?_⟩
  rw [hg, hg, h.2]

theorem agree_cons {m n : Node} {ms ns : List Node} (h : Agree same Node.withoutUndefined m n)
    (hs : Agree same withoutUndefinedEach ms ns) :
    Agree same withoutUndefinedEach (m :: ms) (n :: ns) := by
  refine ⟨fun hsame => ?_, ?_⟩
  · rw [h.1 hsame, hs.1 hsame]
  · rw [withoutUndefinedEach, withoutUndefinedEach, h.2, hs.2]

theorem agree_group (g : Grouping) {ms ns : List Node} (h : Agree same withoutUndefinedEach ms ns) :
    Agree same Node.withoutUndefined (.group g ms) (.group g ns) := by
  refine ⟨fun hsame => congrArg _ (h.1 hsame), ?_⟩
  cases g <;> simp only [Node.withoutUndefined, h.2]

theorem agree_nullable {r s : Role Bool} {m n : Node}
    (h : Agree (r.allowsAbsence = s.allowsAbsence) Node.withoutUndefined m n) :
    Agree (r.allowsAbsence = s.allowsAbsence) Node.withoutUndefined
      (Converting.nullable m r) (Converting.nullable n s) := by
  have pruned : ∀ (role : Role Bool) (n : Node), (Converting.nullable n role).withoutUndefined =
      .union ([n.withoutUndefined, .null].filter (!·.isUndefined)) := by
    intro role n
    unfold Converting.nullable
    split <;> rfl
  refine ⟨fun hsame => ?_, ?_⟩
  · rw [Converting.nullable, Converting.nullable, h.1 hsame, hsame]
  · rw [pruned, pruned, h.2]

end

/-! ## Two runs -/

inductive Paired {α σ : Type} (R : α → α → Prop) : Except Fault α × σ → Except Fault α × σ → Prop
  | ok {a b : α} {s : σ} (h : R a b) : Paired R (.ok a, s) (.ok b, s)
  | error {e : Fault} {s : σ} : Paired R (.error e, s) (.error e, s)

theorem Paired.of_ok {α σ : Type} {R : α → α → Prop} {x y : Except Fault α × σ} (h : Paired R x y)
    {a b : α} (hx : x.1 = .ok a) (hy : y.1 = .ok b) : R a b := by
  cases h with
  | ok h =>
    cases hx
    cases hy
    exact h
  | error => cases hx

namespace Converting

variable {α β : Type} {R : α → α → Prop} {S : β → β → Prop}

def Parallel (R : α → α → Prop) (c d : Converting α) : Prop :=
  ∀ log, Paired R (c.outcome log) (d.outcome log)

theorem parallel_refl (c : Converting α) (h : ∀ a, R a a) : Parallel R c c := by
  intro log
  rcases c.outcome log with ⟨_ | a, after⟩
  · exact .error
  · exact .ok (h a)

theorem Parallel.bind {c d : Converting α} {f g : α → Converting β} (h : Parallel R c d)
    (hfg : ∀ a b, R a b → Parallel S (f a) (g b)) : Parallel S (c >>= f) (d >>= g) := by
  intro log
  have paired := h log
  rw [outcome_bind, outcome_bind]
  generalize c.outcome log = x at paired ⊢
  generalize d.outcome log = y at paired ⊢
  cases paired with
  | ok hab => exact hfg _ _ hab _
  | error => exact .error

theorem parallel_bind {c : Converting α} {f g : α → Converting β}
    (h : ∀ a, Parallel S (f a) (g a)) : Parallel S (c >>= f) (c >>= g) := by
  have start : Parallel Eq c c := parallel_refl c fun _ => rfl
  refine start.bind fun a b hab => ?_
  rw [hab]
  exact h b

theorem Parallel.then_pure {c d : Converting α} {f g : α → β} (h : Parallel R c d)
    (hfg : ∀ a b, R a b → S (f a) (g b)) : Parallel S (do return f (← c)) (do return g (← d)) :=
  h.bind fun a b hab _ => .ok (hfg a b hab)

/-! ## Trees -/

section
variable {names : Names} {r s : Role Bool}

mutual

theorem parallel_convert (p : Phrase) :
    Parallel (Agree (r.allowsAbsence = s.allowsAbsence) Node.withoutUndefined)
      (convert names p r) (convert names p s) := by
  -- These hand their role on. All other sorts of phrases do not look at it.
  match p with
  | .array _ e => exact (parallel_convert e).then_pure fun _ _ h => h.map fun _ => rfl
  | .group _ g ts => exact (parallel_each ts).then_pure fun _ _ h => agree_group g h
  | .nullable _ t => exact (parallel_convert t).then_pure fun _ _ h => agree_nullable h
  | .typeof _ a => exact (parallel_convert a).then_pure fun _ _ h => h.map fun _ => rfl
  | .callable _ .ofType ps result rest ts =>
    refine parallel_bind fun typeParams => parallel_bind fun used => ?_
    refine parallel_bind fun params => parallel_bind fun last => ?_
    exact (parallel_maybe result).then_pure fun _ _ h => h.map fun _ => rfl
  | .typeName _ | .primitive _ _ | .literal _ _ _ | .generic _ _ _ | .object _ _ _ _ _
  | .property _ _ _ _ _ _ | .spread _ _ | .indexer _ _ _ _ _ | .callProperty _ _ _
  | .typeParameter _ _ _ _ _ | .parameter _ _ _ _ _ | .callable _ (.declared _) _ _ _ _ =>
    exact parallel_refl _ (agree_refl _)

theorem parallel_each (ps : List Phrase) :
    Parallel (Agree (r.allowsAbsence = s.allowsAbsence) withoutUndefinedEach)
      (convertEach names ps r) (convertEach names ps s) := by
  match ps with
  | [] => exact parallel_refl _ (agree_refl _)
  | p :: rest =>
    refine (parallel_convert p).bind fun m n h => ?_
    exact (parallel_each rest).then_pure fun _ _ hs => agree_cons h hs

theorem parallel_maybe (o : Option Phrase) :
    Parallel (Agree (r.allowsAbsence = s.allowsAbsence) withoutUndefinedMaybe)
      (convertMaybe names o r) (convertMaybe names o s) := by
  match o with
  | none => exact parallel_refl _ (agree_refl _)
  | some p => exact (parallel_convert p).then_pure fun _ _ h => h.map fun _ => rfl

end

end

end Converting

theorem Converting.Parallel.paired {α : Type} {R : α → α → Prop} {c d : Converting α}
    (h : Parallel R c d) (report : Report) :
    Paired R (Report.outcome (Report.converting c) report)
      (Report.outcome (Report.converting d) report) := by
  have paired := h .empty
  rw [Report.outcome_converting, Report.outcome_converting]
  generalize c.outcome .empty = x at paired ⊢
  generalize d.outcome .empty = y at paired ⊢
  cases paired with
  | ok hab => exact .ok hab
  | error => exact .error

/-- In any two roles the conversions of a well-kinded tree are refused alike or both succeed. They
leave the same log, and the same report. The nodes are equal if both roles or neither of them allow
absence, and they always are after `undefined` is deleted from every union. -/
theorem roles_agree {names : Names} (answers : names.Answers) {p : Phrase} (hp : p.WellKinded)
    (r s : Role Bool) :
    let R := fun m n : Node => (r.allowsAbsence = s.allowsAbsence → m = n) ∧
      m.withoutUndefined = n.withoutUndefined
    (∀ log, Paired R ((Converting.convert names p r).outcome log)
        ((Converting.convert names p s).outcome log) ∧
      Yields ((Converting.convert names p r).outcome log).1 (fun _ => True) Fault.IsRefusal) ∧
    ∀ report, Paired R (Report.outcome (Report.converting (Converting.convert names p r)) report)
      (Report.outcome (Report.converting (Converting.convert names p s)) report) := by
  intro R
  have parallel : Converting.Parallel R (Converting.convert names p r)
      (Converting.convert names p s) := Converting.parallel_convert p
  refine ⟨fun log => ⟨parallel log, ?_⟩, parallel.paired⟩
  exact ((hp.follows answers r).yields log).mono (fun _ _ => trivial) fun _ he => he

/-- `?(?number => ?{| a?: ?void |})`. -/
def maybes : Phrase :=
  let maybe := Phrase.nullable none
  maybe (.callable none .ofType
    [.parameter none .ofType .null (some (maybe (.primitive none .number))) false]
    (some (maybe (.object none
      [.property none ⟨.str "a", false⟩ (maybe (.primitive none .void)) true none ⟨[], [], []⟩]
      [] [] true))) none none)

theorem roles_agree_maybes : maybes.WellKinded ∧
    ∃ m n, ((Converting.convert .usual maybes (.property true)).outcome .empty).1 = .ok m ∧
      ((Converting.convert .usual maybes (.property false)).outcome .empty).1 = .ok n ∧
      m ≠ n ∧ m.withoutUndefined = n.withoutUndefined := by
  have kinded : maybes.WellKinded := by
    simp [maybes, Phrase.Fits, Json.Textual, Phrase.isParameter, Flow.Comments.Textual]
  have paired := ((roles_agree Names.usual_answers kinded (.property true) (.property false)).1
    .empty).1
  obtain ⟨m, n, left, right⟩ : ∃ m n,
      ((Converting.convert .usual maybes (.property true)).outcome .empty).1 =
        .ok (.union [m, .null]) ∧
      ((Converting.convert .usual maybes (.property false)).outcome .empty).1 =
        .ok (.union [n, .undefined, .null]) := ⟨_, _, rfl, rfl⟩
  refine ⟨kinded, _, _, left, right, ?_, ?_⟩
  · simp [Node.union]
  · exact (paired.of_ok left right).2

end Reannotate
