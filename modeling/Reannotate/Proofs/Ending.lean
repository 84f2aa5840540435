import Mathlib.Data.List.Forall2
import Reannotate.Conversion.Convert

/-!
# How computations end

`Yields` says what is known of a result, and what of a fault. `Converting.Ends` says it of a
conversion whatever its log before; it is put together along the steps of the conversion.
-/

namespace Reannotate

/-- A result of which `ok` holds, or a fault of which `bad` holds. -/
def Yields {α : Type} (x : Except Fault α) (ok : α → Prop) (bad : Fault → Prop) : Prop :=
  match x with
  | .ok a => ok a
  | .error e => bad e

theorem exists_ok {α : Type} {x : Except Fault α} (h : x.toOption.isSome) : ∃ a, x = .ok a := by
  cases x with
  | ok a => exact ⟨a, rfl⟩
  | error e => cases h

theorem exists_of_bind {α β : Type} {x : Except Fault α} {f : α → Except Fault β} {b : β}
    (h : x >>= f = .ok b) : ∃ a, x = .ok a ∧ f a = .ok b := by
  cases x with
  | ok a => exact ⟨a, rfl, h⟩
  | error e => cases h

theorem forall₂_of_mapM {α β : Type} {f : α → Except Fault β} {as : List α} {bs : List β}
    (h : as.mapM f = .ok bs) : List.Forall₂ (fun a b => f a = .ok b) as bs := by
  induction as generalizing bs with
  | nil =>
    cases h
    exact .nil
  | cons a as ih =>
    rw [List.mapM_cons] at h
    obtain ⟨b, hb, h⟩ := exists_of_bind h
    obtain ⟨rest, hrest, h⟩ := exists_of_bind h
    cases h
    exact .cons hb (ih hrest)

theorem eq_of_toScalar {j : Json} {s : Scalar} (h : j.toScalar = .ok s) : j = .scalar s := by
  cases j with
  | scalar t =>
    cases h
    rfl
  | _ => cases h

section
variable {α β : Type} {ok mid : α → Prop} {bad bad' : Fault → Prop}

theorem yields_ok {a : α} : Yields (.ok a) ok bad ↔ ok a := Iff.rfl

theorem yields_self (x : Except Fault α) : Yields x (fun a => x = .ok a) fun _ => True := by
  cases x with
  | ok a => exact yields_ok.2 rfl
  | error e => trivial

theorem Yields.mono {x : Except Fault α} (h : Yields x mid bad) (ho : ∀ a, mid a → ok a)
    (hb : ∀ e, bad e → bad' e) : Yields x ok bad' := by
  cases x with
  | ok a => exact ho a h
  | error e => exact hb e h

theorem Yields.and {ok' : α → Prop} {x : Except Fault α} (h : Yields x ok bad)
    (h' : Yields x ok' bad) : Yields x (fun a => ok a ∧ ok' a) bad := by
  cases x with
  | ok a => exact ⟨h, h'⟩
  | error e => exact h

theorem Yields.bind {x : Except Fault α} {f : α → Except Fault β} {ok : β → Prop}
    (h : Yields x mid bad) (hf : ∀ a, mid a → Yields (f a) ok bad) : Yields (x >>= f) ok bad := by
  cases x with
  | ok a => exact hf a h
  | error e => exact h

theorem Yields.mapM {f : α → Except Fault β} {ok : β → Prop} : ∀ {as : List α},
    (∀ a ∈ as, Yields (f a) ok bad) → Yields (as.mapM f) (fun bs => ∀ b ∈ bs, ok b) bad
  | [], _ => by
    rw [List.mapM_nil]
    exact fun b hb => absurd hb List.not_mem_nil
  | a :: as, h => by
    rw [List.mapM_cons]
    refine (h a List.mem_cons_self).bind fun b hb => ?_
    refine (Yields.mapM fun a ha => h a (List.mem_cons_of_mem _ ha)).bind fun bs hbs => ?_
    exact List.forall_mem_cons.2 ⟨hb, hbs⟩

theorem Yields.mapM_eq {f : α → Except Fault β} {g : α → β} : ∀ {as : List α},
    (∀ a ∈ as, Yields (f a) (fun b => b = g a) bad) →
    Yields (as.mapM f) (fun bs => bs = as.map g) bad
  | [], _ => by
    rw [List.mapM_nil]
    exact yields_ok.2 rfl
  | a :: as, h => by
    rw [List.mapM_cons]
    refine (h a List.mem_cons_self).bind fun b hb => ?_
    refine (Yields.mapM_eq fun a ha => h a (List.mem_cons_of_mem _ ha)).bind fun bs hbs => ?_
    rw [hb, hbs]
    exact yields_ok.2 rfl

theorem Yields.foldlM {f : α → β → Except Fault α} {bs : List β}
    (h : ∀ a, ok a → ∀ b ∈ bs, Yields (f a b) ok bad) {a : α} (ha : ok a) :
    Yields (bs.foldlM f a) ok bad := by
  induction bs generalizing a with
  | nil => exact ha
  | cons b bs ih =>
    rw [List.foldlM_cons]
    exact (h a ha b List.mem_cons_self).bind fun a' ha' =>
      ih (fun a ha b hb => h a ha b (List.mem_cons_of_mem _ hb)) ha'

end

namespace Converting

variable {α β : Type}

theorem outcome_bind (c : Converting α) (f : α → Converting β) (log : Log) :
    (c >>= f).outcome log = match c.outcome log with
      | (.ok a, after) => (f a).outcome after
      | (.error e, after) => (.error e, after) := by
  simp only [outcome, ExceptT.run_bind, StateT.run_bind]
  rcases c.run.run log with ⟨r, after⟩
  cases r <;> rfl

theorem outcome_lift (x : Except Fault α) (log : Log) :
    (liftM x : Converting α).outcome log = (x, log) := by
  cases x <;> rfl

theorem outcome_get (log : Log) : (get : Converting Log).outcome log = (.ok log, log) := rfl

theorem outcome_set (log' log : Log) : (set log' : Converting Unit).outcome log = (.ok (), log') :=
  rfl

theorem outcome_warn (w : Warning) (log : Log) :
    (warn w).outcome log = (.ok (), { log with warnings := log.warnings ++ [w] }) := rfl

theorem outcome_askName (names : Names) (used : List Json) (log : Log) :
    (askName names used).outcome log =
      (names.fresh log.asked used, { log with asked := log.asked ++ [used] }) := by
  cases h : names.fresh log.asked used <;> simp [askName, outcome_bind, outcome_lift, h, outcome_get, outcome_set]

theorem exists_of_outcome_bind {c : Converting α} {f : α → Converting β} {log after : Log} {b : β}
    (h : (c >>= f).outcome log = (.ok b, after)) :
    ∃ a mid, c.outcome log = (.ok a, mid) ∧ (f a).outcome mid = (.ok b, after) := by
  rw [outcome_bind] at h
  split at h
  · exact ⟨_, _, ‹_›, h⟩
  · cases h

theorem exists_of_outcome_lift {x : Except Fault α} {f : α → Converting β} {log after : Log} {b : β}
    (h : ((liftM x : Converting α) >>= f).outcome log = (.ok b, after)) :
    ∃ a, x = .ok a ∧ (f a).outcome log = (.ok b, after) := by
  obtain ⟨a, mid, hx, h⟩ := exists_of_outcome_bind h
  rw [outcome_lift] at hx
  cases hx
  exact ⟨a, rfl, h⟩

def convertParts (names : Names) (ps is cs : List Flow.Phrase) : Converting TypeScript.Node := do
  let members ← convertMembers names ps
  let indexers ← convertIndexers names is
  refuseCalls cs
  return members.assemble indexers

theorem convert_object (names : Names) (s : Option Flow.Span) (ps is cs : List Flow.Phrase)
    (x : Bool) (role : Flow.Role Bool) : convert names (.object s ps is cs x) role =
      if x then (do warn .exactObject; convertParts names ps is cs)
      else convertParts names ps is cs := by
  cases x <;> rfl

/-- Whatever the log before, the conversion has a result of which `ok` holds, or a fault of which
`bad` holds. -/
def Ends (c : Converting α) (ok : α → Prop) (bad : Fault → Prop) : Prop :=
  ∀ log, Yields (c.outcome log).1 ok bad

section
variable {ok mid : α → Prop} {bad bad' : Fault → Prop}

theorem ends_pure {a : α} (h : ok a) : Ends (pure a) ok bad := fun _ => h

theorem ends_throw {e : Fault} (h : bad e) : Ends (throw e : Converting α) ok bad := fun _ => h

theorem ends_lift {x : Except Fault α} (h : Yields x ok bad) : Ends (liftM x) ok bad := by
  intro log
  rw [outcome_lift]
  exact h

theorem Ends.mono {c : Converting α} (h : Ends c mid bad) (ho : ∀ a, mid a → ok a)
    (hb : ∀ e, bad e → bad' e) : Ends c ok bad' :=
  fun log => (h log).mono ho hb

theorem Ends.bind {c : Converting α} {f : α → Converting β} {ok : β → Prop} (h : Ends c mid bad)
    (hf : ∀ a, mid a → Ends (f a) ok bad) : Ends (c >>= f) ok bad := by
  intro log
  have hc := h log
  rw [outcome_bind]
  rcases hr : c.outcome log with ⟨r, after⟩
  rw [hr] at hc
  cases r with
  | ok a => exact hf a hc after
  | error e => exact hc

theorem Ends.result {c : Converting α} (h : Ends c ok bad) {log : Log} {a : α}
    (ha : (c.outcome log).1 = .ok a) : ok a := by
  have hc := h log
  rw [ha] at hc
  exact hc

theorem ends_warn {w : Warning} : Ends (warn w) (fun _ => True) bad := fun _ => trivial

end

def Gives (c : Converting α) (ok : α → Prop) : Prop :=
  ∃ a, (∀ log, c.outcome log = (.ok a, log)) ∧ ok a

section
variable {ok mid : α → Prop}

theorem gives_pure {a : α} (h : ok a) : Gives (pure a) ok := ⟨a, fun _ => rfl, h⟩

theorem gives_lift {x : Except Fault α} {a : α} (hx : x = .ok a) (h : ok a) : Gives (liftM x) ok :=
  ⟨a, fun log => by rw [outcome_lift, hx], h⟩

theorem Gives.bind {c : Converting α} {f : α → Converting β} {ok : β → Prop} (h : Gives c mid)
    (hf : ∀ a, mid a → Gives (f a) ok) : Gives (c >>= f) ok := by
  obtain ⟨a, hc, ha⟩ := h
  obtain ⟨b, hb, hok⟩ := hf a ha
  refine ⟨b, fun log => ?_, hok⟩
  rw [outcome_bind, hc]
  exact hb log

end

end Converting

end Reannotate
