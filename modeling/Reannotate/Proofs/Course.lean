import Reannotate.Proofs.Refusal

/-!
# The course of a conversion

`Phrase.course` tells from a tree alone which warnings its conversion gives, in order, and whether
it is stopped by a refusal; the warnings up to that point are part of the course. What is not looked
at adds nothing: calls of an object, a rest parameter without a name. Type arguments that a utility
type drops are looked at all the same.

`Follows` says that a conversion takes a course and what is known of its result. It is put together
along the steps of the conversion, as courses are along the tree.
-/

namespace Reannotate

open Reannotate.Flow (Phrase TypeName)

structure Course where
  warnings : List Warning
  stopped : Bool
  deriving DecidableEq

namespace Course

def quiet : Course := ⟨[], false⟩

def stop : Course := ⟨[], true⟩

def warns (w : Warning) : Course := ⟨[w], false⟩

def andThen (k l : Course) : Course :=
  if k.stopped then k else ⟨k.warnings ++ l.warnings, l.stopped⟩

theorem andThen_quiet (k : Course) : k.andThen quiet = k := by
  obtain ⟨ws, stopped⟩ := k
  cases stopped <;> simp [andThen, quiet]

theorem andThen_assoc (k l m : Course) : (k.andThen l).andThen m = k.andThen (l.andThen m) := by
  by_cases hk : k.stopped = true
  · simp [andThen, hk]
  · by_cases hl : l.stopped = true
    · simp [andThen, hk, hl]
    · simp [andThen, hk, hl]

end Course

/-! ## Courses of trees -/

def Utility.accepts (u : Utility) (count : Nat) : Bool :=
  u != .rest && u.arity.all (· == count)

def Utility.course (u : Utility) (count : Nat) : Course :=
  if u.accepts count then if u = .exact then .warns .exactObject else .quiet
  else .stop

def Names.places (names : Names) (name : Text) : Bool :=
  match names.resolve name with
  | .ok resolved => (Converting.dotted resolved).length ≤ 2
  | .error _ => false

def Flow.TypeName.course (names : Names) (id : TypeName) (count : Nat) : Course :=
  match id with
  | .plain _ name =>
    match Utility.ofName? name with
    | some u => u.course count
    | none => if names.places name then .quiet else .stop
  | .qualified _ q _ => if q.depth = 0 then .quiet else .stop

namespace Flow

mutual

def Phrase.course (names : Names) : Phrase → Course
  | .primitive _ .exists => .warns .existential
  | .primitive _ _ | .literal _ _ _ => .quiet
  | .array _ e => e.course names
  | .group _ _ ts => courseEach names ts
  | .nullable _ t => t.course names
  | .typeof _ a => a.course names
  | .generic _ id none => id.course names 0
  | .generic _ id (some as) => (courseEach names as).andThen (id.course names as.length)
  | .object _ ps is cs x =>
    (if x then .warns .exactObject else .quiet : Course).andThen <|
      (courseParts names Phrase.isMember ps).andThen <|
        (courseParts names Phrase.isIndexer is).andThen (if cs.isEmpty then .quiet else .stop)
  | .callable _ .ofType ps r rest ts =>
    (courseTypeParams names ts).andThen <| (courseParts names Phrase.isParameter ps).andThen <|
      (courseRest names rest).andThen (courseMaybe names r)
  | _ => .stop

def courseEach (names : Names) : List Phrase → Course
  | [] => .quiet
  | p :: rest => (p.course names).andThen (courseEach names rest)

def courseMaybe (names : Names) : Option Phrase → Course
  | none => .quiet
  | some p => p.course names

def courseParts (names : Names) (fits : Phrase → Bool) : List Phrase → Course
  | [] => .quiet
  | p :: rest =>
    if fits p then (p.partCourse names).andThen (courseParts names fits rest) else .stop

def Phrase.partCourse (names : Names) : Phrase → Course
  | .property _ _ v _ _ _ => v.course names
  | .spread _ a => a.course names
  | .indexer _ _ k v _ => (k.course names).andThen (v.course names)
  | .typeParameter _ _ b d _ => (courseMaybe names b).andThen (courseMaybe names d)
  | .parameter _ _ _ t _ => courseMaybe names t
  | _ => .stop

def courseRest (names : Names) : Option Phrase → Course
  | none => .quiet
  | some (.parameter _ _ n t _) => if n.isNull then .quiet else courseMaybe names t
  | some _ => .stop

def courseTypeParams (names : Names) : Option (List Phrase) → Course
  | none => .quiet
  | some ps => courseParts names Phrase.isTypeParameter ps

end

theorem courseParts_cons {names : Names} {fits : Phrase → Bool} {p : Phrase} (h : fits p = true)
    (rest : List Phrase) : courseParts names fits (p :: rest) =
      (p.partCourse names).andThen (courseParts names fits rest) := by
  rw [courseParts, if_pos h]

theorem courseParts_stop {names : Names} {fits : Phrase → Bool} {p : Phrase} (h : fits p = false)
    (rest : List Phrase) : courseParts names fits (p :: rest) = .stop := by
  rw [courseParts, h, if_neg Bool.false_ne_true]

end Flow

/-! ## Following a course -/

def Fault.IsRefusal (e : Fault) : Prop :=
  ∃ r, e = .refused r

namespace Converting

variable {α β : Type}

/-- From any log, the warnings of the course are added, and the conversion ends with a refusal if
the course is stopped and with a result of which `ok` holds if it is not. -/
def Follows (c : Converting α) (k : Course) (ok : α → Prop) : Prop :=
  ∀ log, (c.outcome log).2.warnings = log.warnings ++ k.warnings ∧
    Yields (c.outcome log).1 (fun a => k.stopped = false ∧ ok a)
      fun e => k.stopped = true ∧ e.IsRefusal

section
variable {k l : Course} {ok mid : α → Prop}

theorem follows_pure {a : α} (h : ok a) : Follows (pure a) .quiet ok :=
  fun _ => ⟨(List.append_nil _).symm, rfl, h⟩

theorem follows_refused {r : Refusal} : Follows (throw (.refused r) : Converting α) .stop ok :=
  fun _ => ⟨(List.append_nil _).symm, rfl, r, rfl⟩

theorem follows_lift {x : Except Fault α} (h : Yields x ok fun _ => False) :
    Follows (liftM x) .quiet ok := by
  intro log
  rw [outcome_lift]
  exact ⟨(List.append_nil _).symm, h.mono (fun _ ha => ⟨rfl, ha⟩) fun _ he => he.elim⟩

theorem follows_warn {ok : Unit → Prop} {w : Warning} (h : ok ()) :
    Follows (warn w) (.warns w) ok :=
  fun _ => ⟨rfl, rfl, h⟩

theorem Follows.mono {c : Converting α} (h : Follows c k mid) (ho : ∀ a, mid a → ok a) :
    Follows c k ok :=
  fun log => ⟨(h log).1, (h log).2.mono (fun a ha => ⟨ha.1, ho a ha.2⟩) fun _ he => he⟩

theorem Follows.yields {c : Converting α} (h : Follows c k ok) (log : Log) :
    Yields (c.outcome log).1 ok Fault.IsRefusal :=
  (h log).2.mono (fun _ ha => ha.2) fun _ he => he.2

theorem Follows.bind {c : Converting α} {f : α → Converting β} {ok : β → Prop}
    (h : Follows c k mid) (hf : ∀ a, mid a → Follows (f a) l ok) :
    Follows (c >>= f) (k.andThen l) ok := by
  intro log
  have ⟨hw, hy⟩ := h log
  rw [outcome_bind]
  rcases hc : c.outcome log with ⟨x, after⟩
  rw [hc] at hw hy
  cases x with
  | error e =>
    have ⟨hstop, href⟩ := hy
    have stays : k.andThen l = k := if_pos hstop
    rw [stays]
    exact ⟨hw, hstop, href⟩
  | ok a =>
    have ⟨hgo, ha⟩ := hy
    have ⟨hw', hy'⟩ := hf a ha after
    have goes : k.andThen l = ⟨k.warnings ++ l.warnings, l.stopped⟩ := by simp [Course.andThen, hgo]
    rw [goes]
    refine ⟨?_, hy'⟩
    rw [hw', hw, List.append_assoc]

theorem Follows.quiet_bind {c : Converting α} {f : α → Converting β} {ok : β → Prop}
    (h : Follows c .quiet mid) (hf : ∀ a, mid a → Follows (f a) l ok) : Follows (c >>= f) l ok :=
  h.bind hf

theorem Follows.then_pure {c : Converting α} {f : α → β} {ok : β → Prop} (h : Follows c k mid)
    (hf : ∀ a, mid a → ok (f a)) : Follows (do return f (← c)) k ok := by
  have bound : Follows (do return f (← c)) (k.andThen .quiet) ok :=
    h.bind fun a ha => follows_pure (hf a ha)
  rwa [Course.andThen_quiet] at bound

end

end Converting

end Reannotate
