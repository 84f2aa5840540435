import Reannotate.Report.Basic

/-!
# What operations do to a report
-/

namespace Reannotate.Report

variable {α β : Type}

theorem outcome_bind (c : Reporting α) (f : α → Reporting β) (r : Report) :
    outcome (c >>= f) r = match outcome c r with
      | (.ok a, after) => outcome (f a) after
      | (.error e, after) => (.error e, after) := by
  simp only [outcome, ExceptT.run_bind, StateT.run_bind]
  rcases c.run.run r with ⟨x, after⟩
  cases x <;> rfl

theorem outcome_lift (x : Except Fault α) (r : Report) :
    outcome (liftM x : Reporting α) r = (x, r) := by
  cases x <;> rfl

theorem outcome_info (args : List Json) (r : Report) : outcome (info args) r =
    (.ok (), { r with
      console := if r.verbose then r.console ++ [Text.join " " (args.map Json.plain)]
        else r.console }) := by
  have run : outcome (info args) r =
      outcome (if r.verbose then say (Text.join " " (args.map Json.plain)) else pure ()) r := rfl
  by_cases hv : r.verbose = true
  · rw [run, if_pos hv, if_pos hv]
    rfl
  · rw [run, if_neg hv, if_neg hv]
    rfl

/-! ## Warnings -/

/-- The report with a message that was news; a verbose one tells it at once. -/
def heard (r : Report) (s : Text) : Report :=
  { r with
    warnings := r.warnings ++ [.str s]
    given := .str s :: r.given
    console := if r.verbose then r.console ++ [Text.join " " ["Warning:", s]] else r.console }

theorem any_alike_iff {s : Text} {ss : List Scalar} :
    ss.any ((Scalar.str s).alike ·) = true ↔ .str s ∈ ss := by
  simp [List.any_eq_true, Scalar.str_alike_iff]

theorem outcome_warn (s : Text) (r : Report) : outcome (warn (.str s)) r =
    if .str s ∈ r.given then (.ok false, r) else (.ok true, r.heard s) := by
  have run : outcome (warn (.str s)) r =
      outcome (if r.given.any ((Scalar.str s).alike ·) then pure false else do
        modify fun r => { r with given := .str s :: r.given, warnings := r.warnings ++ [.str s] }
        info [.str "Warning:", .str s]
        return true) r := rfl
  have told : outcome (do
        modify fun r => { r with given := .str s :: r.given, warnings := r.warnings ++ [.str s] }
        info [.str "Warning:", .str s]
        return true) r = outcome (do
        info [.str "Warning:", .str s]
        return true) { r with given := .str s :: r.given, warnings := r.warnings ++ [.str s] } := rfl
  by_cases h : Scalar.str s ∈ r.given
  · rw [run, if_pos (any_alike_iff.2 h), if_pos h]
    rfl
  · rw [run, if_neg (mt any_alike_iff.1 h), if_neg h, told, outcome_bind, outcome_info]
    rfl

/-- From `r` the operations end with `x`, and they change nothing but warnings and the console. -/
def Chats (c : Reporting α) (r : Report) (x : Except Fault α) : Prop :=
  ∃ warnings given console,
    outcome c r = (x, { r with warnings := warnings, given := given, console := console })

theorem chats_pure (a : α) (r : Report) : Chats (pure a) r (.ok a) := ⟨_, _, _, rfl⟩

theorem chats_lift (x : Except Fault α) (r : Report) : Chats (liftM x) r x :=
  ⟨_, _, _, outcome_lift x r⟩

theorem Chats.bind {c : Reporting α} {f : α → Reporting β} {r : Report} {a : α} {x : Except Fault β}
    (h : Chats c r (.ok a))
    (hf : ∀ warnings given console,
      Chats (f a) { r with warnings := warnings, given := given, console := console } x) :
    Chats (c >>= f) r x := by
  obtain ⟨warnings, given, console, hc⟩ := h
  obtain ⟨warnings', given', console', ha⟩ := hf warnings given console
  refine ⟨warnings', given', console', ?_⟩
  rw [outcome_bind, hc]
  exact ha

theorem chats_say (line : Text) (r : Report) : Chats (say line) r (.ok ()) := ⟨_, _, _, rfl⟩

theorem chats_info (args : List Json) (r : Report) : Chats (info args) r (.ok ()) := by
  refine Chats.bind (a := r) ⟨_, _, _, rfl⟩ fun warnings given console => ?_
  split
  · exact chats_say _ _
  · exact chats_pure _ _

theorem chats_warn (s : Text) (r : Report) : ∃ news, Chats (warn (.str s)) r (.ok news) := by
  unfold Chats
  rw [outcome_warn]
  split
  · exact ⟨false, _, _, _, rfl⟩
  · exact ⟨true, _, _, _, rfl⟩

theorem chats_forIn {as : List α} {f : α → PUnit → Reporting (ForInStep PUnit)}
    (h : ∀ a ∈ as, ∀ r, Chats (f a ⟨⟩) r (.ok (.yield ⟨⟩))) (r : Report) :
    Chats (forIn as ⟨⟩ f) r (.ok ⟨⟩) := by
  induction as generalizing r with
  | nil => exact chats_pure _ _
  | cons a as ih =>
    rw [List.forIn_cons]
    refine (h a List.mem_cons_self r).bind fun warnings given console => ?_
    exact ih (fun a ha => h a (List.mem_cons_of_mem _ ha)) _

theorem chats_converting (c : Converting α) (r : Report) :
    Chats (converting c) r (c.outcome .empty).1 := by
  unfold converting
  rcases c.outcome .empty with ⟨result, log⟩
  refine (chats_forIn (fun w _ r => ?_) r).bind fun _ _ _ => chats_lift _ _
  obtain ⟨news, h⟩ := chats_warn w.text r
  exact h.bind fun _ _ _ => chats_pure _ _

/-! ## Issues -/

def Tellable (source : Option Text) (is : List Issue) : Prop :=
  ∀ i ∈ is, ∃ text, textOf source i = .ok text

theorem chats_sayIssues : ∀ (is : List Issue) (r : Report), Tellable r.source is →
    Chats (sayIssues is) r (.ok ())
  | [], r, _ => chats_pure _ _
  | i :: is, r, h => by
    obtain ⟨text, htext⟩ := h i List.mem_cons_self
    refine (chats_say _ _).bind fun _ _ _ => ?_
    refine Chats.bind (a := _) ⟨_, _, _, rfl⟩ fun _ _ _ => ?_
    refine Chats.bind (a := text) ?_ fun _ _ _ => ?_
    · rw [← htext]
      exact chats_lift _ _
    · refine (chats_say _ _).bind fun _ _ _ => ?_
      exact chats_sayIssues is _ fun i hi => h i (List.mem_cons_of_mem _ hi)

theorem chats_sayAll (draw : Nat) (r : Report) (h : Tellable r.source r.issues) :
    Chats (sayAll draw) r (.ok ()) := by
  refine Chats.bind (a := r) ⟨_, _, _, rfl⟩ fun _ _ _ => ?_
  refine (chats_forIn (fun w _ r => ?_) _).bind fun _ _ _ => ?_
  · exact (chats_say _ _).bind fun _ _ _ => chats_pure _ _
  split
  · refine (chats_say _ _).bind fun _ _ _ => (chats_say _ _).bind fun _ _ _ => ?_
    exact chats_sayIssues _ _ h
  · exact chats_sayIssues _ _ h

/-- From `r` the operations end with `x` after they have added the issues to the report, and they
change nothing else but warnings and the console. -/
def Adds (c : Reporting α) (r : Report) (x : Except Fault α) (is : List Issue) : Prop :=
  ∃ warnings given console, outcome c r =
    (x, { r with warnings := warnings, given := given, console := console, issues := r.issues ++ is })

theorem Chats.adds {c : Reporting α} {r : Report} {x : Except Fault α} (h : Chats c r x) :
    Adds c r x [] := by
  obtain ⟨warnings, given, console, hc⟩ := h
  exact ⟨warnings, given, console, by rw [hc, List.append_nil]⟩

theorem Adds.bind {c : Reporting α} {f : α → Reporting β} {r : Report} {a : α} {x : Except Fault β}
    {is is' : List Issue} (h : Adds c r (.ok a) is)
    (hf : ∀ warnings given console, Adds (f a)
      { r with warnings := warnings, given := given, console := console, issues := r.issues ++ is } x is') :
    Adds (c >>= f) r x (is ++ is') := by
  obtain ⟨warnings, given, console, hc⟩ := h
  obtain ⟨warnings', given', console', ha⟩ := hf warnings given console
  refine ⟨warnings', given', console', ?_⟩
  rw [outcome_bind, hc, ← List.append_assoc]
  exact ha

theorem Adds.bind_nil {c : Reporting α} {f : α → Reporting β} {r : Report} {a : α}
    {x : Except Fault β} {is : List Issue} (h : Adds c r (.ok a) [])
    (hf : ∀ warnings given console,
      Adds (f a) { r with warnings := warnings, given := given, console := console } x is) :
    Adds (c >>= f) r x is := by
  have bound : Adds (c >>= f) r x ([] ++ is) := by
    refine h.bind fun warnings given console => ?_
    rw [List.append_nil]
    exact hf warnings given console
  exact bound

theorem Adds.then_pure {c : Reporting α} {r : Report} {a : α} {is : List Issue}
    (h : Adds c r (.ok a) is) (f : α → β) : Adds (do return f (← c)) r (.ok (f a)) is := by
  have mapped : Adds (do return f (← c)) r (.ok (f a)) (is ++ []) :=
    h.bind fun _ _ _ => (chats_pure (f a) _).adds
  rwa [List.append_nil] at mapped

theorem Adds.bind_error {c : Reporting α} {f : α → Reporting β} {r : Report} {e : Fault}
    {is : List Issue} (h : Adds c r (.error e) is) : Adds (c >>= f) r (.error e) is := by
  obtain ⟨warnings, given, console, hc⟩ := h
  refine ⟨warnings, given, console, ?_⟩
  rw [outcome_bind, hc]

theorem adds_issue {i : Issue} {r : Report} (h : r.limit ≠ some ((r.issues.length + 1 : Nat) : Int)) :
    Adds (issue i) r (.ok ()) [i] := by
  have issued : outcome (issue i) r = outcome (
      if r.limit = some ((r.issues ++ [i]).length : Int) then throw .tooManyIssues else pure ())
      { r with issues := r.issues ++ [i] } := rfl
  rw [List.length_append, List.length_singleton, if_neg h] at issued
  exact ⟨_, _, _, issued⟩

theorem adds_issue_tooMany {i : Issue} {r : Report}
    (h : r.limit = some ((r.issues.length + 1 : Nat) : Int)) :
    Adds (issue i) r (.error .tooManyIssues) [i] := by
  have issued : outcome (issue i) r = outcome (
      if r.limit = some ((r.issues ++ [i]).length : Int) then throw .tooManyIssues else pure ())
      { r with issues := r.issues ++ [i] } := rfl
  rw [List.length_append, List.length_singleton, if_pos h] at issued
  exact ⟨_, _, _, issued⟩

end Reannotate.Report
