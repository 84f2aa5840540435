import Mathlib.Data.List.DropRight
import Reannotate.Proofs.Warnings

/-!
# The books of a report

`performAll` lets a report go through any sequence of operations, whether they raise or not. What
the report holds afterwards is told by the operations since the last reset alone
(`holds_performAll`): each message once, and every issue, also one at whose recording the limit was
met. The answers to further operations follow from that (`run_keeps_books`).
-/

namespace Reannotate.Report

open Reannotate.Flow (Phrase Role)
open Reannotate.TypeScript (Node)

inductive Operation
  | warn (message : Text)
  | info (args : List Json)
  | issue (i : Issue)
  | failed (refusal : Refusal) (caption : Text)
  | unsupported (refusal : Refusal)
  | reset
  | complain (draw : Nat)
  | requireClean (draw : Nat) (message : Json)
  /-- Of a type in a role, of a signature or of any part, whatever the names. -/
  | convert (c : Converting Node)

inductive Answer
  | done
  | news (isNews : Bool)
  | node (n : Node)

namespace Operation

def perform : Operation → Reporting Answer
  | .warn message => do return .news (← Report.warn (.str message))
  | .info args => do
    Report.info args
    return .done
  | .issue i => do
    Report.issue i
    return .done
  | .failed refusal caption => do
    recordRefusal refusal caption
    return .done
  | .unsupported refusal => do
    refuse refusal
    return .done
  | .reset => do
    Report.reset
    return .done
  | .complain draw => do
    sayAll draw
    return .done
  | .requireClean draw message => do
    Report.requireClean draw message
    return .done
  | .convert c => do return .node (← converting c)

def isReset : Operation → Bool
  | .reset => true
  | _ => false

def mentions : Operation → List Text
  | .warn message => [message]
  | .convert c => (c.outcome .empty).2.warnings.map fun w => w.text
  | _ => []

def records : Operation → Option Issue
  | .issue i => some i
  | .failed refusal caption => some {
      intro := "Could not translate " ++ refusal.kind.plain ++ ". " ++ refusal.message.plain
      subject := refusal.subject
      caption := caption }
  | _ => none

end Operation

def performAll : List Operation → Report → List (Except Fault Answer) × Report
  | [], r => ([], r)
  | op :: ops, r =>
    let (x, mid) := outcome op.perform r
    let (xs, after) := performAll ops mid
    (x :: xs, after)

def sinceReset (ops : List Operation) : List Operation :=
  ops.rtakeWhile fun op => !op.isReset

/-- The messages since the last reset, as often as they were given. -/
def mentioned (ops : List Operation) : List Text :=
  (sinceReset ops).flatMap Operation.mentions

def recorded (ops : List Operation) : List Issue :=
  (sinceReset ops).filterMap Operation.records

theorem performAll_append (ops ops' : List Operation) (r : Report) :
    performAll (ops ++ ops') r = ((performAll ops r).1 ++ (performAll ops' (performAll ops r).2).1,
      (performAll ops' (performAll ops r).2).2) := by
  induction ops generalizing r with
  | nil => rfl
  | cons op ops ih => simp only [List.cons_append, performAll, ih]

theorem sinceReset_concat (ops : List Operation) (op : Operation) :
    sinceReset (ops ++ [op]) = if op.isReset then [] else sinceReset ops ++ [op] := by
  rw [sinceReset, List.rtakeWhile_concat]
  cases op.isReset <;> rfl

/-! ## Operations that only talk -/

section
variable {α β : Type}

def Talks (c : Reporting α) : Prop :=
  ∀ r, ∃ x console, outcome c r = (x, { r with console := console })

theorem talks_lift (x : Except Fault α) : Talks (liftM x) := fun r => ⟨x, _, outcome_lift x r⟩

theorem talks_get : Talks get := fun _ => ⟨_, _, rfl⟩

theorem talks_say (line : Text) : Talks (say line) := fun _ => ⟨_, _, rfl⟩

theorem Talks.bind {c : Reporting α} {f : α → Reporting β} (h : Talks c) (hf : ∀ a, Talks (f a)) :
    Talks (c >>= f) := by
  intro r
  obtain ⟨x, console, hc⟩ := h r
  cases x with
  | error e => exact ⟨.error e, console, by rw [outcome_bind, hc]⟩
  | ok a =>
    obtain ⟨y, console', ha⟩ := hf a { r with console := console }
    exact ⟨y, console', by rw [outcome_bind, hc]; exact ha⟩

theorem talks_info (args : List Json) : Talks (info args) :=
  fun r => ⟨_, _, outcome_info args r⟩

theorem talks_sayIssues : ∀ is : List Issue, Talks (sayIssues is)
  | [] => talks_lift (.ok ())
  | _ :: is =>
    (talks_say _).bind fun _ => talks_get.bind fun _ => (talks_lift _).bind fun _ =>
      (talks_say _).bind fun _ => talks_sayIssues is

theorem talks_sayWarnings (ws : List Scalar) : Talks (forIn ws () fun w _ => do
    say ("Warning: " ++ w.plain)
    return .yield ()) := by
  induction ws with
  | nil => exact talks_lift (.ok ())
  | cons w ws ih =>
    rw [List.forIn_cons]
    refine ((talks_say _).bind fun _ => talks_lift (.ok _)).bind fun step => ?_
    cases step with
    | done _ => exact talks_lift (.ok ())
    | yield _ => exact ih

theorem talks_sayAll (draw : Nat) : Talks (sayAll draw) := by
  refine talks_get.bind fun r => (talks_sayWarnings r.warnings).bind fun _ => ?_
  split
  · exact (talks_say _).bind fun _ => (talks_say _).bind fun _ => talks_sayIssues _
  · exact talks_sayIssues _

theorem outcome_requireClean (draw : Nat) (message : Json) (r : Report) :
    ∃ x console, outcome (requireClean draw message) r = (x, { r with console := console }) ∧
      ((∃ e, x = .error e) ↔ r.hasIssues = true) := by
  have start : outcome (get : Reporting Report) r = (.ok r, r) := rfl
  unfold requireClean
  rw [outcome_bind, start]
  by_cases h : r.hasIssues = true
  · obtain ⟨x, console, said⟩ := talks_sayAll draw r
    simp only [if_pos h]
    rw [outcome_bind, said]
    cases x with
    | error e => exact ⟨_, console, rfl, by simp [h]⟩
    | ok _ => cases message.text? <;> exact ⟨_, console, rfl, by simp [h]⟩
  · simp only [if_neg h]
    refine ⟨_, _, rfl, ?_⟩
    simp [h]

theorem talks_requireClean (draw : Nat) (message : Json) : Talks (requireClean draw message) := by
  intro r
  obtain ⟨x, console, run, -⟩ := outcome_requireClean draw message r
  exact ⟨x, console, run⟩

end

/-! ## Single operations -/

theorem outcome_return {α β : Type} (c : Reporting α) (f : α → β) (r : Report) :
    outcome (do return f (← c)) r = ((outcome c r).1.map f, (outcome c r).2) := by
  rw [outcome_bind]
  rcases outcome c r with ⟨x, after⟩
  cases x <;> rfl

theorem outcome_issue (i : Issue) (r : Report) : outcome (issue i) r =
    (if r.limit = some ((r.issues.length + 1 : Nat) : Int) then .error .tooManyIssues else .ok (),
      { r with issues := r.issues ++ [i] }) := by
  have run : outcome (issue i) r = outcome (
      if r.limit = some ((r.issues ++ [i]).length : Int) then throw .tooManyIssues else pure ())
      { r with issues := r.issues ++ [i] } := rfl
  rw [run, List.length_append, List.length_singleton]
  split <;> rfl

theorem outcome_records {op : Operation} {i : Issue} (h : op.records = some i) (r : Report) :
    outcome op.perform r =
      (if r.limit = some ((r.issues.length + 1 : Nat) : Int) then .error .tooManyIssues
        else .ok .done, { r with issues := r.issues ++ [i] }) := by
  have recording : ∀ i, outcome (do
      issue i
      return Answer.done) r = (if r.limit = some ((r.issues.length + 1 : Nat) : Int)
        then .error .tooManyIssues else .ok .done, { r with issues := r.issues ++ [i] }) := by
    intro i
    rw [outcome_return _ fun _ => Answer.done, outcome_issue]
    split <;> rfl
  cases op with
  | issue j =>
    cases h
    exact recording _
  | failed refusal caption =>
    cases h
    exact recording _
  | _ => cases h

theorem outcome_converting_warn {α : Type} (c : Converting α) (r : Report) :
    outcome (converting c) r = ((c.outcome .empty).1,
      (performAll ((c.outcome .empty).2.warnings.map fun w => .warn w.text) r).2) := by
  have each : ∀ (ws : List Warning) (r : Report), outcome (forIn ws () fun w _ => do
      let _ ← warn (.str w.text)
      return .yield ()) r = (.ok (), (performAll (ws.map fun w => .warn w.text) r).2) := by
    intro ws
    induction ws with
    | nil => intro r; rfl
    | cons w ws ih =>
      intro r
      obtain ⟨news, warnings, given, console, warned⟩ := chats_warn w.text r
      rw [List.forIn_cons, outcome_bind, outcome_bind, warned, List.map_cons, performAll,
        Operation.perform, outcome_return, warned]
      exact ih _
  unfold converting
  rcases c.outcome .empty with ⟨result, log⟩
  rw [outcome_bind, each]
  exact outcome_lift result _

/-! ## The list of warnings and the set of messages given -/

/-- The set of the messages given has the messages that the list of warnings has. -/
def InStep (r : Report) : Prop :=
  ∀ message, message ∈ r.given ↔ message ∈ r.warnings

theorem inStep_start (verbose : Bool) (limit : Option Int) (source : Option Text) :
    (start verbose limit source).InStep :=
  fun _ => Iff.rfl

section
variable {r : Report}

theorem InStep.warn (h : r.InStep) (s : Text) : (outcome (warn (.str s)) r).2.InStep := by
  rw [outcome_warn]
  split
  · exact h
  · intro message
    simp [heard, h message, or_comm]

theorem InStep.warnAll (h : r.InStep) (ms : List Text) :
    (performAll (ms.map .warn) r).2.InStep := by
  induction ms generalizing r with
  | nil => exact h
  | cons m ms ih =>
    rw [List.map_cons, performAll, Operation.perform, outcome_return]
    exact ih (h.warn m)

theorem InStep.perform (h : r.InStep) (op : Operation) : (outcome op.perform r).2.InStep := by
  have talked : ∀ {c : Reporting Unit}, Talks c →
      (outcome (do return (fun _ => Answer.done) (← c)) r).2.InStep := by
    intro c talks
    obtain ⟨x, console, run⟩ := talks r
    rw [outcome_return, run]
    exact h
  have recording : ∀ {i}, op.records = some i → (outcome op.perform r).2.InStep := by
    intro i records
    rw [outcome_records records]
    exact h
  cases op with
  | warn message =>
    rw [Operation.perform, outcome_return]
    exact h.warn message
  | info args => exact talked (talks_info args)
  | issue i => exact recording rfl
  | failed refusal caption => exact recording rfl
  | unsupported refusal => exact talked (talks_lift (.error (.refused refusal)))
  | reset => exact fun _ => Iff.rfl
  | complain draw => exact talked (talks_sayAll draw)
  | requireClean draw message => exact talked (talks_requireClean draw message)
  | convert c =>
    rw [Operation.perform, outcome_return, outcome_converting_warn]
    simpa [Function.comp_def] using
      h.warnAll ((c.outcome .empty).2.warnings.map fun w => Text.ofString w.text)

theorem InStep.performAll (h : r.InStep) (ops : List Operation) :
    (performAll ops r).2.InStep := by
  induction ops generalizing r with
  | nil => exact h
  | cons op ops ih => exact ih (h.perform op)

end

/-! ## What a report holds -/

/-- The report holds the issues and each of the messages once. It is `first` apart from that and
from its console. -/
def Holds (first : Report) (messages : List Text) (issues : List Issue) (r : Report) : Prop :=
  ∃ given console, r = { first with
    warnings := messages.eraseDups.map .str, given := given, issues := issues, console := console }

section
variable {first r : Report} {messages : List Text} {issues : List Issue}

theorem Holds.warnings_eq (h : Holds first messages issues r) :
    r.warnings = messages.eraseDups.map .str := by
  obtain ⟨given, console, rfl⟩ := h
  rfl

theorem Holds.issues_eq (h : Holds first messages issues r) : r.issues = issues := by
  obtain ⟨given, console, rfl⟩ := h
  rfl

theorem Holds.limit_eq (h : Holds first messages issues r) : r.limit = first.limit := by
  obtain ⟨given, console, rfl⟩ := h
  rfl

theorem Holds.with_console (h : Holds first messages issues r) (console : List Text) :
    Holds first messages issues { r with console := console } := by
  obtain ⟨given, _, rfl⟩ := h
  exact ⟨given, console, rfl⟩

theorem Holds.mem_given (h : Holds first messages issues r) (step : r.InStep) {message : Text} :
    Scalar.str message ∈ r.given ↔ message ∈ messages := by
  rw [step, h.warnings_eq]
  simp

theorem Holds.warn (h : Holds first messages issues r) (step : r.InStep) (message : Text) :
    ∃ after, outcome (warn (.str message)) r = (.ok (message ∉ messages), after) ∧
      Holds first (messages ++ [message]) issues after := by
  rw [outcome_warn]
  by_cases known : message ∈ messages
  · have same : (messages ++ [message]).eraseDups = messages.eraseDups := by
      simp [List.eraseDups_append, List.removeAll, known]
    rw [if_pos ((h.mem_given step).2 known)]
    exact ⟨r, by simp [known], by rwa [Holds, same]⟩
  · have grown : (messages ++ [message]).eraseDups = messages.eraseDups ++ [message] := by
      simp [List.eraseDups_append, List.removeAll, List.eraseDups_cons, known]
    rw [if_neg (mt (h.mem_given step).1 known)]
    refine ⟨r.heard message, by simp [known], ?_⟩
    obtain ⟨given, console, rfl⟩ := h
    exact ⟨_, _, by rw [grown, List.map_append]; rfl⟩

theorem Holds.warnAll (h : Holds first messages issues r) (step : r.InStep) (ms : List Text) :
    Holds first (messages ++ ms) issues (performAll (ms.map .warn) r).2 := by
  induction ms generalizing messages r with
  | nil => simpa [performAll] using h
  | cons m ms ih =>
    obtain ⟨after, warned, holds⟩ := h.warn step m
    have step := step.warn m
    rw [warned] at step
    rw [List.map_cons, performAll, Operation.perform, outcome_return, warned]
    simpa using ih holds step

theorem Holds.converting {α : Type} (h : Holds first messages issues r) (step : r.InStep)
    (c : Converting α) :
    Holds first (messages ++ (c.outcome .empty).2.warnings.map fun w => Text.ofString w.text) issues
      (outcome (Report.converting c) r).2 := by
  rw [outcome_converting_warn]
  simpa [Function.comp_def] using h.warnAll step
    ((c.outcome .empty).2.warnings.map fun w => Text.ofString w.text)

theorem Holds.perform (h : Holds first messages issues r) (step : r.InStep) {op : Operation}
    (keeps : op.isReset = false) :
    Holds first (messages ++ op.mentions) (issues ++ op.records.toList)
      (outcome op.perform r).2 := by
  have talked : ∀ {c : Reporting Unit}, Talks c → Holds first (messages ++ []) (issues ++ [])
      (outcome (do return (fun _ => Answer.done) (← c)) r).2 := by
    intro c talks
    obtain ⟨x, console, run⟩ := talks r
    rw [outcome_return, run, List.append_nil, List.append_nil]
    exact h.with_console console
  have recording : ∀ {i}, op.records = some i → op.mentions = [] →
      Holds first (messages ++ op.mentions) (issues ++ op.records.toList)
        (outcome op.perform r).2 := by
    intro i records quiet
    rw [outcome_records records, records, quiet, List.append_nil]
    obtain ⟨given, console, rfl⟩ := h
    exact ⟨given, console, rfl⟩
  cases op with
  | warn message =>
    obtain ⟨after, warned, holds⟩ := h.warn step message
    rw [Operation.perform, outcome_return, warned]
    simpa [Operation.mentions, Operation.records] using holds
  | info args => exact talked (talks_info args)
  | issue i => exact recording rfl rfl
  | failed refusal caption => exact recording rfl rfl
  | unsupported refusal => exact talked (talks_lift (.error (.refused refusal)))
  | reset => cases keeps
  | complain draw => exact talked (talks_sayAll draw)
  | requireClean draw message => exact talked (talks_requireClean draw message)
  | convert c =>
    rw [Operation.perform, outcome_return]
    simpa [Operation.mentions, Operation.records] using h.converting step c

end

/-! ## Runs -/

theorem mentioned_concat (ops : List Operation) (op : Operation) :
    mentioned (ops ++ [op]) = if op.isReset then [] else mentioned ops ++ op.mentions := by
  rw [mentioned, sinceReset_concat]
  split <;> simp [mentioned]

theorem recorded_concat (ops : List Operation) (op : Operation) :
    recorded (ops ++ [op]) = if op.isReset then [] else recorded ops ++ op.records.toList := by
  rw [recorded, sinceReset_concat]
  split
  · rfl
  · rw [List.filterMap_append]
    cases op <;> rfl

theorem holds_performAll (verbose : Bool) (limit : Option Int) (source : Option Text)
    (ops : List Operation) : Holds (start verbose limit source) (mentioned ops) (recorded ops)
      (performAll ops (start verbose limit source)).2 := by
  induction ops using List.reverseRecOn with
  | nil => exact ⟨[], [], rfl⟩
  | append_singleton ops op ih =>
    have step := (inStep_start verbose limit source).performAll ops
    rw [performAll_append, mentioned_concat, recorded_concat]
    cases keeps : op.isReset with
    | false => exact ih.perform step keeps
    | true =>
      cases op with
      | reset =>
        obtain ⟨given, console, h⟩ := ih
        exact ⟨[], console, by simp only [h]; rfl⟩
      | _ => cases keeps

def metLimit : Operation × Except Fault Answer → Bool
  | (op, .error .tooManyIssues) => op.records.isSome
  | _ => false

/-- Once the limit is met, it is not met again unless there is a reset. -/
theorem Holds.countP_metLimit {first r : Report} {messages : List Text} {issues : List Issue}
    (h : Holds first messages issues r) (step : r.InStep) {limit : Int} (hl : first.limit = some limit)
    {ops : List Operation} (keep : ∀ op ∈ ops, op.isReset = false) :
    (ops.zip (performAll ops r).1).countP metLimit ≤ 1 ∧
      (limit ≤ issues.length → (ops.zip (performAll ops r).1).countP metLimit = 0) := by
  induction ops generalizing messages issues r with
  | nil => simp
  | cons op ops ih =>
    have ⟨hop, hops⟩ := List.forall_mem_cons.1 keep
    have ⟨once, never⟩ := ih (h.perform step hop) (step.perform op) hops
    rw [performAll, List.zip_cons_cons, List.countP_cons]
    cases records : op.records with
    | none =>
      have quiet : metLimit (op, (outcome op.perform r).1) = false := by
        unfold metLimit
        split <;> simp_all
      rw [records] at never
      simp only [quiet]
      exact ⟨once, by simpa using never⟩
    | some i =>
      rw [records, Option.toList_some, List.length_append, List.length_singleton] at never
      by_cases met : limit = ((issues.length + 1 : Nat) : Int)
      · have none_left := never (by omega)
        refine ⟨?_, fun low => by omega⟩
        rw [none_left]
        split <;> omega
      · have quiet : metLimit (op, (outcome op.perform r).1) = false := by
          rw [outcome_records records, h.limit_eq, h.issues_eq, hl, if_neg (by simpa using met)]
          rfl
        simp only [quiet]
        exact ⟨once, fun low => never (by omega)⟩

/-- What a report has to show after operations, and how it takes the next. -/
structure Books (limit : Int) (ops : List Operation) (r : Report) : Prop where
  warnings : r.warnings = (mentioned ops).eraseDups.map .str
  inStep : r.InStep
  issues : r.issues = recorded ops
  warn : ∀ message, (outcome (Operation.warn message).perform r).1 =
    .ok (.news (message ∉ mentioned ops))
  convert : ∀ c : Converting Node, outcome (Operation.convert c).perform r =
    ((c.outcome .empty).1.map .node,
      (performAll ((c.outcome .empty).2.warnings.map fun w => .warn w.text) r).2)
  record : ∀ (op : Operation) (i : Issue), op.records = some i → (outcome op.perform r).1 =
    if limit = (recorded ops).length + 1 then .error .tooManyIssues else .ok .done
  once : ∀ more : List Operation, (∀ op ∈ more, op.isReset = false) →
    (more.zip (performAll more r).1).countP metLimit ≤ 1
  never : limit ≤ 0 → ∀ (op : Operation) (i : Issue), op.records = some i →
    (outcome op.perform r).1 = .ok .done
  others : ∀ op : Operation, op.isReset = false → op.records = none →
    (outcome op.perform r).2.issues = r.issues
  clean : r.isClean = !r.hasIssues
  sick : r.hasIssues = true ↔ ∃ op ∈ sinceReset ops, op.records.isSome = true
  requireClean : ∀ draw message,
    (∃ e, (outcome (Operation.requireClean draw message).perform r).1 = .error e) ↔
      r.hasIssues = true

/-- Whatever operations a report went through, and however they ended, its books are right. -/
theorem run_keeps_books (verbose : Bool) (limit : Int) (source : Option Text)
    (ops : List Operation) :
    Books limit ops (performAll ops (start verbose (some limit) source)).2 := by
  have holds := holds_performAll verbose (some limit) source ops
  have step := (inStep_start verbose (some limit) source).performAll ops
  generalize (performAll ops (start verbose (some limit) source)).2 = r at holds step
  have record : ∀ (op : Operation) (i : Issue), op.records = some i → (outcome op.perform r).1 =
      if limit = (recorded ops).length + 1 then .error .tooManyIssues else .ok .done := by
    intro op i records
    rw [outcome_records records, holds.limit_eq, holds.issues_eq]
    simp [start]
  refine {
    warnings := holds.warnings_eq
    inStep := step
    issues := holds.issues_eq
    warn := fun message => ?_
    convert := fun c => ?_
    record := record
    once := fun more keep => (holds.countP_metLimit step rfl keep).1
    never := fun low op i records => ?_
    others := fun op keeps quiet => ?_
    clean := (Bool.not_not _).symm
    sick := ?_
    requireClean := fun draw message => ?_ }
  · obtain ⟨after, warned, -⟩ := holds.warn step message
    rw [Operation.perform, outcome_return, warned]
    rfl
  · rw [Operation.perform, outcome_return, outcome_converting_warn]
  · rw [record op i records, if_neg (by omega)]
  · rw [(holds.perform step keeps).issues_eq, holds.issues_eq, quiet, Option.toList_none,
      List.append_nil]
  · simp [hasIssues, holds.issues_eq, recorded, Option.isSome_iff_ne_none]
  · obtain ⟨x, console, run, raises⟩ := outcome_requireClean draw message r
    rw [Operation.perform, outcome_return _ fun _ => Answer.done, run, ← raises]
    cases x <;> simp [Except.map]

theorem run_keeps_books_reset :
    let i : Issue := ⟨"Could not translate $Rest. ", none, usualCaption⟩
    let ops : List Operation := [.warn "a", .issue i, .reset, .issue i, .warn "b"]
    let r := (performAll ops (start false (some 2) none)).2
    (outcome (Operation.issue i).perform r).1 = .error .tooManyIssues ∧
      (outcome (Operation.warn "a").perform r).1 = .ok (.news true) := by
  intro i ops r
  have books : Books 2 ops r := run_keeps_books false 2 none ops
  constructor
  · rw [books.record _ i rfl]
    rfl
  · have forgotten : Text.ofString "a" ∉ mentioned ops := by decide +kernel
    rw [books.warn, decide_eq_true forgotten]

end Reannotate.Report
