import Reannotate.Conversion.Log
import Reannotate.Report.Illustration
import Reannotate.Report.Exclamation

/-!
# Reports

A report collects what went wrong during a run. Warnings are about information that is lost; each is
kept once, and a set of those already given says which are news. Issues are about things that did not
get across at all; when their number reaches the limit, recording one raises a fault, though the issue
is kept.

Operations on a report also write lines to the console.
-/

namespace Reannotate

structure Issue where
  intro : Text
  subject : Option Flow.Part
  caption : Text

structure Report where
  verbose : Bool
  limit : Option Int
  source : Option Text
  warnings : List Scalar
  /-- The set of the messages already warned of. -/
  given : List Scalar
  issues : List Issue
  console : List Text

abbrev Reporting := ExceptT Fault (StateM Report)

namespace Report

def usualLimit : Int := 10

def start (verbose : Bool) (limit : Option Int) (source : Option Text) : Report where
  verbose := verbose
  limit := limit
  source := source
  warnings := []
  given := []
  issues := []
  console := []

def isClean (r : Report) : Bool :=
  r.issues.isEmpty

def hasIssues (r : Report) : Bool :=
  !r.issues.isEmpty

def textOf (source : Option Text) (i : Issue) : Except Fault Text :=
  match i.subject with
  | none => .ok (i.intro ++ "\n")
  | some subject => do
    let picture ← depict source subject i.caption
    return i.intro ++ "\n\n" ++ picture

def say (line : Text) : Reporting Unit :=
  modify fun r => { r with console := r.console ++ [line] }

def info (args : List Json) : Reporting Unit := do
  if (← get).verbose then say (Text.join " " (args.map Json.plain))

/-- Whether the warning is news. -/
def warn (message : Json) : Reporting Bool := do
  let text ← message.toScalar
  if (← get).given.any (text.alike ·) then return false
  modify fun r => { r with given := text :: r.given, warnings := r.warnings ++ [text] }
  info [.str "Warning:", message]
  return true

def issue (i : Issue) : Reporting Unit := do
  modify fun r => { r with issues := r.issues ++ [i] }
  let r ← get
  if r.limit = some (r.issues.length : Int) then throw .tooManyIssues

def usualCaption : Text := "this part"

def recordRefusal (r : Refusal) (caption : Text) : Reporting Unit :=
  issue {
    intro := "Could not translate " ++ r.kind.plain ++ ". " ++ r.message.plain
    subject := r.subject
    caption := caption }

def refuse (r : Refusal) : Reporting Unit :=
  throw (.refused r)

def reset : Reporting Unit :=
  modify fun r => { r with issues := [], warnings := [], given := [] }

def rule (pattern : Text) (times : Nat) : Text :=
  (List.replicate times pattern).flatten

def sayIssues : List Issue → Reporting Unit
  | [] => pure ()
  | i :: rest => do
    say (rule "  -" 20)
    say (← textOf (← get).source i)
    sayIssues rest

def sayAll (draw : Nat) : Reporting Unit := do
  let r ← get
  for w in r.warnings do
    say ("Warning: " ++ w.plain)
  if r.hasIssues then
    say (rule "*" 60)
    say (exclamation draw)
  sayIssues r.issues

def requireClean (draw : Nat) (message : Json) : Reporting Unit := do
  if (← get).hasIssues then
    sayAll draw
    match message.text? with
    | some s => throw (.violated (some (exclamation draw ++ " " ++ s)))
    | none => throw .notText

def converting {α : Type} (c : Converting α) : Reporting α := do
  let (result, log) := c.outcome .empty
  for w in log.warnings do
    let _ ← warn (.str w.text)
  result

def outcome {α : Type} (c : Reporting α) (r : Report) : Except Fault α × Report :=
  c.run.run r

end Report

end Reannotate
