import Reannotate.Command.Arguments
import Reannotate.Command.Folder
import Reannotate.Command.Usage
import Reannotate.Conversion.Convert
import Reannotate.Flow.Reader
import Reannotate.Json.Reader
import Reannotate.Json.Writer
import Reannotate.Report.Basic
import Reannotate.TypeScript.Document

/-!
# A run of the command

`invoke` says what the command does with its arguments and the files it can read: a list of actions,
and the exit status if all of them succeed. Each entry of a document is converted on its own. One
that is refused comes out as null and is recorded, and the others go on, until there are too many.
-/

namespace Reannotate.Command

open Report

inductive Action
  | print (text : Text)
  | note (text : Text)
  | write (name text : Text)

/-- Actions in order, and the exit status after them. Without a status the command just ends. -/
structure Run where
  actions : List Action
  status : Except Fault (Option Int)

abbrev Files := Text → Option Text

def entriesOf : Json → List Json
  | .array items => items
  | j => [j]

def assemble (document : Json) (results : List Json) : Json :=
  match document with
  | .array _ => .array results
  | _ => results.headD .null

def documentOf : Option TypeScript.Node → Except Fault Json
  | none => .ok .null
  | some node => node.toJson

def convertDocument (entry : Json) : Reporting (Option TypeScript.Node) := do
  let phrase ← Flow.read entry
  converting (Converting.convertEntry .usual phrase)

/-- The result for an entry: null if it is refused, which the report takes note of. -/
def convertOne (entry : Json) : Reporting Json := do
  let r ← get
  let (result, after) := outcome (convertDocument entry) r
  set after
  match result with
  | .ok node => documentOf node
  | .error (.refused refusal) =>
    recordRefusal refusal usualCaption
    return .null
  | .error e => throw e

def convertAll (total : Nat) : Nat → List Json → Reporting (List Json)
  | _, [] => pure []
  | number, entry :: rest => do
    info [.str ("Entry " ++ number.repr ++ " of " ++ total.repr)]
    let result ← convertOne entry
    return result :: (← convertAll total (number + 1) rest)

def consoleText (r : Report) : Text :=
  r.console.flatMap (· ++ [.char '\n'])

def giveUp (draw : Nat) : Reporting Unit := do
  sayAll draw
  say (rule " *" 35)
  say "Giving up after a few issues. One crisis at a time, eh?"

def readText (files : Files) (name : Text) : Option Text :=
  (files name).map Text.unifyBreaks

structure Input where
  source : Option Text
  document : Json

/-- An empty name is no name. -/
def named (name : Option Text) : Option Text :=
  name.filter fun n => !n.isEmpty

def readInput (files : Files) (s : Settings) : Option Input := do
  let source ← match named s.source with
    | none => some none
    | some name => (readText files name).map some
  let text ← readText files s.annotations
  return ⟨source, ← Json.read text⟩

def deliver (draw : Nat) (s : Settings) (document : Json) (results : List Json) (r : Report) :
    Run :=
  let text := (assemble document results).pretty ++ "\n"
  let output := match named s.output with
    | none => Action.print text
    | some name => Action.write name text
  let (result, after) := outcome (sayAll draw) { r with console := [] }
  { actions := [.note (consoleText r), output, .note (consoleText after)]
    status := result.map fun _ => some (if r.hasIssues then 1 else 0) }

def convertInput (draw : Nat) (s : Settings) (input : Input) : Run :=
  let entries := entriesOf input.document
  let report := Report.start (s.verbose != 0) s.maxIssues input.source
  match outcome (convertAll entries.length 1 entries) report with
  | (.ok results, r) => deliver draw s input.document results r
  | (.error .tooManyIssues, r) =>
    let (result, after) := outcome (giveUp draw) r
    ⟨[.note (consoleText after)], result.map fun _ => some 1⟩
  | (.error e, r) => ⟨[.note (consoleText r)], .error e⟩

def run (files : Files) (draw : Nat) (s : Settings) : Run :=
  match readInput files s with
  | none => ⟨[.note "Could not read input: ...\n"], .ok (some 2)⟩
  | some input => convertInput draw s input

def invoke (files : Files) (draw : Nat) (args : List Text) : Run :=
  if args.isEmpty then ⟨[.print introduction], .ok none⟩
  else match parse usualLimit args with
    | .error c => ⟨[.note (usage ++ "flow2ts: error: " ++ c.message ++ "\n")], .ok (some 2)⟩
    | .ok .help => ⟨[.print help], .ok (some 0)⟩
    | .ok (.convert s) => run files draw s

def filesNamed (args : List Text) : List Text :=
  match parse usualLimit args with
  | .ok (.convert s) => s.annotations :: (named s.source).toList
  | _ => []

/-! ## The effect of a run -/

structure Effect where
  stdout : Text
  stderr : Text
  folder : Folder
  status : Except Fault (Option Int)

/-- Takes the actions in order; one that writes where nothing can be written ends the run. -/
def perform (folder : Folder) (status : Except Fault (Option Int)) : List Action → Effect
  | [] => ⟨[], [], folder, status⟩
  | .print text :: rest =>
    let e := perform folder status rest
    { e with stdout := text ++ e.stdout }
  | .note text :: rest =>
    let e := perform folder status rest
    { e with stderr := text ++ e.stderr }
  | .write name text :: rest =>
    match folder.write name text with
    | .ok changed => perform changed status rest
    | .error obstacle => ⟨[], [], folder, .error (.unwritable obstacle)⟩

def effect (folder : Folder) (draw : Nat) (args : List Text) : Effect :=
  let run := invoke folder.read draw args
  perform folder run.status run.actions

end Reannotate.Command
