import Reannotate.Names
import Reannotate.TypeScript.Basic

/-!
# The log of a conversion

What a conversion leaves behind apart from its result, also when it fails: the warnings it gave and
the lists of names it asked fresh names for, in order.
-/

namespace Reannotate

inductive Warning
  | existential
  | exactObject
  deriving DecidableEq

def Warning.text : Warning → String
  | .existential => "Existential type (*) in Flow is converted to \"any\" in TypeScript, " ++
      "and this conversion loses some type information."
  | .exactObject => "Exact object type annotation in Flow is ignored. In TypeScript, it's " ++
      "always regarded as exact type"

structure Log where
  warnings : List Warning
  asked : List (List Json)

def Log.empty : Log := ⟨[], []⟩

/-- A conversion fails or has a result, and adds to the log in either case. -/
abbrev Converting := ExceptT Fault (StateM Log)

namespace Converting

def warn (w : Warning) : Converting Unit :=
  modify fun log => { log with warnings := log.warnings ++ [w] }

def refuse {α : Type} (kind message : Text) (subject : Flow.Part) : Converting α :=
  throw (.refused ⟨.str kind, .str message, some subject⟩)

def askName (names : Names) (used : List Json) : Converting Text := do
  let log ← get
  set { log with asked := log.asked ++ [used] }
  names.fresh log.asked used

def outcome {α : Type} (c : Converting α) (log : Log) : Except Fault α × Log :=
  c.run.run log

end Converting

end Reannotate
