import Reannotate.Text.Basic

/-!
# Exclamations

What is said before a list of issues. A single draw settles all three parts: their numbers of
choices have no common factor, so every combination comes up, and equally often.
-/

namespace Reannotate.Report

def particles : List String := ["Oh, ", "Well, ", "Hmm, ", "", ""]

def expletives : List String :=
  ["Drat", "Rats", "Fiddlesticks", "Good Grief", "Curses", "Nuts", "Crikey"]

def admissions : List String := [
  "Some types would not go quietly.", "Not everything made it across.",
  "There is more to do by hand."]

def exclamationCount : Nat :=
  particles.length * expletives.length * admissions.length

def drawn (draw : Nat) (choices : List String) : String :=
  choices.getD (draw % choices.length) ""

def exclamation (draw : Nat) : Text :=
  drawn draw particles ++ drawn draw expletives ++ "! " ++ drawn draw admissions

end Reannotate.Report
