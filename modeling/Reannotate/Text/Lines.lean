import Reannotate.Text.Basic

/-!
# Lines of a text

A line ends after a line feed, a carriage return, or the two together. `bounds` lists where lines
begin and end, in points from the start of the text.
-/

namespace Reannotate.Text

def breaksFrom (start : Nat) : Text → List Nat
  | [] => []
  | .char '\r' :: .char '\n' :: rest => (start + 2) :: breaksFrom (start + 2) rest
  | .char '\r' :: rest => (start + 1) :: breaksFrom (start + 1) rest
  | .char '\n' :: rest => (start + 1) :: breaksFrom (start + 1) rest
  | _ :: rest => breaksFrom (start + 1) rest

/-- Zero, the offset after each line break, and the length of the text. -/
def bounds (s : Text) : List Nat :=
  0 :: (breaksFrom 0 s ++ [s.length])

def unifyBreaks : Text → Text
  | [] => []
  | .char '\r' :: .char '\n' :: rest => .char '\n' :: unifyBreaks rest
  | .char '\r' :: rest => .char '\n' :: unifyBreaks rest
  | p :: rest => p :: unifyBreaks rest

end Reannotate.Text
