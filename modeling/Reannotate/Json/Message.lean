import Reannotate.Json.Basic
import Reannotate.Text.Quoted

/-!
# Documents inside messages

How a message spells a value: `None`, `True` and `False`, numbers, quoted text, and arrays and
objects on one line. `plain` shows a text that stands on its own without quotes.
-/

namespace Reannotate

def Binary64.spelled : Binary64 → String :=
  Binary64.textWith "inf" "nan"

namespace Scalar

def spelled : Scalar → Text
  | .null => "None"
  | .bool true => "True"
  | .bool false => "False"
  | .int n => n.repr
  | .float x => x.spelled
  | .str s => Text.quoted s

def plain : Scalar → Text
  | .str s => s
  | s => s.spelled

end Scalar

namespace Json

mutual

def spelled : Json → Text
  | .scalar s => s.spelled
  | .array items => "[" ++ Text.join ", " (spelledItems items) ++ "]"
  | .object fields => "\x7b" ++ Text.join ", " (spelledFields fields) ++ "\x7d"

def spelledItems : List Json → List Text
  | [] => []
  | j :: rest => j.spelled :: spelledItems rest

def spelledFields : List (Text × Json) → List Text
  | [] => []
  | (name, j) :: rest => (Text.quoted name ++ ": " ++ j.spelled) :: spelledFields rest

end

def plain : Json → Text
  | .scalar s => s.plain
  | j => j.spelled

end Json

end Reannotate
