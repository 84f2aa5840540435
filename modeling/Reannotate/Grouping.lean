/-!
# Groups of types
-/

namespace Reannotate

inductive Grouping
  | tuple
  | union
  | intersection
  deriving DecidableEq

end Reannotate
