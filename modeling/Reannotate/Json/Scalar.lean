import Reannotate.Decimal.Shortest
import Reannotate.Text.Basic

/-!
# Scalars

The values of a document without members. `alike` is their loose equality: numbers of every kind and
truth values compare by what they amount to, so `true`, `1` and `1.0` are alike. `sameLiteral` also
asks for the same kind.
-/

namespace Reannotate

inductive Scalar
  | null
  | bool (b : Bool)
  | int (n : Int)
  | float (x : Binary64)
  | str (s : Text)
  deriving DecidableEq

namespace Scalar

/-- A scalar alike to `s` that stands for all of those: whole numbers are written as such. -/
def normal : Scalar → Scalar
  | .bool b => .int (if b then 1 else 0)
  | .float x => match x.whole? with
    | some n => .int n
    | none => .float x
  | s => s

def alike (s t : Scalar) : Bool :=
  s.normal = t.normal

def whole? (s : Scalar) : Option Int :=
  match s.normal with
  | .int n => some n
  | _ => none

def sameKind : Scalar → Scalar → Bool
  | .null, .null | .bool _, .bool _ | .int _, .int _ | .float _, .float _ | .str _, .str _ => true
  | _, _ => false

def sameLiteral (s t : Scalar) : Bool :=
  s.sameKind t && s.alike t

def truthy : Scalar → Bool
  | .null => false
  | .bool b => b
  | .int n => n != 0
  | .float x => !x.isZero
  | .str s => !s.isEmpty

theorem alike_refl (s : Scalar) : s.alike s = true := by simp [alike]

theorem alike_str {s t : Text} : (str s).alike (str t) = true ↔ s = t := by simp [alike, normal]

theorem str_alike_iff {s : Text} {t : Scalar} : (str s).alike t = true ↔ t = str s := by
  cases t with
  | float x => cases h : x.whole? <;> simp [alike, normal, h]
  | _ => simp [alike, normal, eq_comm]

end Scalar

end Reannotate
