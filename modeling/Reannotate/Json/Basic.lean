import Reannotate.Json.Scalar

/-!
# Documents

A document is a scalar, an array or an object; the fields of an object keep their order.
-/

namespace Reannotate

inductive Json
  | scalar (s : Scalar)
  | array (items : List Json)
  | object (fields : List (Text × Json))

namespace Json

abbrev null : Json := .scalar .null

abbrev bool (b : Bool) : Json := .scalar (.bool b)

abbrev int (n : Int) : Json := .scalar (.int n)

abbrev str (s : Text) : Json := .scalar (.str s)

instance : Inhabited Json := ⟨null⟩

def isNull : Json → Bool
  | .scalar .null => true
  | _ => false

def truthy : Json → Bool
  | .scalar s => s.truthy
  | .array items => !items.isEmpty
  | .object fields => !fields.isEmpty

def text? : Json → Option Text
  | .scalar (.str s) => some s
  | _ => none

def isText (j : Json) (s : String) : Bool :=
  j.text? = some (Text.ofString s)

/-- The fields with `name` set to `value`: in place if the name is there, at the end if not. -/
def setField (name : Text) (value : Json) : List (Text × Json) → List (Text × Json)
  | [] => [(name, value)]
  | (n, v) :: rest => if n = name then (n, value) :: rest else (n, v) :: setField name value rest

/-! ## Equality -/

mutual

def decEq : (j k : Json) → Decidable (j = k)
  | .scalar s, .scalar t => decidable_of_iff (s = t) (by rw [Json.scalar.injEq])
  | .array js, .array ks =>
    have := decEqItems js ks
    decidable_of_iff (js = ks) (by rw [Json.array.injEq])
  | .object fs, .object gs =>
    have := decEqFields fs gs
    decidable_of_iff (fs = gs) (by rw [Json.object.injEq])
  | .scalar _, .array _ | .scalar _, .object _ | .array _, .scalar _ | .array _, .object _
  | .object _, .scalar _ | .object _, .array _ => .isFalse nofun

def decEqItems : (js ks : List Json) → Decidable (js = ks)
  | [], [] => .isTrue rfl
  | j :: js, k :: ks =>
    have := decEq j k
    have := decEqItems js ks
    decidable_of_iff (j = k ∧ js = ks) (by rw [List.cons.injEq])
  | [], _ :: _ | _ :: _, [] => .isFalse nofun

def decEqFields : (fs gs : List (Text × Json)) → Decidable (fs = gs)
  | [], [] => .isTrue rfl
  | (m, j) :: fs, (n, k) :: gs =>
    have := decEq j k
    have := decEqFields fs gs
    decidable_of_iff ((m = n ∧ j = k) ∧ fs = gs) (by rw [List.cons.injEq, Prod.mk.injEq])
  | [], _ :: _ | _ :: _, [] => .isFalse nofun

end

instance : DecidableEq Json := decEq

end Json

end Reannotate
