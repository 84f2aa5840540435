import Mathlib.Data.List.Forall2
import Mathlib.Data.Set.Insert
import Reannotate.Flow.Basic
import Reannotate.TypeScript.Basic

/-!
# What types mean

A type means a set of values. `Phrase.meaning?` and `Node.meaning?` tell it for types that are built
from those of plain values by arrays, tuples, unions, intersections and properties; both put the
meanings of parts together in the same way.
-/

namespace Reannotate

def Binary64.ofInt (n : Int) : Binary64 :=
  if n = 0 then zero false else ofRatio (n < 0) n.natAbs 1

/-- A value at run time. Of a record only the first field of each name counts. -/
inductive Value
  | undefined
  | null
  | boolean (b : Bool)
  | number (x : Binary64)
  | text (s : Text)
  | array (items : List Value)
  | record (fields : List (Text × Value))

/-! ## Sets of values -/

namespace Value

def booleans : Set Value := {v | ∃ b, v = .boolean b}

def numbers : Set Value := {v | ∃ x, v = .number x}

def texts : Set Value := {v | ∃ s, v = .text s}

def arrays (m : Set Value) : Set Value := {v | ∃ items, v = .array items ∧ ∀ x ∈ items, x ∈ m}

end Value

def Grouping.combine : Grouping → List (Set Value) → Set Value
  | .tuple, ms => {v | ∃ items, v = .array items ∧ List.Forall₂ (· ∈ ·) items ms}
  | .union, ms => {v | ∃ m ∈ ms, v ∈ m}
  | .intersection, ms => {v | ∀ m ∈ ms, v ∈ m}

structure FieldType where
  key : Text
  optional : Bool
  values : Set Value

/-- A required field is there with a value of its type; an optional one may be absent or undefined. -/
def FieldType.Holds (f : FieldType) (fields : List (Text × Value)) : Prop :=
  match fields.lookup f.key with
  | none => f.optional = true
  | some v => v ∈ f.values ∨ (f.optional = true ∧ v = .undefined)

def Value.records (fs : List FieldType) : Set Value :=
  {v | ∃ fields, v = .record fields ∧ ∀ f ∈ fs, f.Holds fields}

def Scalar.value? : Scalar → Option Value
  | .null => none
  | .bool b => some (.boolean b)
  | .int n => some (.number (.ofInt n))
  | .float x => some (.number x)
  | .str s => some (.text s)

/-! ## Flow types -/

namespace Flow

def Primitive.meaning? : Primitive → Option (Set Value)
  | .any | .mixed => some Set.univ
  | .boolean => some Value.booleans
  | .number => some Value.numbers
  | .string => some Value.texts
  | .void => some {.undefined}
  | .empty => some ∅
  | .null => some {.null}
  | .exists | .this => none

def LiteralKind.value? : LiteralKind → Json → Option Value
  | .boolean, .scalar (.bool b) => Scalar.value? (.bool b)
  | .number, .scalar (.int n) => Scalar.value? (.int n)
  | .number, .scalar (.float x) => Scalar.value? (.float x)
  | .string, .scalar (.str s) => Scalar.value? (.str s)
  | _, _ => none

mutual

def Phrase.meaning? : Phrase → Option (Set Value)
  | .primitive _ w => w.meaning?
  | .literal _ k v => do return {← k.value? v}
  | .array _ e => do return Value.arrays (← e.meaning?)
  | .group _ g ts => do return g.combine (← meanings? ts)
  | .nullable _ t => do return {.undefined, .null} ∪ (← t.meaning?)
  | .object _ ps [] [] false => do return Value.records (← fieldTypes? ps)
  | _ => none

def meanings? : List Phrase → Option (List (Set Value))
  | [] => some []
  | p :: rest => do
    let m ← p.meaning?
    return m :: (← meanings? rest)

def fieldTypes? : List Phrase → Option (List FieldType)
  | [] => some []
  | .property _ k v o _ _ :: rest => do
    let key ← k.text.text?
    let m ← v.meaning?
    return ⟨key, o, m⟩ :: (← fieldTypes? rest)
  | _ :: _ => none

end

end Flow

/-! ## TypeScript types -/

namespace TypeScript

def keywordMeaning? (name : Scalar) : Option (Set Value) :=
  match name with
  | .str s =>
    match s.string? with
    | some "any" | some "unknown" => some Set.univ
    | some "boolean" => some Value.booleans
    | some "number" => some Value.numbers
    | some "string" => some Value.texts
    | some "void" | some "undefined" => some {.undefined}
    | some "never" => some ∅
    | some "null" => some {.null}
    | _ => none
  | _ => none

mutual

def Node.meaning? : Node → Option (Set Value)
  | .keyword n => keywordMeaning? n
  | .literal v => do return {← v.value?}
  | .array e => do return Value.arrays (← e.meaning?)
  | .group g ts => do return g.combine (← meanings? ts)
  | .object ms => do return Value.records (← fieldTypes? ms)
  | _ => none

def meanings? : List Node → Option (List (Set Value))
  | [] => some []
  | n :: rest => do
    let m ← n.meaning?
    return m :: (← meanings? rest)

def fieldTypes? : List Node → Option (List FieldType)
  | [] => some []
  | .property ⟨.str key, _⟩ (some t) o _ _ :: rest => do
    let m ← t.meaning?
    return ⟨key, o, m⟩ :: (← fieldTypes? rest)
  | _ :: _ => none

end

end TypeScript

end Reannotate
