import Reannotate.Conversion.Log

/-!
# Utility types

Flow's utility types look like references to named types, but each has a form of its own in
TypeScript. `Utility.apply` builds it from the converted type arguments, of which each utility type
takes a fixed number, if their number matters at all.
-/

namespace Reannotate

inductive Utility
  | keys
  | values
  | readOnly
  | readOnlyArray
  | exact
  | diff
  | rest
  | propertyType
  | elementType
  | shape
  | classOf
  | fixMe
  | object
  deriving DecidableEq

namespace Utility

def name : Utility → String
  | .keys => "$Keys"
  | .values => "$Values"
  | .readOnly => "$ReadOnly"
  | .readOnlyArray => "$ReadOnlyArray"
  | .exact => "$Exact"
  | .diff => "$Diff"
  | .rest => "$Rest"
  | .propertyType => "$PropertyType"
  | .elementType => "$ElementType"
  | .shape => "$Shape"
  | .classOf => "Class"
  | .fixMe => "$FlowFixMe"
  | .object => "Object"

def all : List Utility := [
  .keys, .values, .readOnly, .readOnlyArray, .exact, .diff, .rest, .propertyType, .elementType,
  .shape, .classOf, .fixMe, .object]

def ofName? (s : Text) : Option Utility :=
  all.find? fun u => Text.ofString u.name = s

def arity : Utility → Option Nat
  | .diff | .propertyType | .elementType => some 2
  | .rest | .fixMe | .object => none
  | _ => some 1

theorem name_inj {u v : Utility} : u.name = v.name ↔ u = v := by
  cases u <;> cases v <;> decide

theorem ofName?_name (u : Utility) : ofName? u.name = some u := by
  simp only [ofName?, Text.ofString_inj, name_inj]
  cases u <;> rfl

theorem eq_name_of_ofName? {s : Text} {u : Utility} (h : ofName? s = some u) : s = u.name := by
  simpa [eq_comm] using List.find?_some h

def arityMessage (u : Utility) (arity got : Nat) : String :=
  u.name ++ " takes " ++ arity.repr ++ " type argument(s), but got " ++ got.repr ++ "."

open Reannotate.TypeScript (Node)

def anyObject : Node :=
  .object [.index (.str "x") (some .string) (some .any)]

/-- `Pick<x, Exclude<keyof x, keyof y>>`. -/
def difference (x y : Node) : Node :=
  let exclude := Node.named "Exclude" (some [.operator .keyof x, .operator .keyof y])
  .named "Pick" (some [x, exclude])

def apply (u : Utility) (subject : Flow.Part) (args : Option (List Node)) : Converting Node :=
  match u, args.getD [] with
  | .keys, [x] => pure (.operator .keyof x)
  | .values, [x] => pure (.access x (.operator .keyof x))
  | .readOnly, [x] => pure (.named "Readonly" (some [x]))
  | .readOnlyArray, [x] => pure (.named "ReadonlyArray" (some [x]))
  | .exact, [x] => do
    Converting.warn .exactObject
    return x
  | .diff, [x, y] => pure (difference x y)
  | .propertyType, [t, k] => pure (.access t k)
  | .elementType, [t, k] => pure (.access t k)
  | .shape, [x] => pure (.named "Partial" (some [x]))
  | .classOf, [x] => pure (.operator .typeof x)
  | .fixMe, _ => pure (.named "any" args)
  | .object, _ => pure anyObject
  | .rest, _ =>
    Converting.refuse u.name "$Rest in GenericTypeAnnotation is not supported." subject
  | u, got => Converting.refuse u.name (u.arityMessage (u.arity.getD 0) got.length) subject

end Utility

end Reannotate
