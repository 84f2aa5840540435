import Mathlib.Data.List.Forall2
import Reannotate.Json.Inner
import Reannotate.TypeScript.Document

/-!
# Nodes from documents

`Node.ofJson?` makes a node of the syntax tree that `Node.toJson` writes for it. It looks fields up
by their names, so their order does not matter to it: it takes any document that is the same
(`Json.Same`) as one that was written.

As in the reader of phrases, each sort of node has a small reader, which is handed the reader of the
nodes below.
-/

namespace Reannotate

namespace Json

/-- Two documents with the same content. The order of fields is none of it. -/
inductive Same : Json → Json → Prop
  | scalar (s : Scalar) : Same (.scalar s) (.scalar s)
  | array {js ks : List Json} (h : List.Forall₂ Same js ks) : Same (.array js) (.array ks)
  | object {fs gs : List (Text × Json)}
      (h : ∀ name, Option.Rel Same (fs.lookup name) (gs.lookup name)) :
      Same (.object fs) (.object gs)

theorem Same.refl : (j : Json) → j.Same j
  | .scalar s => .scalar s
  | .array js => .array (List.forall₂_same.2 fun j hj => by
      have := depth_le_of_mem_items hj
      exact Same.refl j)
  | .object fs => .object fun name => by
      cases h : fs.lookup name with
      | none => exact .none
      | some j =>
        have := depth_le_of_lookup h
        exact .some (Same.refl j)
termination_by j => j.depth
decreasing_by all_goals exact Nat.lt_succ_of_le this

def bool? : Json → Option Bool
  | .scalar (.bool b) => some b
  | _ => none

def scalar? : Json → Option Scalar
  | .scalar s => some s
  | _ => none

def Inner.items? {whole : Json} (outer : Inner whole) : Option (List (Inner whole)) :=
  match h : outer.1 with
  | .array items => some (items.attach.map fun part =>
      ⟨part.1, Nat.lt_trans (Nat.lt_of_le_of_lt (depth_le_of_mem_items part.2) (by
        rw [h, depth]
        exact Nat.lt_succ_self _)) outer.2⟩)
  | _ => none

end Json

namespace TypeScript

open Json (Inner field?)

namespace Decoder

def inField {α : Type} (name : String) (read : Json → Option α) (j : Json) : Option α := do
  read (← field? name j).1

def textAt (name : String) (j : Json) : Option Text :=
  inField name Json.text? j

def boolAt (name : String) (j : Json) : Option Bool :=
  inField name Json.bool? j

def tag? (j : Json) : Option String := do
  (← textAt "type" j).string?

def readKeyword : String → Option Node
  | "TSAnyKeyword" => some .any
  | "TSBooleanKeyword" => some .boolean
  | "TSNeverKeyword" => some .never
  | "TSNullKeyword" => some .null
  | "TSNumberKeyword" => some .number
  | "TSStringKeyword" => some .string
  | "TSUndefinedKeyword" => some .undefined
  | "TSUnknownKeyword" => some .unknown
  | "TSVoidKeyword" => some .void
  | _ => none

def readGrouping : String → Option Grouping
  | "TSTupleType" => some .tuple
  | "TSUnionType" => some .union
  | "TSIntersectionType" => some .intersection
  | _ => none

def readLiteral (j : Json) : Option Node := do
  return .literal (← inField "literal" (inField "value" Json.scalar?) j)

def readOperatorName (j : Json) : Option Operator := do
  Operator.ofName? (← (← textAt "operator" j).string?)

def readName (j : Json) : Option EntityName := do
  match ← tag? j with
  | "Identifier" => return .plain (← textAt "name" j)
  | "TSQualifiedName" => do
    let left ← inField "left" (textAt "name") j
    let right ← inField "right" (textAt "name") j
    return .qualified (.str left) (.str right)
  | _ => none

def readKey (j : Json) : Option PropertyKey := do
  match ← tag? j with
  | "Identifier" => return ⟨.str (← textAt "name" j), .bool false⟩
  | "StringLiteral" => return ⟨.str (← textAt "value" j), .bool true⟩
  | _ => none

def readComment (j : Json) : Option Comment := do
  let value ← textAt "value" j
  match ← tag? j with
  | "CommentBlock" => return ⟨.str value, .bool true⟩
  | "CommentLine" => return ⟨.str value, .bool false⟩
  | _ => none

def commentsAt (name : String) (j : Json) : Option (List Comment) :=
  match field? name j with
  | none => some []
  | some part => do (← part.items?).mapM fun c => readComment c.1

def single? {α : Type} : List α → Option α
  | [a] => some a
  | _ => none

/-! ## Readers of nodes -/

abbrev Below (whole : Json) := Inner whole → Option Node

section
variable {whole : Json}

def Below.inside (below : Below whole) (outer : Inner whole) : Below outer.1 :=
  fun part => below (outer.within part)

def optionalAt {α : Type} (name : String) (read : Inner whole → Option α) : Option (Option α) := do
  let part ← field? name whole
  if part.1.isNull then return none else return some (← read part)

variable (below : Below whole)

def nodeAt (name : String) : Option Node := do
  below (← field? name whole)

def eachAt (name : String) : Option (List Node) := do
  (← (← field? name whole).items?).mapM below

def slotAt (name : String) : Option (Option Node) :=
  optionalAt name fun part => nodeAt (below.inside part) "typeAnnotation"

def manyAt (name : String) : Option (Option (List Node)) :=
  optionalAt name fun part => eachAt (below.inside part) "params"

def readReference : Option Node := do
  let name ← inField "typeName" readName whole
  return .reference name (← manyAt below "typeParameters")

def readOperator : Option Node := do
  let op ← readOperatorName whole
  return .operator op (← nodeAt below "typeAnnotation")

def readAccess : Option Node := do
  let object ← nodeAt below "objectType"
  return .access object (← nodeAt below "indexType")

def readGroup (g : Grouping) : Option Node := do
  return .group g (← eachAt below (groupField g))

def readProperty : Option Node := do
  let key ← inField "key" readKey whole
  let type ← slotAt below "typeAnnotation"
  let optional ← boolAt "optional" whole
  let readonly ← boolAt "readonly" whole
  let leading ← commentsAt "leadingComments" whole
  let inner ← commentsAt "innerComments" whole
  let trailing ← commentsAt "trailingComments" whole
  return .property key type optional readonly ⟨leading, inner, trailing⟩

def readIndex : Option Node := do
  let param ← single? (← (← field? "parameters" whole).items?)
  let name ← textAt "name" param.1
  let key ← slotAt (below.inside param) "typeAnnotation"
  return .index (.str name) key (← slotAt below "typeAnnotation")

def readTypeParameter : Option Node := do
  let name ← textAt "name" whole
  let constraint ← optionalAt "constraint" below
  return .typeParameter (.str name) constraint (← optionalAt "default" below)

def readParameter : Option Node := do
  let name ← textAt "name" whole
  let type ← slotAt below "typeAnnotation"
  return .parameter (.str name) type (← boolAt "optional" whole)

def readRest : Option Node := do
  let name ← inField "argument" (textAt "name") whole
  return .rest (.str name) (← slotAt below "typeAnnotation")

def readFunction : Option Node := do
  let typeParams ← manyAt below "typeParameters"
  let params ← eachAt below "parameters"
  return .function typeParams params (← slotAt below "typeAnnotation")

def readTagged (tag : String) : Option Node :=
  match readKeyword tag, readGrouping tag with
  | some n, _ => some n
  | _, some g => readGroup below g
  | none, none =>
    match tag with
    | "TSThisType" => some .this
    | "TSLiteralType" => readLiteral whole
    | "TSTypeReference" => readReference below
    | "TSTypeOperator" => readOperator below
    | "TSIndexedAccessType" => readAccess below
    | "TSArrayType" => do return .array (← nodeAt below "elementType")
    | "TSPropertySignature" => readProperty below
    | "TSIndexSignature" => readIndex below
    | "TSTypeLiteral" => do return .object (← eachAt below "members")
    | "TSTypeParameter" => readTypeParameter below
    | "Identifier" => readParameter below
    | "RestElement" => readRest below
    | "TSFunctionType" => readFunction below
    | _ => none

end

end Decoder

def Node.ofJson? (j : Json) : Option Node := do
  Decoder.readTagged (fun part : Inner j => Node.ofJson? part.1) (← Decoder.tag? j)
termination_by j.depth
decreasing_by exact part.2

end TypeScript

end Reannotate
