import Reannotate.Fault
import Reannotate.Grouping

/-!
# TypeScript nodes

The tree of a TypeScript annotation. Nodes are values: `Node.same` in `TypeScript/Same` says when
two are equal. Names, keys and literals are scalars, since a document may put anything there; the
constructors with a question mark refuse what is not.
-/

namespace Reannotate.TypeScript

structure Comment where
  value : Scalar
  block : Scalar

structure PropertyKey where
  text : Scalar
  quoted : Scalar

structure Comments where
  leading : List Comment
  inner : List Comment
  trailing : List Comment

inductive EntityName
  | plain (name : Text)
  | qualified (left right : Scalar)

inductive Operator
  | keyof
  | typeof
  | unique
  | readonly
  deriving DecidableEq

/-- `bare` is a node of no particular sort, and `hole` a place where a node is missing. -/
inductive Node
  | bare (key : List Scalar)
  | hole
  | keyword (name : Scalar)
  | this
  | literal (value : Scalar)
  | reference (name : EntityName) (args : Option (List Node))
  | operator (op : Operator) (type : Node)
  | access (object index : Node)
  | array (element : Node)
  | group (grouping : Grouping) (types : List Node)
  | property (key : PropertyKey) (type : Option Node) (optional readonly : Bool)
      (comments : Comments)
  | index (name : Scalar) (key type : Option Node)
  | object (members : List Node)
  | typeParameter (name : Scalar) (constraint default : Option Node)
  | parameter (name : Scalar) (type : Option Node) (optional : Bool)
  | rest (name : Scalar) (type : Option Node)
  | function (typeParams : Option (List Node)) (params : List Node) (result : Option Node)

def Operator.name : Operator → String
  | .keyof => "keyof"
  | .typeof => "typeof"
  | .unique => "unique"
  | .readonly => "readonly"

def Operator.ofName? : String → Option Operator
  | "keyof" => some .keyof
  | "typeof" => some .typeof
  | "unique" => some .unique
  | "readonly" => some .readonly
  | _ => none

namespace Node

def word (name : String) : Node :=
  .keyword (.str name)

def any : Node := word "any"

def boolean : Node := word "boolean"

def never : Node := word "never"

def null : Node := word "null"

def number : Node := word "number"

def string : Node := word "string"

def undefined : Node := word "undefined"

def unknown : Node := word "unknown"

def void : Node := word "void"

def union (types : List Node) : Node := .group .union types

def intersection (types : List Node) : Node := .group .intersection types

def named (name : Text) (args : Option (List Node)) : Node :=
  .reference (.plain name) args

end Node

/-! ## Nodes made from document values -/

def comment? (value block : Json) : Except Fault Comment := do
  return ⟨← value.toScalar, ← block.toScalar⟩

def propertyKey? (text quoted : Json) : Except Fault PropertyKey := do
  return ⟨← text.toScalar, ← quoted.toScalar⟩

namespace Node

def bare? (key : List Json) : Except Fault Node := do
  return .bare (← key.mapM Json.toScalar)

def keyword? (name : Json) : Except Fault Node := do
  return .keyword (← name.toScalar)

def literal? (value : Json) : Except Fault Node := do
  return .literal (← value.toScalar)

def reference? (name : Json) (args : Option (List Node)) : Except Fault Node :=
  match name.text? with
  | some s => .ok (.named s args)
  | none => .error (.violated name.text?)

def qualified? (left right : Json) (args : Option (List Node)) : Except Fault Node := do
  return .reference (.qualified (← left.toScalar) (← right.toScalar)) args

def operator? (op : Json) (type : Node) : Except Fault Node :=
  match (op.text?.bind Text.string?).bind Operator.ofName? with
  | some o => .ok (.operator o type)
  | none => .error (.violated op.text?)

def index? (name : Json) (key type : Option Node) : Except Fault Node := do
  return .index (← name.toScalar) key type

def typeParameter? (name : Json) (constraint default : Option Node) : Except Fault Node := do
  return .typeParameter (← name.toScalar) constraint default

def parameter? (name : Json) (type : Option Node) (optional : Bool) : Except Fault Node := do
  return .parameter (← name.toScalar) type optional

def rest? (name : Json) (type : Option Node) : Except Fault Node := do
  return .rest (← name.toScalar) type

end Node

end Reannotate.TypeScript
