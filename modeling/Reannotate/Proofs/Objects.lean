import Reannotate.Flow.Reader

/-!
# Phrases as objects with parents

`read` makes values, and where a phrase is in a tree is told by its trail. Here a phrase is an
object at an address instead, and each object knows its parent: whoever constructs an object sets
the parent of the objects that it adopts. `build` makes objects of a node and all below it, with the
same look-ups in the same order as `read`. Spans have no say in this and are left out.
-/

namespace Reannotate.Flow

abbrev Address := Nat

inductive Plain
  | value (j : Json)
  | key (k : PropertyKey)
  | comments (cs : List Comment)

def Plain.part : Plain → Part
  | .value j => .value j
  | .key k => .key k
  | .comments cs => .comments cs

/-- What a field holds, where `α` stands for phrases. -/
inductive Held (α : Type)
  | one (x : α)
  | many (xs : List α)
  | plain (v : Plain)

namespace Held

variable {α β : Type}

def map (f : α → β) : Held α → Held β
  | .one x => .one (f x)
  | .many xs => .many (xs.map f)
  | .plain v => .plain v

def all : Held α → List α
  | .one x => [x]
  | .many xs => xs
  | .plain _ => []

def slots (field : String) : Held α → List (Slot × α)
  | .one x => [(⟨field, none⟩, x)]
  | .many xs => xs.zipIdx.map fun (x, i) => (⟨field, some i⟩, x)
  | .plain _ => []

def value (j : Json) : Held α := .plain (.value j)

def maybe : Option α → Held α
  | none => value .null
  | some x => .one x

def maybeMany : Option (List α) → Held α
  | none => value .null
  | some xs => .many xs

def part : Held Phrase → Part
  | .one p => .phrase p
  | .many ps => .phrases ps
  | .plain v => v.part

end Held

structure Object where
  kind : String
  fields : List (String × Held Address)

def Object.children (o : Object) : List (Slot × Address) :=
  o.fields.flatMap fun f => f.2.slots f.1

/-- An address is the number of objects that were there before. -/
structure Heap where
  objects : List Object
  parent : Address → Option Address

def Heap.empty : Heap := ⟨[], fun _ => none⟩

def Heap.adopt (h : Heap) (self : Address) (children : List Address) : Heap :=
  { h with parent := fun a => if a ∈ children then some self else h.parent a }

abbrev Building := StateT Heap (Except Fault)

/-! ## Constructors -/

namespace Building

def construct (kind : String) (fields : List (String × Held Address)) (adopted : List Address) :
    Building Address := do
  let h ← get
  let self := h.objects.length
  set (Heap.adopt { h with objects := h.objects ++ [⟨kind, fields⟩] } self adopted)
  return self

def primitive (which : Primitive) : Building Address :=
  construct which.kind [] []

def literal (kind : LiteralKind) (value : Json) : Building Address :=
  construct kind.kind [("value", .value value)] []

def array (element : Address) : Building Address :=
  construct "ArrayType" [("element", .one element)] [element]

def group (g : Grouping) (types : List Address) : Building Address :=
  construct (groupKind g) [("types", .many types)] types

def nullable (type : Address) : Building Address :=
  construct "NullableType" [("type_annotation", .one type)] [type]

def typeof (argument : Address) : Building Address :=
  construct "TypeofType" [("argument", .one argument)] [argument]

def name (text : Text) : Building Address :=
  construct "Name" [("text", .value (.str text))] []

def qualifiedName (qualification id : Address) : Building Address :=
  construct "QualifiedName" [("qualification", .one qualification), ("id", .one id)]
    [qualification, id]

def generic (id : Address) (args : Option (List Address)) : Building Address :=
  construct "GenericType" [("id", .one id), ("type_args", .maybeMany args)] (id :: args.getD [])

def property (key : PropertyKey) (value : Address) (optional : Bool) (variance : Option Variance)
    (comments : Comments) : Building Address :=
  construct "ObjectTypeProperty" [
    ("key", .plain (.key key)), ("value", .one value), ("optional", .value (.bool optional)),
    ("variance", .value ((variance.map fun w => Json.str w.name).getD .null)),
    ("leading_comments", .plain (.comments comments.leading)),
    ("inner_comments", .plain (.comments comments.inner)),
    ("trailing_comments", .plain (.comments comments.trailing))] [value]

def spread (argument : Address) : Building Address :=
  construct "ObjectTypeSpreadProperty" [("argument", .one argument)] [argument]

def indexer (id : Json) (key value : Address) (variance : Json) : Building Address :=
  construct "ObjectTypeIndexer" [("id", .value id), ("key", .one key), ("value", .one value),
    ("variance", .value variance)] [key, value]

def callProperty (value : Address) (static : Bool) : Building Address :=
  construct "ObjectTypeCallProperty" [("value", .one value), ("static", .value (.bool static))]
    [value]

def object (properties indexers callProperties : List Address) (exact : Bool) : Building Address :=
  construct "ObjectType" [("properties", .many properties), ("indexers", .many indexers),
    ("call_properties", .many callProperties), ("exact", .value (.bool exact))]
    (properties ++ indexers ++ callProperties)

def typeParameter (name : Json) (bound default : Option Address) (variance : Json) :
    Building Address :=
  construct "TypeParameter" [("name", .value name), ("bound", .maybe bound),
    ("default", .maybe default), ("variance", .value variance)] (bound.toList ++ default.toList)

def functionTypeParam (name : Json) (type : Option Address) (optional : Bool) : Building Address :=
  construct "FunctionTypeParam" [("name", .value name), ("type_annotation", .maybe type),
    ("optional", .value (.bool optional))] type.toList

def identifier (name : Json) (type : Option Address) (optional : Bool) : Building Address :=
  construct "Identifier" [("name", .value name), ("type_annotation", .maybe type),
    ("optional", .value (.bool optional))] type.toList

def functionType (params : List Address) (returnType rest : Option Address)
    (typeParams : Option (List Address)) : Building Address :=
  construct "FunctionType" [("params", .many params), ("return_type", .maybe returnType),
    ("rest", .maybe rest), ("type_params", .maybeMany typeParams)]
    (params ++ returnType.toList ++ rest.toList ++ typeParams.getD [])

def functionDeclaration (name : Json) (params : List Address) (returnType rest : Option Address)
    (typeParams : Option (List Address)) : Building Address :=
  construct "FunctionDeclaration" [("name", .value name), ("params", .many params),
    ("return_type", .maybe returnType), ("rest", .maybe rest),
    ("type_params", .maybeMany typeParams)]
    (params ++ returnType.toList ++ rest.toList ++ typeParams.getD [])

/-! ## Readers -/

open Json (Inner required optional flag field?)
open Reader (readKey readName readVariance readComments propertyVariance primitive? literalKind?
  expectText kindOf)

section
variable {node : Json} (below : Inner node → Building Address)

def buildAll (ps : List (Inner node)) : Building (List Address) :=
  ps.mapM below

def buildChild (name : String) : Building Address := do
  below (← required name node)

def buildMaybe : Option (Inner node) → Building (Option Address)
  | none => return none
  | some part => do return some (← below part)

def buildOptional (name : String) : Building (Option Address) := do
  buildMaybe below (← optional name node)

def buildMembers : Option (Inner node) → Building (List Address)
  | none => return []
  | some part => do buildAll below (← part.members)

def buildList (name : String) : Building (List Address) := do
  buildMembers below (← optional name node)

def buildRequiredList (name : String) : Building (List Address) := do
  buildMembers below (some (← required name node))

def buildParams (name : String) : Building (Option (List Address)) := do
  match ← optional name node with
  | none => return none
  | some outer => do
    let params ← required "params" outer.1
    return some (← buildMembers below (some (outer.within params)))

end

def buildTypeName (node : Json) : Building Address := do
  let type ← required "type" node
  if type.1.isText "Identifier" then
    let text ← required "name" node
    name (← expectText text.1)
  else if type.1.isText "QualifiedTypeIdentifier" then
    let q ← required "qualification" node
    let qualification ← buildTypeName q.1
    let i ← required "id" node
    qualifiedName qualification (← buildTypeName i.1)
  else throw (.refused ⟨type.1, .str "Unexpected kind of type name.", none⟩)
termination_by node.depth
decreasing_by
  · exact q.2
  · exact i.2

structure Declared where
  params : List Address
  rest : Option Address

section
variable {node : Json} (below : Inner node → Building Address)

def buildGeneric : Building Address := do
  let args ← buildParams below "typeParameters"
  let id ← required "id" node
  generic (← buildTypeName id.1) args

def buildTuple : Building Address := do
  let field := if (field? "types" node).isSome then "types" else "elementTypes"
  group .tuple (← buildList below field)

def buildObject : Building Address := do
  let properties ← buildList below "properties"
  let indexers ← buildList below "indexers"
  let callProperties ← buildList below "callProperties"
  object properties indexers callProperties (flag "exact" node)

def buildProperty : Building Address := do
  let key ← readKey (← required "key" node).1
  let value ← buildChild below "value"
  let kind ← readVariance node
  let leading ← readComments node "leadingComments"
  let inner ← readComments node "innerComments"
  let trailing ← readComments node "trailingComments"
  let variance ← propertyVariance kind
  property key value (flag "optional" node) variance ⟨leading, inner, trailing⟩

def buildIndexer : Building Address := do
  let id ← readName node "id"
  let key ← buildChild below "key"
  let value ← buildChild below "value"
  indexer id key value (← readVariance node)

def buildFunctionType : Building Address := do
  let params ← buildList below "params"
  let returnType ← buildOptional below "returnType"
  let rest ← buildOptional below "rest"
  functionType params returnType rest (← buildParams below "typeParameters")

def buildFunctionTypeParam : Building Address := do
  let name ← readName node "name"
  let type ← buildOptional below "typeAnnotation"
  functionTypeParam name type (flag "optional" node)

def buildTypeParameter : Building Address := do
  let name ← required "name" node
  let bound ← buildOptional below "bound"
  let default ← buildOptional below "default"
  typeParameter name.1 bound default (← readVariance node)

def buildIdentifier : Building Address := do
  let name ← required "name" node
  let type ← buildOptional below "typeAnnotation"
  identifier name.1 type (flag "optional" node)

def buildRestElement : Building Address := do
  let argument ← required "argument" node
  let type ← optional "type" argument.1
  unless type.any fun t => t.1.isText "Identifier" do
    throw (.refused ⟨.str "RestElement",
      .str "Only a plain name may follow the dots in a rest parameter.", none⟩)
  let own := field? "typeAnnotation" node
  let inner := (field? "typeAnnotation" argument.1).map argument.within
  let chosen := if own.any fun t => t.1.truthy then own else inner
  let name ← required "name" argument.1
  let type ← buildMaybe below (chosen.filter fun t => !t.1.isNull)
  identifier name.1 type false

def buildDeclaredParam (done : Declared) (param : Inner node) : Building Declared := do
  let type ← optional "type" param.1
  if type.any fun t => t.1.isText "RestElement" then
    return { done with rest := some (← below param) }
  else if type.any fun t => t.1.isText "Identifier" then
    return { done with params := done.params ++ [← below param] }
  else
    let kind := ((field? "type" param.1).map (·.1)).getD (.str "?")
    throw (.refused ⟨kind, .str "Only plain parameters are translated, not patterns.", none⟩)

def buildDeclaredParams : Building Declared := do
  match ← optional "params" node with
  | none => return ⟨[], none⟩
  | some list => (← list.members).foldlM (buildDeclaredParam below) ⟨[], none⟩

def buildFunctionDeclaration : Building Address := do
  let declared ← buildDeclaredParams below
  let name ← readName node "id"
  let returnType ← buildOptional below "returnType"
  let typeParams ← buildParams below "typeParameters"
  functionDeclaration name declared.params returnType declared.rest typeParams

def buildNamed (kind : String) : Building Address :=
  match primitive? kind, literalKind? kind with
  | some which, _ => primitive which
  | _, some k => do literal k (← required "value" node).1
  | none, none =>
    match kind with
    | "TypeAnnotation" => buildChild below "typeAnnotation"
    | "ArrayTypeAnnotation" => do array (← buildChild below "elementType")
    | "TupleTypeAnnotation" => buildTuple below
    | "UnionTypeAnnotation" => do group .union (← buildRequiredList below "types")
    | "IntersectionTypeAnnotation" => do group .intersection (← buildRequiredList below "types")
    | "NullableTypeAnnotation" => do nullable (← buildChild below "typeAnnotation")
    | "TypeofTypeAnnotation" => do typeof (← buildChild below "argument")
    | "GenericTypeAnnotation" => buildGeneric below
    | "ObjectTypeAnnotation" => buildObject below
    | "ObjectTypeProperty" => buildProperty below
    | "ObjectTypeSpreadProperty" => do spread (← buildChild below "argument")
    | "ObjectTypeIndexer" => buildIndexer below
    | "ObjectTypeCallProperty" => do callProperty (← buildChild below "value") (flag "static" node)
    | "FunctionTypeAnnotation" => buildFunctionType below
    | "FunctionTypeParam" => buildFunctionTypeParam below
    | "TypeParameter" => buildTypeParameter below
    | "Identifier" => buildIdentifier below
    | "RestElement" => buildRestElement below
    | "FunctionDeclaration" => buildFunctionDeclaration below
    | _ => throw (.noCounterpart kind none)

def buildKind (kind : Text) : Building Address :=
  match kind.string? with
  | some name => buildNamed below name
  | none => throw (.noCounterpart kind none)

end

end Building

def build (node : Json) : Building Address := do
  let kind ← Reader.kindOf node
  Building.buildKind (fun part : Json.Inner node => build part.1) kind
termination_by node.depth
decreasing_by exact part.2

end Reannotate.Flow
