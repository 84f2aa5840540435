import Reannotate.Json.Inner

/-!
# Reading phrases

A syntax tree as Babel writes it in JSON: an object for each node, which names its type. `read`
makes a phrase of a node and all below it. Wrappers of type `TypeAnnotation` leave no trace but
their span, for a phrase that has none of its own. The order of look-ups is part of the contract,
because the first that fails settles the fault.

Each node type has a small reader; the reader of the nodes below is handed to it.
-/

namespace Reannotate.Flow.Reader

open Json (Inner required optional flag field?)

abbrev Below (node : Json) := Inner node → Except Fault Phrase

def bound? : Json → Option Bound
  | .scalar (.int n) => some (.int n)
  | .scalar (.bool b) => some (.bool b)
  | _ => none

def span? (node : Json) : Option Span := do
  let start ← bound? (← field? "start" node).1
  let stop ← bound? (← field? "end" node).1
  return ⟨start, stop⟩

section
variable {node : Json} (below : Below node)

def readAll (ps : List (Inner node)) : Except Fault (List Phrase) :=
  ps.mapM below

def readChild (name : String) : Except Fault Phrase := do
  below (← required name node)

def readMaybe : Option (Inner node) → Except Fault (Option Phrase)
  | none => .ok none
  | some part => do return some (← below part)

def readOptional (name : String) : Except Fault (Option Phrase) := do
  readMaybe below (← optional name node)

def readMembers : Option (Inner node) → Except Fault (List Phrase)
  | none => .ok []
  | some part => do readAll below (← part.members)

def readList (name : String) : Except Fault (List Phrase) := do
  readMembers below (← optional name node)

def readRequiredList (name : String) : Except Fault (List Phrase) := do
  readMembers below (some (← required name node))

/-- The list of parameters or arguments that hangs, one level down, in an optional field. -/
def readParams (name : String) : Except Fault (Option (List Phrase)) := do
  match ← optional name node with
  | none => return none
  | some outer => do
    let params ← required "params" outer.1
    return some (← readMembers below (some (outer.within params)))

end

def expectText (j : Json) : Except Fault Text :=
  match j.text? with
  | some s => .ok s
  | none => .error (.violated none)

def readTypeName (node : Json) : Except Fault TypeName := do
  let type ← required "type" node
  if type.1.isText "Identifier" then
    let name ← required "name" node
    return .plain (span? node) (← expectText name.1)
  else if type.1.isText "QualifiedTypeIdentifier" then
    let q ← required "qualification" node
    let qualification ← readTypeName q.1
    let i ← required "id" node
    return .qualified (span? node) qualification (← readTypeName i.1)
  else throw (.refused ⟨type.1, .str "Unexpected kind of type name.", none⟩)
termination_by node.depth
decreasing_by
  · exact q.2
  · exact i.2

def readKey (node : Json) : Except Fault PropertyKey := do
  let type ← required "type" node
  if type.1.isText "Identifier" then
    return ⟨(← required "name" node).1, false⟩
  else if type.1.isText "StringLiteral" then
    return ⟨(← required "value" node).1, true⟩
  else throw (.refused ⟨type.1, .str "Unexpected kind of property key.", none⟩)

def readName (node : Json) (field : String) : Except Fault Json := do
  match ← optional field node with
  | none => return .null
  | some id => return (← required "name" id.1).1

def readVariance (node : Json) : Except Fault Json := do
  match ← optional "variance" node with
  | none => return .null
  | some v => return (← required "kind" v.1).1

def readComment (node : Json) : Except Fault Comment := do
  let value ← required "value" node
  let type ← optional "type" node
  return ⟨value.1, !(type.any fun t => t.1.isText "CommentLine")⟩

def readComments (node : Json) (field : String) : Except Fault (List Comment) := do
  match ← optional field node with
  | none => return []
  | some list => (← list.members).mapM fun c => readComment c.1

def propertyVariance (kind : Json) : Except Fault (Option Variance) :=
  if kind.isNull then .ok none
  else if kind.isText "plus" then .ok (some .plus)
  else if kind.isText "minus" then .ok (some .minus)
  else .error (.violated kind.text?)

structure Declared where
  params : List Phrase
  rest : Option Phrase

section
variable {node : Json} (below : Below node)

def readGeneric : Except Fault Phrase := do
  let args ← readParams below "typeParameters"
  let id ← required "id" node
  return .generic none (← readTypeName id.1) args

def readTuple : Except Fault Phrase := do
  let field := if (field? "types" node).isSome then "types" else "elementTypes"
  return .group none .tuple (← readList below field)

def readObject : Except Fault Phrase := do
  let properties ← readList below "properties"
  let indexers ← readList below "indexers"
  let callProperties ← readList below "callProperties"
  return .object none properties indexers callProperties (flag "exact" node)

def readProperty : Except Fault Phrase := do
  let key ← readKey (← required "key" node).1
  let value ← readChild below "value"
  let kind ← readVariance node
  let leading ← readComments node "leadingComments"
  let inner ← readComments node "innerComments"
  let trailing ← readComments node "trailingComments"
  let variance ← propertyVariance kind
  return .property none key value (flag "optional" node) variance ⟨leading, inner, trailing⟩

def readIndexer : Except Fault Phrase := do
  let id ← readName node "id"
  let key ← readChild below "key"
  let value ← readChild below "value"
  return .indexer none id key value (← readVariance node)

def readFunctionType : Except Fault Phrase := do
  let params ← readList below "params"
  let returnType ← readOptional below "returnType"
  let rest ← readOptional below "rest"
  return .callable none .ofType params returnType rest (← readParams below "typeParameters")

def readFunctionTypeParam : Except Fault Phrase := do
  let name ← readName node "name"
  let type ← readOptional below "typeAnnotation"
  return .parameter none .ofType name type (flag "optional" node)

def readTypeParameter : Except Fault Phrase := do
  let name ← required "name" node
  let bound ← readOptional below "bound"
  let default ← readOptional below "default"
  return .typeParameter none name.1 bound default (← readVariance node)

def readIdentifier : Except Fault Phrase := do
  let name ← required "name" node
  let type ← readOptional below "typeAnnotation"
  return .parameter none .declared name.1 type (flag "optional" node)

/-- The type of a rest parameter hangs at the element or at the name that follows the dots. -/
def readRestElement : Except Fault Phrase := do
  let argument ← required "argument" node
  let type ← optional "type" argument.1
  unless type.any fun t => t.1.isText "Identifier" do
    throw (.refused ⟨.str "RestElement",
      .str "Only a plain name may follow the dots in a rest parameter.", none⟩)
  let own := field? "typeAnnotation" node
  let inner := (field? "typeAnnotation" argument.1).map argument.within
  let chosen := if own.any fun t => t.1.truthy then own else inner
  let name ← required "name" argument.1
  let type ← readMaybe below (chosen.filter fun t => !t.1.isNull)
  return .parameter none .declared name.1 type false

def readDeclaredParam (done : Declared) (param : Inner node) : Except Fault Declared := do
  let type ← optional "type" param.1
  if type.any fun t => t.1.isText "RestElement" then
    return { done with rest := some (← below param) }
  else if type.any fun t => t.1.isText "Identifier" then
    return { done with params := done.params ++ [← below param] }
  else
    let kind := ((field? "type" param.1).map (·.1)).getD (.str "?")
    throw (.refused ⟨kind, .str "Only plain parameters are translated, not patterns.", none⟩)

def readFunctionDeclaration : Except Fault Phrase := do
  let list ← optional "params" node
  let params ← match list with
    | none => pure []
    | some list => list.members
  let declared ← params.foldlM (readDeclaredParam below) ⟨[], none⟩
  let name ← readName node "id"
  let returnType ← readOptional below "returnType"
  let typeParams ← readParams below "typeParameters"
  return .callable none (.declared name) declared.params returnType declared.rest typeParams

end

def primitive? : String → Option Primitive
  | "AnyTypeAnnotation" => some .any
  | "BooleanTypeAnnotation" => some .boolean
  | "NumberTypeAnnotation" => some .number
  | "StringTypeAnnotation" => some .string
  | "VoidTypeAnnotation" => some .void
  | "MixedTypeAnnotation" => some .mixed
  | "EmptyTypeAnnotation" => some .empty
  | "ExistsTypeAnnotation" => some .exists
  | "ThisTypeAnnotation" => some .this
  | "NullLiteralTypeAnnotation" => some .null
  | _ => none

def literalKind? : String → Option LiteralKind
  | "BooleanLiteralTypeAnnotation" => some .boolean
  | "NumberLiteralTypeAnnotation" => some .number
  | "StringLiteralTypeAnnotation" => some .string
  | _ => none

def readNamed {node : Json} (below : Below node) (kind : String) : Except Fault Phrase :=
  match primitive? kind, literalKind? kind with
  | some which, _ => .ok (.primitive none which)
  | _, some literal => do return .literal none literal (← required "value" node).1
  | none, none =>
    match kind with
    | "TypeAnnotation" => readChild below "typeAnnotation"
    | "ArrayTypeAnnotation" => do return .array none (← readChild below "elementType")
    | "TupleTypeAnnotation" => readTuple below
    | "UnionTypeAnnotation" => do return .group none .union (← readRequiredList below "types")
    | "IntersectionTypeAnnotation" => do
      return .group none .intersection (← readRequiredList below "types")
    | "NullableTypeAnnotation" => do return .nullable none (← readChild below "typeAnnotation")
    | "TypeofTypeAnnotation" => do return .typeof none (← readChild below "argument")
    | "GenericTypeAnnotation" => readGeneric below
    | "ObjectTypeAnnotation" => readObject below
    | "ObjectTypeProperty" => readProperty below
    | "ObjectTypeSpreadProperty" => do return .spread none (← readChild below "argument")
    | "ObjectTypeIndexer" => readIndexer below
    | "ObjectTypeCallProperty" => do
      return .callProperty none (← readChild below "value") (flag "static" node)
    | "FunctionTypeAnnotation" => readFunctionType below
    | "FunctionTypeParam" => readFunctionTypeParam below
    | "TypeParameter" => readTypeParameter below
    | "Identifier" => readIdentifier below
    | "RestElement" => readRestElement below
    | "FunctionDeclaration" => readFunctionDeclaration below
    | _ => .error (.noCounterpart kind none)

/-- A type with halves in its name is none of the known ones. -/
def readKind {node : Json} (below : Below node) (kind : Text) : Except Fault Phrase :=
  match kind.string? with
  | some name => readNamed below name
  | none => .error (.noCounterpart kind none)

def shownLength : Nat := 60

def notANode (j : Json) : Fault :=
  .refused ⟨.str "JSON", .str ("Expected a Babel AST node, but got " ++
    j.spelled.take shownLength), none⟩

def kindOf (node : Json) : Except Fault Text :=
  match field? "type" node with
  | none => .error (notANode node)
  | some type =>
    match type.1.text? with
    | some kind => .ok kind
    | none => .error .notText

end Reader

def read (node : Json) : Except Fault Phrase := do
  let kind ← Reader.kindOf node
  let phrase ← Reader.readKind (fun part : Json.Inner node => read part.1) kind
  return phrase.orSpan (Reader.span? node)
termination_by node.depth
decreasing_by exact part.2

end Reannotate.Flow
