import Reannotate.TypeScript.Basic
import Reannotate.Text.Case

/-!
# Nodes as documents

`Node.toJson` writes a node as the syntax tree in JSON that Babel's printer takes. What is absent is
null; comment lists that are empty are left out.
-/

namespace Reannotate.TypeScript

def tagged (type : Text) (fields : List (Text × Json)) : Json :=
  .object (("type", .str type) :: fields)

def identifierWith (name : Scalar) (fields : List (Text × Json)) : Json :=
  tagged "Identifier" (("name", .scalar name) :: fields)

def identifier (name : Scalar) : Json :=
  identifierWith name []

def Comment.toJson (c : Comment) : Json :=
  tagged (if c.block.truthy then "CommentBlock" else "CommentLine") [("value", .scalar c.value)]

def commentsField (name : String) (cs : List Comment) : List (Text × Json) :=
  if cs.isEmpty then [] else [(name, .array (cs.map Comment.toJson))]

def Comments.fields (c : Comments) : List (Text × Json) :=
  commentsField "leadingComments" c.leading ++ commentsField "innerComments" c.inner ++
    commentsField "trailingComments" c.trailing

def PropertyKey.toJson (k : PropertyKey) : Json :=
  if k.quoted.truthy then tagged "StringLiteral" [("value", .scalar k.text)]
  else identifier k.text

def EntityName.toJson : EntityName → Json
  | .plain n => identifier (.str n)
  | .qualified l r => tagged "TSQualifiedName" [("left", identifier l), ("right", identifier r)]

def literalTag : Scalar → String
  | .bool _ => "BooleanLiteral"
  | .str _ => "StringLiteral"
  | _ => "NumericLiteral"

def groupTag : Grouping → String
  | .tuple => "TSTupleType"
  | .union => "TSUnionType"
  | .intersection => "TSIntersectionType"

def groupField : Grouping → String
  | .tuple => "elementTypes"
  | .union | .intersection => "types"

/-- A keyword is part of the name of its node type, so it has to be a text. -/
def keywordTag : Scalar → Except Fault Text
  | .str s => .ok ("TS" ++ Text.capitalize s ++ "Keyword")
  | _ => .error .noSuchPart

def slotType (type : Json) : Json :=
  tagged "TSTypeAnnotation" [("typeAnnotation", type)]

mutual

def Node.toJson : Node → Except Fault Json
  | .bare _ => .error .abstractNode
  | .hole => .error .noSuchPart
  | .keyword n => do return tagged (← keywordTag n) []
  | .this => .ok (tagged "TSThisType" [])
  | .literal v => .ok (tagged "TSLiteralType"
      [("literal", tagged (literalTag v) [("value", .scalar v)])])
  | .reference n as => do
    let args ← jsonMany "TSTypeParameterInstantiation" as
    return tagged "TSTypeReference" [("typeName", n.toJson), ("typeParameters", args)]
  | .operator o t => do
    let type ← t.toJson
    return tagged "TSTypeOperator" [("operator", .str o.name), ("typeAnnotation", type)]
  | .access o i => do
    let object ← o.toJson
    let index ← i.toJson
    return tagged "TSIndexedAccessType" [("objectType", object), ("indexType", index)]
  | .array e => do return tagged "TSArrayType" [("elementType", ← e.toJson)]
  | .group g ts => do return tagged (groupTag g) [(groupField g, .array (← jsonEach ts))]
  | .property k t o r c => do
    let type ← jsonSlot t
    return tagged "TSPropertySignature"
      (("key", k.toJson) :: ("computed", .bool false) :: ("optional", .bool o) ::
        ("readonly", .bool r) :: ("typeAnnotation", type) :: c.fields)
  | .index n k t => do
    let key ← jsonSlot k
    let type ← jsonSlot t
    return tagged "TSIndexSignature" [
      ("parameters", .array [identifierWith n [("typeAnnotation", key)]]),
      ("typeAnnotation", type)]
  | .object ms => do return tagged "TSTypeLiteral" [("members", .array (← jsonEach ms))]
  | .typeParameter n c d => do
    let constraint ← jsonMaybe c
    let default ← jsonMaybe d
    return tagged "TSTypeParameter"
      [("name", .scalar n), ("constraint", constraint), ("default", default)]
  | .parameter n t o => do
    let type ← jsonSlot t
    return identifierWith n [("optional", .bool o), ("typeAnnotation", type)]
  | .rest n t => do
    let type ← jsonSlot t
    return tagged "RestElement" [("argument", identifier n), ("typeAnnotation", type)]
  | .function ts ps r => do
    let typeParams ← jsonMany "TSTypeParameterDeclaration" ts
    let params ← jsonEach ps
    let result ← jsonSlot r
    return tagged "TSFunctionType"
      [("typeParameters", typeParams), ("parameters", .array params), ("typeAnnotation", result)]

def jsonEach : List Node → Except Fault (List Json)
  | [] => .ok []
  | n :: rest => do
    let j ← n.toJson
    return j :: (← jsonEach rest)

def jsonMaybe : Option Node → Except Fault Json
  | none => .ok .null
  | some n => n.toJson

def jsonSlot : Option Node → Except Fault Json
  | none => .ok .null
  | some n => do return slotType (← n.toJson)

def jsonMany (type : String) : Option (List Node) → Except Fault Json
  | none => .ok .null
  | some ns => do return tagged type [("params", .array (← jsonEach ns))]

end

end Reannotate.TypeScript
