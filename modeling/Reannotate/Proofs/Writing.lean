import Reannotate.Proofs.Everywhere
import Reannotate.Proofs.Lookup

/-!
# Writing phrases as nodes

`Phrase.document` is a node to read a phrase from. Parts that are missing are null, so that each
type of nodes always has the same fields; only the rest parameter of a declared function stands
among the others, as the last.
-/

namespace Reannotate.Flow

def Bound.document : Bound → Json
  | .int n => .int n
  | .bool b => .bool b

def startOf : Option Span → Json
  | none => .null
  | some s => s.start.document

def stopOf : Option Span → Json
  | none => .null
  | some s => s.stop.document

def objectOf (fields : List (String × Json)) : Json :=
  .object (fields.map fun f => (Text.ofString f.1, f.2))

def nodeOf (kind : String) (span : Option Span) (fields : List (String × Json)) : Json :=
  objectOf (("type", .str kind) :: ("start", startOf span) :: ("end", stopOf span) :: fields)

def Primitive.nodeType : Primitive → String
  | .any => "AnyTypeAnnotation"
  | .boolean => "BooleanTypeAnnotation"
  | .number => "NumberTypeAnnotation"
  | .string => "StringTypeAnnotation"
  | .void => "VoidTypeAnnotation"
  | .mixed => "MixedTypeAnnotation"
  | .empty => "EmptyTypeAnnotation"
  | .exists => "ExistsTypeAnnotation"
  | .this => "ThisTypeAnnotation"
  | .null => "NullLiteralTypeAnnotation"

def LiteralKind.nodeType : LiteralKind → String
  | .boolean => "BooleanLiteralTypeAnnotation"
  | .number => "NumberLiteralTypeAnnotation"
  | .string => "StringLiteralTypeAnnotation"

def groupNodeType : Grouping → String
  | .tuple => "TupleTypeAnnotation"
  | .union => "UnionTypeAnnotation"
  | .intersection => "IntersectionTypeAnnotation"

def TypeName.document : TypeName → Json
  | .plain s t => nodeOf "Identifier" s [("name", .str t)]
  | .qualified s q i =>
    nodeOf "QualifiedTypeIdentifier" s [("qualification", q.document), ("id", i.document)]

def PropertyKey.document (k : PropertyKey) : Json :=
  if k.quoted then nodeOf "StringLiteral" none [("value", k.text)]
  else nodeOf "Identifier" none [("name", k.text)]

def Comment.document (c : Comment) : Json :=
  nodeOf (if c.block then "CommentBlock" else "CommentLine") none [("value", c.value)]

def commentsDocument (cs : List Comment) : Json :=
  .array (cs.map Comment.document)

def nameDocument (name : Json) : Json :=
  objectOf [("name", name)]

def varianceDocument (kind : Json) : Json :=
  objectOf [("kind", kind)]

def paramsDocument (params : List Json) : Json :=
  objectOf [("params", .array params)]

mutual

def Phrase.document : Phrase → Json
  | .typeName n => n.document
  | .primitive s w => nodeOf w.nodeType s []
  | .literal s k v => nodeOf k.nodeType s [("value", v)]
  | .array s e => nodeOf "ArrayTypeAnnotation" s [("elementType", e.document)]
  | .group s g ts => nodeOf (groupNodeType g) s [("types", .array (documentEach ts))]
  | .nullable s t => nodeOf "NullableTypeAnnotation" s [("typeAnnotation", t.document)]
  | .typeof s a => nodeOf "TypeofTypeAnnotation" s [("argument", a.document)]
  | .generic s i as => nodeOf "GenericTypeAnnotation" s [
      ("id", i.document), ("typeParameters", documentParams as)]
  | .property s k v o w c => nodeOf "ObjectTypeProperty" s [
      ("key", k.document), ("value", v.document), ("optional", .bool o),
      ("variance", varianceDocument ((w.map fun w => Json.str w.name).getD .null)),
      ("leadingComments", commentsDocument c.leading), ("innerComments", commentsDocument c.inner),
      ("trailingComments", commentsDocument c.trailing)]
  | .spread s a => nodeOf "ObjectTypeSpreadProperty" s [("argument", a.document)]
  | .indexer s i k v w => nodeOf "ObjectTypeIndexer" s [
      ("id", nameDocument i), ("key", k.document), ("value", v.document),
      ("variance", varianceDocument w)]
  | .callProperty s v st => nodeOf "ObjectTypeCallProperty" s [
      ("value", v.document), ("static", .bool st)]
  | .object s ps is cs x => nodeOf "ObjectTypeAnnotation" s [
      ("properties", .array (documentEach ps)), ("indexers", .array (documentEach is)),
      ("callProperties", .array (documentEach cs)), ("exact", .bool x)]
  | .typeParameter s n b d w => nodeOf "TypeParameter" s [
      ("name", n), ("bound", documentMaybe b), ("default", documentMaybe d),
      ("variance", varianceDocument w)]
  | .parameter s .ofType n t o => nodeOf "FunctionTypeParam" s [
      ("name", nameDocument n), ("typeAnnotation", documentMaybe t), ("optional", .bool o)]
  | .parameter s .declared n t o => nodeOf "Identifier" s [
      ("name", n), ("typeAnnotation", documentMaybe t), ("optional", .bool o)]
  | .callable s .ofType ps r rest ts => nodeOf "FunctionTypeAnnotation" s [
      ("params", .array (documentEach ps)), ("returnType", documentMaybe r),
      ("rest", documentMaybe rest), ("typeParameters", documentParams ts)]
  | .callable s (.declared n) ps r rest ts => nodeOf "FunctionDeclaration" s [
      ("id", nameDocument n), ("params", .array (documentEach ps ++ documentRest rest)),
      ("returnType", documentMaybe r), ("typeParameters", documentParams ts)]

def documentEach : List Phrase → List Json
  | [] => []
  | p :: ps => p.document :: documentEach ps

def documentMaybe : Option Phrase → Json
  | none => .null
  | some p => p.document

def documentParams : Option (List Phrase) → Json
  | none => .null
  | some ps => paramsDocument (documentEach ps)

/-- The dots stand around the name, and the type hangs at the dots. -/
def documentRest : Option Phrase → List Json
  | some (.parameter s _ n t _) => [nodeOf "RestElement" s [
      ("argument", nodeOf "Identifier" none [("name", n)]), ("typeAnnotation", documentMaybe t)]]
  | _ => []

end

theorem documentEach_eq_map (ps : List Phrase) : documentEach ps = ps.map Phrase.document := by
  induction ps with
  | nil => rfl
  | cons p ps ih => rw [documentEach, ih, List.map_cons]

/-! ## Fields of written nodes -/

theorem lookup_map_ofString (name : String) (fields : List (String × Json)) :
    (fields.map fun f => (Text.ofString f.1, f.2)).lookup (Text.ofString name) =
      fields.lookup name := by
  induction fields with
  | nil => rfl
  | cons f fields ih =>
    have : (Text.ofString name == Text.ofString f.1) = (name == f.1) := by
      rw [Bool.eq_iff_iff, beq_iff_eq, beq_iff_eq, Text.ofString_inj]
    rw [List.map_cons, List.lookup_cons, List.lookup_cons, this, ih]

theorem get?_objectOf (name : String) (fields : List (String × Json)) :
    (objectOf fields).get? name = fields.lookup name :=
  lookup_map_ofString name fields

theorem get?_nodeOf (name kind : String) (s : Option Span) (fields : List (String × Json)) :
    (nodeOf kind s fields).get? name =
      (("type", .str kind) :: ("start", startOf s) :: ("end", stopOf s) :: fields).lookup name :=
  get?_objectOf name _

theorem hasType_nodeOf (kind : String) (s : Option Span) (fields : List (String × Json)) :
    (nodeOf kind s fields).HasType kind :=
  get?_nodeOf "type" kind s fields

theorem Bound.bound?_document (b : Bound) : Reader.bound? b.document = some b := by
  cases b <;> rfl

theorem span?_nodeOf (kind : String) (s : Option Span) (fields : List (String × Json)) :
    Reader.span? (nodeOf kind s fields) = s := by
  have start : (nodeOf kind s fields).get? "start" = some (startOf s) := get?_nodeOf _ _ _ _
  have stop : (nodeOf kind s fields).get? "end" = some (stopOf s) := get?_nodeOf _ _ _ _
  rw [Reader.span?_eq, start, stop]
  cases s with
  | none => rfl
  | some s => simp [startOf, stopOf, Bound.bound?_document]

end Reannotate.Flow
