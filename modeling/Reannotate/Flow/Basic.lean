import Reannotate.Grouping
import Reannotate.Json.Basic

/-!
# Flow phrases

The tree of a Flow annotation. Everything a parser may hand over in the place of a type is a
`Phrase`, so a tree can be out of place in any slot: it is up to those who walk it what they accept
there. Names, literal values and comments are kept as the document has them.
-/

namespace Reannotate.Flow

/-- An end of a span: an offset, which a document may also give as a truth value. -/
inductive Bound
  | int (n : Int)
  | bool (b : Bool)
  deriving DecidableEq

def Bound.offset : Bound → Int
  | .int n => n
  | .bool b => if b then 1 else 0

structure Span where
  start : Bound
  stop : Bound
  deriving DecidableEq

structure Comment where
  value : Json
  block : Bool

structure Comments where
  leading : List Comment
  inner : List Comment
  trailing : List Comment

structure PropertyKey where
  text : Json
  quoted : Bool

inductive Primitive
  | any
  | boolean
  | number
  | string
  | void
  | mixed
  | empty
  | exists
  | this
  | null
  deriving DecidableEq

inductive LiteralKind
  | boolean
  | number
  | string
  deriving DecidableEq

inductive Variance
  | plus
  | minus
  deriving DecidableEq

/-- A parameter stands in a function type, or is declared by a name. -/
inductive ParameterForm
  | ofType
  | declared
  deriving DecidableEq

/-- A signature is a type of its own, or belongs to a declared function. -/
inductive CallableForm
  | ofType
  | declared (name : Json)

inductive TypeName
  | plain (span : Option Span) (text : Text)
  | qualified (span : Option Span) (qualification id : TypeName)

def TypeName.depth : TypeName → Nat
  | .plain _ _ => 0
  | .qualified _ q _ => q.depth + 1

def TypeName.span : TypeName → Option Span
  | .plain s _ => s
  | .qualified s _ _ => s

inductive Phrase
  | typeName (name : TypeName)
  | primitive (span : Option Span) (which : Primitive)
  | literal (span : Option Span) (kind : LiteralKind) (value : Json)
  | array (span : Option Span) (element : Phrase)
  | group (span : Option Span) (grouping : Grouping) (types : List Phrase)
  | nullable (span : Option Span) (type : Phrase)
  | typeof (span : Option Span) (argument : Phrase)
  | generic (span : Option Span) (id : TypeName) (args : Option (List Phrase))
  | property (span : Option Span) (key : PropertyKey) (value : Phrase) (optional : Bool)
      (variance : Option Variance) (comments : Comments)
  | spread (span : Option Span) (argument : Phrase)
  | indexer (span : Option Span) (id : Json) (key value : Phrase) (variance : Json)
  | callProperty (span : Option Span) (value : Phrase) (static : Bool)
  | object (span : Option Span) (properties indexers callProperties : List Phrase) (exact : Bool)
  | typeParameter (span : Option Span) (name : Json) (bound default : Option Phrase)
      (variance : Json)
  | parameter (span : Option Span) (form : ParameterForm) (name : Json) (type : Option Phrase)
      (optional : Bool)
  | callable (span : Option Span) (form : CallableForm) (params : List Phrase)
      (returnType rest : Option Phrase) (typeParams : Option (List Phrase))

namespace Phrase

def span : Phrase → Option Span
  | .typeName n => n.span
  | .primitive s _ | .literal s _ _ | .array s _ | .group s _ _ | .nullable s _ | .typeof s _
  | .generic s _ _ | .property s _ _ _ _ _ | .spread s _ | .indexer s _ _ _ _
  | .callProperty s _ _ | .object s _ _ _ _ | .typeParameter s _ _ _ _ | .parameter s _ _ _ _
  | .callable s _ _ _ _ _ => s

def withSpan (s : Option Span) : Phrase → Phrase
  | .typeName (.plain _ t) => .typeName (.plain s t)
  | .typeName (.qualified _ q i) => .typeName (.qualified s q i)
  | .primitive _ w => .primitive s w
  | .literal _ k v => .literal s k v
  | .array _ e => .array s e
  | .group _ g ts => .group s g ts
  | .nullable _ t => .nullable s t
  | .typeof _ a => .typeof s a
  | .generic _ i as => .generic s i as
  | .property _ k v o w c => .property s k v o w c
  | .spread _ a => .spread s a
  | .indexer _ i k v w => .indexer s i k v w
  | .callProperty _ v st => .callProperty s v st
  | .object _ ps is cs x => .object s ps is cs x
  | .typeParameter _ n b d w => .typeParameter s n b d w
  | .parameter _ f n t o => .parameter s f n t o
  | .callable _ f ps r rest ts => .callable s f ps r rest ts

def orSpan (p : Phrase) (s : Option Span) : Phrase :=
  if p.span.isNone then p.withSpan s else p

theorem span_withSpan (s : Option Span) (p : Phrase) : (p.withSpan s).span = s := by
  cases p with
  | typeName n => cases n <;> rfl
  | _ => rfl

end Phrase

def Primitive.kind : Primitive → String
  | .any => "AnyType"
  | .boolean => "BooleanType"
  | .number => "NumberType"
  | .string => "StringType"
  | .void => "VoidType"
  | .mixed => "MixedType"
  | .empty => "EmptyType"
  | .exists => "ExistsType"
  | .this => "ThisType"
  | .null => "NullLiteral"

def LiteralKind.kind : LiteralKind → String
  | .boolean => "BooleanLiteral"
  | .number => "NumberLiteral"
  | .string => "StringLiteral"

def groupKind : Grouping → String
  | .tuple => "TupleType"
  | .union => "UnionType"
  | .intersection => "IntersectionType"

def TypeName.kind : TypeName → String
  | .plain _ _ => "Name"
  | .qualified _ _ _ => "QualifiedName"

def Phrase.kind : Phrase → String
  | .typeName n => n.kind
  | .primitive _ w => w.kind
  | .literal _ k _ => k.kind
  | .array _ _ => "ArrayType"
  | .group _ g _ => groupKind g
  | .nullable _ _ => "NullableType"
  | .typeof _ _ => "TypeofType"
  | .generic _ _ _ => "GenericType"
  | .property _ _ _ _ _ _ => "ObjectTypeProperty"
  | .spread _ _ => "ObjectTypeSpreadProperty"
  | .indexer _ _ _ _ _ => "ObjectTypeIndexer"
  | .callProperty _ _ _ => "ObjectTypeCallProperty"
  | .object _ _ _ _ _ => "ObjectType"
  | .typeParameter _ _ _ _ _ => "TypeParameter"
  | .parameter _ .ofType _ _ _ => "FunctionTypeParam"
  | .parameter _ .declared _ _ _ => "Identifier"
  | .callable _ .ofType _ _ _ _ => "FunctionType"
  | .callable _ (.declared _) _ _ _ _ => "FunctionDeclaration"

end Reannotate.Flow
