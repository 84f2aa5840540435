import Reannotate.Fault

/-!
# Phrases inside messages

A phrase shows the little that tells it from others; the sorts that have nothing short to show give
their kind alone. A key without quotes shows its text as it is, so it has to have one.
-/

namespace Reannotate.Flow

def anonymous (kind : String) : Text :=
  "<flow2ts.flow." ++ kind ++ " object at 0x0>"

def PropertyKey.describe (k : PropertyKey) : Except Fault Text :=
  if k.quoted then .ok k.text.spelled
  else match k.text.text? with
    | some s => .ok s
    | none => .error .notText

def Comment.describe (c : Comment) : Text :=
  "Comment(value=" ++ c.value.spelled ++ ", block=" ++ (Scalar.bool c.block).spelled ++ ")"

def TypeName.describe : TypeName → Text
  | .plain _ t => "<Name " ++ Text.quoted t ++ ">"
  | .qualified _ q i => "<Name " ++ q.describe ++ "." ++ i.describe ++ ">"

def mark (optional : Bool) : Text :=
  if optional then "?" else ""

/-- How a parameter shows its name: a function type's parameter may have none. -/
def parameterName : ParameterForm → Json → Text
  | .ofType, n => if n.truthy then n.plain else ""
  | .declared, n => n.plain

def tuple : List Text → Text
  | [s] => "(" ++ s ++ ",)"
  | ss => "(" ++ Text.join ", " ss ++ ")"

mutual

def Phrase.describe : Phrase → Except Fault Text
  | .typeName n => .ok n.describe
  | .primitive _ w => .ok ("<" ++ w.kind ++ ">")
  | .literal _ k v => .ok ("<" ++ k.kind ++ " " ++ v.spelled ++ ">")
  | .generic _ id args => do
    let shown ← describeArgs args
    return id.describe ++ shown
  | .property _ k v o _ _ => do
    let key ← k.describe
    let value ← v.describe
    return "<" ++ key ++ mark o ++ ": " ++ value ++ ">"
  | .parameter _ form n t o => do
    let shown ← describeMaybe t
    return "<:" ++ parameterName form n ++ mark o ++ ":" ++ shown ++ ">"
  | .callable _ (.declared n) _ _ _ _ => .ok ("<function " ++ n.plain ++ ">")
  | p => .ok (anonymous p.kind)

def describeMaybe : Option Phrase → Except Fault Text
  | none => .ok Scalar.null.spelled
  | some p => p.describe

def describeEach : List Phrase → Except Fault (List Text)
  | [] => .ok []
  | p :: rest => do
    let shown ← p.describe
    return shown :: (← describeEach rest)

def describeArgs : Option (List Phrase) → Except Fault Text
  | none | some [] => .ok ""
  | some ps => do
    let shown ← describeEach ps
    return "[" ++ Text.join ", " shown ++ "]"

end

def Part.describe : Part → Except Fault Text
  | .phrase p => p.describe
  | .phrases ps => do return tuple (← describeEach ps)
  | .key k => k.describe
  | .comments cs => .ok (tuple (cs.map Comment.describe))
  | .comment c => .ok c.describe
  | .value j => .ok j.spelled

def scalarKind : Scalar → String
  | .null => "NoneType"
  | .bool _ => "bool"
  | .int _ => "int"
  | .float _ => "float"
  | .str _ => "str"

def Part.kind : Part → String
  | .phrase p => p.kind
  | .phrases _ | .comments _ => "tuple"
  | .key _ => "PropertyKey"
  | .comment _ => "Comment"
  | .value (.scalar s) => scalarKind s
  | .value (.array _) => "list"
  | .value (.object _) => "dict"

end Reannotate.Flow
