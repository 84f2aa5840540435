import Reannotate.TypeScript.Basic

/-!
# Nodes as text

`Node.text` shows a node about as one would type it, for people to read. `Node.render` may also
answer a bare name that is no text; most places where such a name could stand refuse it.
-/

namespace Reannotate.TypeScript

def doubleQuoted (s : Text) : Text :=
  let body := s.flatMap fun p =>
    if p = .char '\\' || p = .char '"' then [.char '\\', p] else [p]
  .char '"' :: (body ++ [.char '"'])

def literalSpelling : Scalar → Text
  | .bool true => "true"
  | .bool false => "false"
  | .str s => doubleQuoted s
  | v => v.spelled

def expectText : Scalar → Except Fault Text
  | .str s => .ok s
  | _ => .error .notText

def joined (separator : Text) (items : List Scalar) : Except Fault Text := do
  return Text.join separator (← items.mapM expectText)

def EntityName.text : EntityName → Text
  | .plain n => n
  | .qualified l r => l.plain ++ "." ++ r.plain

/-- A key without quotes shows its text as it is, so it has to have one. -/
def PropertyKey.display (k : PropertyKey) : Except Fault Text :=
  if k.quoted.truthy then .ok k.text.spelled else expectText k.text

/-- A name with something after it has to be a text; one that stands alone can be anything. -/
def extended (name : Scalar) : Option Text → Except Fault Scalar
  | none => .ok name
  | some s => do return .str ((← expectText name) ++ s)

def mark (optional : Bool) : Text :=
  if optional then "?" else ""

def grouped : Grouping → List Scalar → Except Fault Text
  | .tuple, items => do return "[" ++ (← joined ", " items) ++ "]"
  | .union, items => do return "(" ++ (← joined " | " items) ++ ")"
  | .intersection, items => do return "(" ++ (← joined " & " items) ++ ")"

mutual

def Node.render : Node → Except Fault Scalar
  | .bare _ => .error .abstractNode
  | .hole => .error .noSuchPart
  | .keyword n => .ok n
  | .this => .ok (.str "this")
  | .literal v => .ok (.str (literalSpelling v))
  | .reference n as => do
    let args ← renderArgs as
    return .str (n.text ++ args)
  | .operator o t => do
    let type ← t.render
    return .str (o.name ++ " " ++ type.plain)
  | .access o i => do
    let object ← o.render
    let index ← i.render
    return .str (object.plain ++ "[" ++ index.plain ++ "]")
  | .array e => do
    let element ← e.render
    return .str ("(" ++ element.plain ++ ")[]")
  | .group g ts => do
    let items ← renderEach ts
    return .str (← grouped g items)
  | .property k t o r _ => do
    let type ← renderAfter ": " t
    let key ← k.display
    return .str ((if r then "readonly " else "") ++ key ++ mark o ++ type.getD "")
  | .index n k t => do
    let key ← renderNeeded k
    let type ← renderNeeded t
    return .str ("[" ++ n.plain ++ ": " ++ key.plain ++ "]: " ++ type.plain)
  | .object ms => do
    let items ← renderEach ms
    return .str ("\x7b" ++ (← joined "; " items) ++ "\x7d")
  | .typeParameter n c d => do
    let constraint ← renderAfter " extends " c
    let name ← extended n constraint
    let default ← renderAfter " = " d
    extended name default
  | .parameter n t o => do
    let name ← expectText n
    let type ← renderAfter ": " t
    return .str (name ++ mark o ++ type.getD "")
  | .rest n t => do
    let name ← expectText n
    let type ← renderAfter ": " t
    return .str ("..." ++ name ++ type.getD "")
  | .function ts ps r => do
    let result ← renderResult r
    let typeParams ← renderArgs ts
    let params ← renderEach ps
    let params ← joined ", " params
    return .str (typeParams ++ "(" ++ params ++ ") => " ++ result)

def renderEach : List Node → Except Fault (List Scalar)
  | [] => .ok []
  | n :: rest => do
    let s ← n.render
    return s :: (← renderEach rest)

def renderArgs : Option (List Node) → Except Fault Text
  | none | some [] => .ok ""
  | some ns => do
    let items ← renderEach ns
    return "<" ++ (← joined ", " items) ++ ">"

def renderAfter (before : Text) : Option Node → Except Fault (Option Text)
  | none => .ok none
  | some n => do
    let s ← n.render
    return some (before ++ (← expectText s))

def renderNeeded : Option Node → Except Fault Scalar
  | none => .error .noSuchPart
  | some n => n.render

def renderResult : Option Node → Except Fault Text
  | none => .ok "void"
  | some n => do
    let s ← n.render
    return s.plain

end

def Node.text (n : Node) : Except Fault Text :=
  match n with
  | .hole => .ok Scalar.null.spelled
  | _ =>
    match n.render with
    | .ok (.str s) => .ok s
    | .ok _ => .error (.violated none)
    | .error e => .error e

def Node.visitable : Node → Except Fault Unit
  | .bare _ => .error .abstractNode
  | .hole => .error .noSuchPart
  | _ => .ok ()

end Reannotate.TypeScript
