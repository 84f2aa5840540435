import Reannotate.Conversion.Utility
import Reannotate.Flow.Describe
import Reannotate.Flow.Path
import Reannotate.Flow.Role

/-!
# From Flow to TypeScript, with visits

The TypeScript node for a Flow phrase in a given role is built from those of its parts. What loses
information on the way is worth a warning; what has no counterpart is refused, and then there is no
result at all. Roles matter to nullable types alone: `?T` leaves out `undefined` in slots where a
value may be missing anyway.

The order of visits is part of the contract, because warnings, requests for names and the first
fault show it. A `Visitor` says what else is made of each visit.
-/

namespace Reannotate

open Reannotate.Flow (Phrase TypeName Role Slot PropertyKey Comments)
open Reannotate.TypeScript (Node)

namespace Converting

def refuseKind {α : Type} (p : Phrase) : Converting α :=
  throw (.noCounterpart p.kind (some (.phrase p)))

def primitive : Flow.Primitive → Converting Node
  | .any => pure .any
  | .boolean => pure .boolean
  | .number => pure .number
  | .string => pure .string
  | .void => pure .void
  | .mixed => pure .unknown
  | .empty => pure .never
  | .exists => do
    warn .existential
    return .any
  | .this => pure .this
  | .null => pure .null

def literal (kind : Flow.LiteralKind) (value : Json) : Except Fault Node :=
  match kind with
  | .boolean => .ok (.literal (.bool value.truthy))
  | .number | .string => Node.literal? value

/-- The type of a value of type `it` that may also be null, or undefined where that is not plain. -/
def nullable (it : Node) (role : Role Bool) : Node :=
  if role.allowsAbsence then .union [it, .null] else .union [it, .undefined, .null]

def dotted : Text → List Text
  | [] => [[]]
  | p :: rest =>
    if p = .char '.' then [] :: dotted rest
    else match dotted rest with
      | [] => [[p]]
      | part :: parts => (p :: part) :: parts

def referTo (p : Phrase) (name : Text) (args : Option (List Node)) : Converting Node :=
  match dotted name with
  | [left, right] => pure (.reference (.qualified (.str left) (.str right)) args)
  | [] | [_] => pure (.named name args)
  | _ => refuse "QualifiedTypeIdentifier"
      ("Nested qualification is not supported: " ++ name) (.phrase p)

def reference (names : Names) (p : Phrase) (id : TypeName) (args : Option (List Node)) :
    Converting Node :=
  match id with
  | .plain _ name =>
    match Utility.ofName? name with
    | some u => u.apply (.phrase p) args
    | none => do
      let resolved ← names.resolve name
      referTo p resolved args
  | .qualified _ (.plain _ left) (.plain _ right) =>
    pure (.reference (.qualified (.str left) (.str right)) args)
  | .qualified _ (.plain _ _) (.qualified _ _ _) => throw .noSuchPart
  | .qualified _ (.qualified _ _ _) _ =>
    refuse "QualifiedTypeIdentifier" "Nested qualification is not supported." (.phrase p)

def comments (cs : List Flow.Comment) : Except Fault (List TypeScript.Comment) :=
  cs.mapM fun c => TypeScript.comment? c.value (.bool c.block)

def propertySignature (key : PropertyKey) (type : Node) (optional : Bool)
    (variance : Option Flow.Variance) (cs : Comments) : Except Fault Node := do
  let key ← TypeScript.propertyKey? key.text (.bool key.quoted)
  let leading ← comments cs.leading
  let inner ← comments cs.inner
  let trailing ← comments cs.trailing
  return .property key (some type) optional (variance = some .plus) ⟨leading, inner, trailing⟩

def indexName (id : Json) : Json :=
  if id.truthy then id else .str "x"

def nameOf : Phrase → Except Fault Json
  | .parameter _ _ n _ _ | .typeParameter _ n _ _ _ | .callable _ (.declared n) _ _ _ _ => .ok n
  | _ => .error .noSuchPart

def namesInUse (params : List Phrase) : Except Fault (List Json) := do
  return (← params.mapM nameOf).filter fun name => !name.isNull

/-- The name of a parameter, a fresh one if it has none, and the names in use from here on. -/
def nameFor (names : Names) (name : Json) (used : List Json) : Converting (Json × List Json) := do
  if name.isNull then
    let fresh ← askName names used
    return (.str fresh, used ++ [.str fresh])
  else return (name, used)

structure Members where
  members : List Node
  spreads : List Node

/-- An object with spreads is the intersection of what is left and the types spread. -/
def Members.assemble (m : Members) (indexers : List Node) : Node :=
  let literal := Node.object (m.members ++ indexers)
  if m.spreads.isEmpty then literal else .intersection (literal :: m.spreads)

def refuseCalls : List Phrase → Converting Unit
  | [] => pure ()
  | p :: _ => refuse "ObjectTypeCallProperty"
      "Call properties would become TSCallSignatureDeclaration, which is not supported yet."
      (.phrase p)

def signatureRoles (params : List Phrase) : Except Fault (List (Role Bool)) := do
  let flags ← params.mapM fun p =>
    match p.optional? with
    | some o => .ok o
    | none => .error .noSuchPart
  return Flow.parameterRoles flags

end Converting

/-- A way to go through a tree: what is known of the place of a phrase (`τ`), and what is made of
each visit. -/
structure Visitor (τ : Type) (m : Type → Type) where
  /-- A step that visits nothing. -/
  step : {α : Type} → Converting α → m α
  /-- The place of what hangs in a slot of a phrase. -/
  enter : Phrase → Slot → τ → τ
  visit : τ → Phrase → Role Bool → m Node → m Node

namespace Visitor

open Converting

variable {τ : Type} {m : Type → Type}

def under (v : Visitor τ m) (p : Phrase) (field : String) (t : τ) : τ :=
  v.enter p ⟨field, none⟩ t

def underAt (v : Visitor τ m) (p : Phrase) (field : String) (t : τ) (i : Nat) : τ :=
  v.enter p ⟨field, some i⟩ t

mutual

def convert [Monad m] (v : Visitor τ m) (names : Names) (t : τ) (p : Phrase) (role : Role Bool) :
    m Node :=
  v.visit t p role <| match p with
  | .primitive _ w => v.step (primitive w)
  | .literal _ k x => v.step (literal k x)
  | .array _ e => do return .array (← v.convert names (v.under p "element" t) e role)
  | .group _ g ts => do return .group g (← v.convertEach names (v.underAt p "types" t) ts role)
  | .nullable _ q => do
    return nullable (← v.convert names (v.under p "type_annotation" t) q role) role
  | .typeof _ a => do
    return .operator .typeof (← v.convert names (v.under p "argument" t) a role)
  | .generic _ id as => do
    let args ← v.convertArgs names (v.underAt p "type_args" t) as
    v.step (reference names p id args)
  | .object _ ps is cs x => do
    if x then v.step (warn .exactObject)
    let members ← v.convertMembers names (v.underAt p "properties" t) ps
    let indexers ← v.convertIndexers names (v.underAt p "indexers" t) is
    v.step (refuseCalls cs)
    return members.assemble indexers
  | .callable _ .ofType ps r rest ts => do
    let typeParams ← v.convertTypeParams names (v.underAt p "type_params" t) ts
    let used ← v.step (namesInUse ps)
    let params ← v.convertParams names (v.underAt p "params" t) ps (ps.map fun _ => .other) used
    let last ← v.convertRest names (v.under p "rest" t) rest
    let result ← v.convertMaybe names (v.under p "return_type" t) r role
    return .function typeParams (params ++ last) result
  | _ => v.step (refuseKind p)

def convertEach [Monad m] (v : Visitor τ m) (names : Names) (t : Nat → τ) :
    List Phrase → Role Bool → m (List Node)
  | [], _ => pure []
  | p :: rest, role => do
    let node ← v.convert names (t 0) p role
    return node :: (← v.convertEach names (fun i => t (i + 1)) rest role)

def convertMaybe [Monad m] (v : Visitor τ m) (names : Names) (t : τ) :
    Option Phrase → Role Bool → m (Option Node)
  | none, _ => pure none
  | some p, role => do return some (← v.convert names t p role)

def convertArgs [Monad m] (v : Visitor τ m) (names : Names) (t : Nat → τ) :
    Option (List Phrase) → m (Option (List Node))
  | none => pure none
  | some ps => do return some (← v.convertEach names t ps .other)

def convertMembers [Monad m] (v : Visitor τ m) (names : Names) (t : Nat → τ) :
    List Phrase → m Members
  | [] => pure ⟨[], []⟩
  | .property s k x o w c :: rest => do
    let type ← v.convert names (v.under (.property s k x o w c) "value" (t 0)) x (.property o)
    let member ← v.step (propertySignature k type o w c)
    let others ← v.convertMembers names (fun i => t (i + 1)) rest
    return { others with members := member :: others.members }
  | .spread s a :: rest => do
    let spread ← v.convert names (v.under (.spread s a) "argument" (t 0)) a .other
    let others ← v.convertMembers names (fun i => t (i + 1)) rest
    return { others with spreads := spread :: others.spreads }
  | p :: _ => v.step (refuseKind p)

def convertIndexers [Monad m] (v : Visitor τ m) (names : Names) (t : Nat → τ) :
    List Phrase → m (List Node)
  | [] => pure []
  | .indexer s id k x w :: rest => do
    let key ← v.convert names (v.under (.indexer s id k x w) "key" (t 0)) k .other
    let type ← v.convert names (v.under (.indexer s id k x w) "value" (t 0)) x .other
    let member ← v.step (Node.index? (indexName id) (some key) (some type))
    return member :: (← v.convertIndexers names (fun i => t (i + 1)) rest)
  | _ :: _ => v.step (throw .noSuchPart)

def convertParams [Monad m] (v : Visitor τ m) (names : Names) (t : Nat → τ) :
    List Phrase → List (Role Bool) → List Json → m (List Node)
  | .parameter s f n a o :: rest, role :: roles, used => do
    let (name, used) ← v.step (nameFor names n used)
    let place := v.under (.parameter s f n a o) "type_annotation" (t 0)
    let type ← v.convertMaybe names place a role
    let param ← v.step (Node.parameter? name type o)
    return param :: (← v.convertParams names (fun i => t (i + 1)) rest roles used)
  | p :: _, _ :: _, used => do
    let name ← v.step (nameOf p)
    let _ ← v.step (nameFor names name used)
    v.step (throw .noSuchPart)
  | _, _, _ => pure []

/-- The rest parameter of a signature; without a name it is dropped. -/
def convertRest [Monad m] (v : Visitor τ m) (names : Names) (t : τ) : Option Phrase → m (List Node)
  | none => pure []
  | some (.parameter s f n a o) =>
    if n.isNull then pure []
    else do
      let place := v.under (.parameter s f n a o) "type_annotation" t
      let type ← v.convertMaybe names place a .other
      return [← v.step (Node.rest? n type)]
  | some p => do
    let name ← v.step (nameOf p)
    if name.isNull then return [] else v.step (throw .noSuchPart)

def convertTypeParams [Monad m] (v : Visitor τ m) (names : Names) (t : Nat → τ) :
    Option (List Phrase) → m (Option (List Node))
  | none => pure none
  | some ps => do return some (← v.convertEachTypeParam names t ps)

def convertEachTypeParam [Monad m] (v : Visitor τ m) (names : Names) (t : Nat → τ) :
    List Phrase → m (List Node)
  | [] => pure []
  | .typeParameter s n b d w :: rest => do
    let p := Phrase.typeParameter s n b d w
    let bound ← v.convertMaybe names (v.under p "bound" (t 0)) b .other
    let default ← v.convertMaybe names (v.under p "default" (t 0)) d .other
    let param ← v.step (Node.typeParameter? n bound default)
    return param :: (← v.convertEachTypeParam names (fun i => t (i + 1)) rest)
  | _ :: _ => v.step (throw .noSuchPart)

end

def convertSignature [Monad m] (v : Visitor τ m) (names : Names) (t : τ) : Phrase → m Node
  | .callable s form ps r rest ts => do
    let p := Phrase.callable s form ps r rest ts
    let roles ← v.step (signatureRoles ps)
    let typeParams ← v.convertTypeParams names (v.underAt p "type_params" t) ts
    let used ← v.step (namesInUse ps)
    let params ← v.convertParams names (v.underAt p "params" t) ps roles used
    let last ← v.convertRest names (v.under p "rest" t) rest
    let result ← v.convertMaybe names (v.under p "return_type" t) r .returnType
    return .function typeParams (params ++ last) result
  | _ => v.step (throw .noSuchPart)

/-- Converts a part of a tree, in the role it has there unless another is given. A part that is
no phrase has no role of its own and no counterpart. -/
def convertPart [Monad m] (v : Visitor τ m) (names : Names) (t : τ) (found : Flow.Found)
    (role : Option (Role Bool)) : m Node :=
  match found.part, role with
  | .phrase p, _ => v.convert names t p (role.getD (Flow.roleOf found.trail))
  | _, none => v.step (throw .noSuchPart)
  | .value (.scalar .null), some _ => v.step (throw (.noCounterpart found.part.kind none))
  | part, some _ => v.step (throw (.noCounterpart part.kind (some part)))

def convertSignaturePart [Monad m] (v : Visitor τ m) (names : Names) (t : τ) (part : Flow.Part) :
    m Node :=
  match part with
  | .phrase p => v.convertSignature names t p
  | _ => v.step (throw .noSuchPart)

end Visitor

end Reannotate
