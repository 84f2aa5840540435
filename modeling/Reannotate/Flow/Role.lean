import Reannotate.Flow.Part

/-!
# Roles

Where a type sits decides what a nullable type there means. A role is handed down from whoever
opens a slot; `roleOf` finds the same from the trail of a phrase, by way of the nearest phrase
around it that is more than a type made of types.
-/

namespace Reannotate.Flow

/-- The kind of slot a type sits in, with flags of type `α` where something may be left off. -/
inductive Role (α : Type)
  | returnType
  | parameter (optional allFollowingOptional : α)
  | property (optional : α)
  | other
  deriving DecidableEq

namespace Role

def optionality {α : Type} : Role α → Option α
  | .parameter o _ | .property o => some o
  | .returnType | .other => none

/-- Whether the target language lets a value in this slot be missing anyway. -/
def allowsAbsence (p : Role Bool) : Bool :=
  p.optionality.getD false

def map {α β : Type} (f : α → β) : Role α → Role β
  | .returnType => .returnType
  | .parameter o a => .parameter (f o) (f a)
  | .property o => .property (f o)
  | .other => .other

end Role

/-- The role of each parameter in turn, given which are optional, and whether all are. Going from
the last to the first, the second flag of a role is what is known so far of those after it. -/
def rolesAndAll (flags : List Bool) : List (Role Bool) × Bool :=
  flags.foldr (fun o later => (.parameter o later.2 :: later.1, later.2 && o)) ([], true)

def parameterRoles (flags : List Bool) : List (Role Bool) :=
  (rolesAndAll flags).1

namespace Phrase

def optional? : Phrase → Option Bool
  | .property _ _ _ o _ _ | .parameter _ _ _ _ o => some o
  | _ => none

/-- Whether the phrase leaves the role of its parts to what is around it. -/
def passesThrough : Phrase → Bool
  | .group _ _ _ | .array _ _ | .typeof _ _ | .nullable _ _ | .callable _ .ofType _ _ _ _
  | .parameter _ .declared _ _ _ => true
  | _ => false

end Phrase

def declaredRole (params : List Phrase) (slot : Slot) : Role Bool :=
  if slot.field = "return_type" then .returnType
  else if slot.field = "params" then
    let flags := params.map fun p => p.optional?.getD false
    ((slot.index.bind fun i => (parameterRoles flags)[i]?).getD .other)
  else .other

def roleOf : List Frame → Role Bool
  | [] => .other
  | ⟨p, slot⟩ :: rest =>
    if p.passesThrough then roleOf rest
    else match p with
      | .callable _ (.declared _) params _ _ _ => declaredRole params slot
      | .property _ _ _ o _ _ => .property o
      | _ => .other

end Reannotate.Flow
