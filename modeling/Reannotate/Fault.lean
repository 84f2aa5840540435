import Reannotate.Flow.Part
import Reannotate.Json.Message

/-!
# Faults

What can go wrong. A refusal is foreseen: it says what cannot be carried over, and where. The others
mean that a document or a tree is not what the code that meets it needs.
-/

namespace Reannotate

structure Refusal where
  kind : Json
  message : Json
  subject : Option Flow.Part

def Refusal.text (r : Refusal) : Text :=
  r.kind.plain ++ ": " ++ r.message.plain

inductive Obstacle
  | missing
  | isFolder
  | notFolder
  | nameTooLong
  | nullInName
  | halfInName
  deriving DecidableEq

inductive Fault
  | refused (r : Refusal)
  | tooManyIssues
  | missingField (name : String)
  | notAnObject
  /-- The members were needed of something that has none. -/
  | notAList
  | notText
  | notScalar
  /-- Something was asked for a part that things of its sort do not have. -/
  | noSuchPart
  /-- A value breaks a rule; the note is the value or a remark. -/
  | violated (note : Option Text)
  | abstractNode
  | unwritable (obstacle : Obstacle)

namespace Fault

def noCounterpart (kind : Text) (subject : Option Flow.Part) : Fault :=
  .refused ⟨.str kind, .str ("There is no translation for FlowType(type=" ++ kind ++ ")."), subject⟩

end Fault

theorem bind_of_eq {α β : Type} {x : Except Fault α} {f : α → Except Fault β} {a : α}
    {y : Except Fault β} (hx : x = .ok a) (hf : f a = y) : x >>= f = y := by
  rw [hx]
  exact hf

def Json.toScalar : Json → Except Fault Scalar
  | .scalar s => .ok s
  | _ => .error .notScalar

end Reannotate
