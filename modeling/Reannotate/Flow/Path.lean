import Reannotate.Fault

/-!
# Paths

A path leads from a phrase to one of its parts by field names and indices. The way to a phrase also
gives its trail.
-/

namespace Reannotate.Flow

inductive Step
  | field (name : String)
  | index (n : Int)

/-- The item at an index, which counts from the end if it is negative. -/
def itemAt {α : Type} (items : List α) (n : Int) : Option α :=
  if 0 ≤ n then items[n.toNat]?
  else if -n ≤ items.length then items[(items.length + n).toNat]?
  else none

def PropertyKey.fields (k : PropertyKey) : List (String × Part) :=
  [("text", .value k.text), ("quoted", .value (.bool k.quoted))]

def Comment.fields (c : Comment) : List (String × Part) :=
  [("value", .value c.value), ("block", .value (.bool c.block))]

def Part.step? : Part → Step → Option Part
  | .phrase p, .field name => p.fields.lookup name
  | .key k, .field name => k.fields.lookup name
  | .comment c, .field name => c.fields.lookup name
  | .phrases ps, .index n => (itemAt ps n).map .phrase
  | .comments cs, .index n => (itemAt cs n).map .comment
  | _, _ => none

structure Found where
  trail : List Frame
  part : Part

/-- The trail grows when the way leads into a field of a phrase; an index tells which of its phrases
is meant. -/
def Found.step? (f : Found) (s : Step) : Option Found := do
  let part ← f.part.step? s
  match f.part, s with
  | .phrase p, .field name => return ⟨⟨p, ⟨name, none⟩⟩ :: f.trail, part⟩
  | .phrases ps, .index n =>
    match f.trail with
    | ⟨p, slot⟩ :: rest =>
      let i := if 0 ≤ n then n.toNat else (ps.length + n).toNat
      return ⟨⟨p, ⟨slot.field, some i⟩⟩ :: rest, part⟩
    | [] => return ⟨[], part⟩
  | _, _ => return ⟨f.trail, part⟩

def walk (root : Phrase) (path : List Step) : Except Fault Found :=
  match path.foldlM Found.step? ⟨[], .phrase root⟩ with
  | some f => .ok f
  | none => .error .noSuchPart

end Reannotate.Flow
