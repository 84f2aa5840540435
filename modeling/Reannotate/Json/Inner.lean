import Reannotate.Fault

/-!
# Values inside a document

Looking up a field or the members of a value, with the proof that what is found is less deep than
the document, so that a recursion into it ends.
-/

namespace Reannotate.Json

mutual

def depth : Json → Nat
  | .scalar _ => 0
  | .array items => depthItems items + 1
  | .object fields => depthFields fields + 1

def depthItems : List Json → Nat
  | [] => 0
  | j :: rest => max j.depth (depthItems rest)

def depthFields : List (Text × Json) → Nat
  | [] => 0
  | (_, j) :: rest => max j.depth (depthFields rest)

end

theorem depth_le_of_mem_items {j : Json} :
    ∀ {items : List Json}, j ∈ items → j.depth ≤ depthItems items
  | _ :: _, .head _ => Nat.le_max_left _ _
  | _ :: _, .tail _ h => Nat.le_trans (depth_le_of_mem_items h) (Nat.le_max_right _ _)

theorem depth_le_of_lookup {name : Text} {j : Json} :
    ∀ {fields : List (Text × Json)}, fields.lookup name = some j → j.depth ≤ depthFields fields
  | (n, v) :: rest, h => by
    rw [List.lookup_cons] at h
    split at h
    · cases h
      exact Nat.le_max_left _ _
    · exact Nat.le_trans (depth_le_of_lookup h) (Nat.le_max_right _ _)

abbrev Inner (whole : Json) :=
  { part : Json // part.depth < whole.depth }

variable {whole : Json}

def Inner.within (outer : Inner whole) (part : Inner outer.1) : Inner whole :=
  ⟨part.1, Nat.lt_trans part.2 outer.2⟩

def field? (name : String) : (node : Json) → Option (Inner node)
  | .object fields =>
    match h : fields.lookup (Text.ofString name) with
    | some j => some ⟨j, Nat.lt_succ_of_le (depth_le_of_lookup h)⟩
    | none => none
  | _ => none

def isObject : Json → Bool
  | .object _ => true
  | _ => false

def required (name : String) (node : Json) : Except Fault (Inner node) :=
  match field? name node with
  | some part => .ok part
  | none => .error (if node.isObject then .missingField name else .notAnObject)

def optional (name : String) (node : Json) : Except Fault (Option (Inner node)) :=
  if node.isObject then .ok ((field? name node).filter fun part => !part.1.isNull)
  else .error .noSuchPart

def flag (name : String) (node : Json) : Bool :=
  match field? name node with
  | some part => part.1.truthy
  | none => false

/-- The members of a value in order: items of an array, points of a text, names of an object. -/
def elements : Json → Except Fault (List Json)
  | .array items => .ok items
  | .scalar (.str s) => .ok (s.map fun p => .str [p])
  | .object fields => .ok (fields.map fun f => .str f.1)
  | _ => .error .notAList

theorem depth_le_of_mem_elements {j part : Json} {items : List Json} (h : j.elements = .ok items)
    (hm : part ∈ items) : part.depth ≤ j.depth := by
  unfold elements at h
  split at h <;> cases h
  · exact Nat.le_succ_of_le (depth_le_of_mem_items hm)
  · obtain ⟨c, _, rfl⟩ := List.mem_map.1 hm
    simp [depth]
  · obtain ⟨f, _, rfl⟩ := List.mem_map.1 hm
    simp [depth]

/-- The members of an inner value; one that counts as false has none. -/
def Inner.members (outer : Inner whole) : Except Fault (List (Inner whole)) :=
  if outer.1.truthy then
    match h : outer.1.elements with
    | .ok items => .ok (items.attach.map fun part =>
        ⟨part.1, Nat.lt_of_le_of_lt (depth_le_of_mem_elements h part.2) outer.2⟩)
    | .error e => .error e
  else .ok []

end Reannotate.Json
