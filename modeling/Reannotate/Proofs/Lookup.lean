import Reannotate.Flow.Reader

/-!
# Looking up fields

`Json.get?` is the field of a document as it is, without the proof that it is less deep. Look-ups
of the reader are told in terms of it.
-/

namespace Reannotate

namespace Json

def get? (name : String) : Json → Option Json
  | .object fields => fields.lookup (Text.ofString name)
  | _ => none

def HasType (kind : String) (j : Json) : Prop :=
  j.get? "type" = some (.str kind)

instance (kind : String) (j : Json) : Decidable (j.HasType kind) :=
  inferInstanceAs (Decidable (_ = _))

/-! ## Look-ups -/

theorem map_field? (name : String) (j : Json) : (field? name j).map Subtype.val = j.get? name := by
  cases j with
  | object fields =>
    simp only [field?, get?]
    split <;> simp [*]
  | _ => rfl

theorem field?_eq_none_iff {name : String} {j : Json} :
    field? name j = none ↔ j.get? name = none := by
  rw [← map_field?, Option.map_eq_none_iff]

theorem isSome_field? (name : String) (j : Json) :
    (field? name j).isSome = (j.get? name).isSome := by
  rw [← map_field?, Option.isSome_map]

theorem get?_of_field? {name : String} {j : Json} {part : Inner j} (h : field? name j = some part) :
    j.get? name = some part.1 := by
  rw [← map_field?, h, Option.map_some]

theorem exists_field? {name : String} {j k : Json} (h : j.get? name = some k) :
    ∃ part, field? name j = some part ∧ part.1 = k := by
  rw [← map_field?] at h
  exact Option.map_eq_some_iff.1 h

theorem isObject_of_get? {name : String} {j k : Json} (h : j.get? name = some k) :
    j.isObject = true := by
  cases j with
  | object fields => rfl
  | _ => simp [get?] at h

theorem isNull_of_isObject {j : Json} (h : j.isObject = true) : j.isNull = false := by
  cases j with
  | object fields => rfl
  | _ => cases h

theorem HasType.isObject {kind : String} {j : Json} (h : j.HasType kind) : j.isObject = true :=
  isObject_of_get? h

theorem HasType.eq {kind kind' : String} {j : Json} (h : j.HasType kind) (h' : j.HasType kind') :
    kind = kind' := by
  unfold HasType at h h'
  rw [h] at h'
  simpa [Text.ofString_inj] using h'

theorem isText_iff {j : Json} {s : String} : j.isText s = true ↔ j = .str s := by
  cases j with
  | scalar s => cases s <;> simp [isText, text?]
  | _ => simp [isText, text?]

theorem isText_str_self (s : String) : (str s).isText s = true := isText_iff.2 rfl

theorem isNull_iff {j : Json} : j.isNull = true ↔ j = .null := by
  cases j with
  | scalar s => cases s <;> simp [isNull]
  | _ => simp [isNull]

end Json

namespace Flow.Reader

open Json (Inner required field? get? HasType isText_iff)

section
variable {node : Json} {name : String}

theorem members_false {outer : Inner node} (h : outer.1.truthy = false) :
    outer.members = .ok [] := by
  simp [Inner.members, h]

theorem members_array {outer : Inner node} {items : List Json} (h : outer.1 = .array items) :
    ∃ parts, outer.members = .ok parts ∧ parts.map (·.1) = items := by
  obtain ⟨j, hj⟩ := outer
  subst h
  unfold Inner.members
  split
  · refine ⟨_, rfl, ?_⟩
    rw [List.map_map]
    exact List.attach_map_subtype_val items
  · rename_i ht
    exact ⟨[], rfl, by simpa [Json.truthy] using ht⟩

theorem members_others {outer : Inner node} (h : ∀ items, outer.1 ≠ .array items)
    (ht : outer.1.truthy = true) {parts : List (Inner node)} (hp : outer.members = .ok parts) :
    ∃ part ∈ parts, part.1.isObject = false := by
  obtain ⟨j, hj⟩ := outer
  unfold Inner.members at hp
  rw [if_pos ht] at hp
  cases j with
  | array items => exact absurd rfl (h items)
  | scalar s =>
    cases s with
    | str s =>
      cases s with
      | nil => simp [Json.truthy, Scalar.truthy] at ht
      | cons p s =>
        cases hp
        exact ⟨_, List.mem_map_of_mem (List.mem_attach _ ⟨_, List.mem_cons_self⟩), rfl⟩
    | _ => cases hp
  | object fields =>
    cases fields with
    | nil => simp [Json.truthy] at ht
    | cons f fields =>
      cases hp
      exact ⟨_, List.mem_map_of_mem (List.mem_attach _ ⟨_, List.mem_cons_self⟩), rfl⟩

end

theorem optional_type {node : Json} (ho : node.isObject = true) :
    ∃ type, Json.optional "type" node = .ok type ∧
      ∀ kind, (type.any fun t => t.1.isText kind) = true ↔ node.HasType kind := by
  unfold Json.optional
  rw [if_pos ho]
  refine ⟨_, rfl, fun kind => ?_⟩
  unfold HasType
  cases hf : field? "type" node with
  | none =>
    rw [Json.field?_eq_none_iff] at hf
    simp [hf]
  | some type =>
    rw [Json.get?_of_field? hf]
    by_cases ht : type.1.isNull = true
    · have := Json.isNull_iff.1 ht
      simp [Option.filter, this, Json.isNull, Json.isText, Json.text?]
    · simp [Option.filter, ht, isText_iff]

theorem kindOf_eq_ok_iff {node : Json} {kind : Text} :
    kindOf node = .ok kind ↔ node.get? "type" = some (.str kind) := by
  unfold kindOf
  cases hf : Json.field? "type" node with
  | none =>
    rw [Json.field?_eq_none_iff] at hf
    simp [hf]
  | some type =>
    rw [Json.get?_of_field? hf]
    rcases type with ⟨type, hd⟩
    cases type with
    | scalar s => cases s <;> simp [Json.text?]
    | _ => simp [Json.text?]

theorem mapM_char?_eq_some : ∀ {t : Text} {cs : List Char}, t.mapM Point.char? = some cs →
    t = Text.ofChars cs
  | [], cs, h => by
    simp at h
    rw [h]
    rfl
  | p :: t, cs, h => by
    cases p with
    | half i => simp [Point.char?] at h
    | char c =>
      simp only [List.mapM_cons, Point.char?, Option.bind_eq_bind, Option.bind_some,
        Option.bind_eq_some_iff] at h
      obtain ⟨rest, hr, hc⟩ := h
      cases hc
      rw [mapM_char?_eq_some hr]
      rfl

theorem string?_eq_some_iff {t : Text} {s : String} : t.string? = some s ↔ t = Text.ofString s := by
  constructor
  · intro h
    unfold Text.string? at h
    obtain ⟨cs, hcs, rfl⟩ := Option.map_eq_some_iff.1 h
    rw [mapM_char?_eq_some hcs, Text.ofString, String.toList_ofList]
  · rintro rfl
    exact Text.string?_ofString s

theorem span?_eq (node : Json) : span? node = (do
    let start ← bound? (← node.get? "start")
    let stop ← bound? (← node.get? "end")
    return ⟨start, stop⟩) := by
  rw [span?, ← Json.map_field?, ← Json.map_field?]
  cases Json.field? "start" node with
  | none => rfl
  | some start =>
    cases Json.field? "end" node <;> rfl

/-! ## Steps of readers -/

section
variable {α β : Type} {node j : Json} {name : String}

theorem required_bind {f : Inner node → Except Fault α} {x : Except Fault α}
    (h : node.get? name = some j) (hf : ∀ part, part.1 = j → f part = x) :
    required name node >>= f = x := by
  obtain ⟨part, hp, hj⟩ := Json.exists_field? h
  rw [required, hp]
  exact hf part hj

theorem optional_bind {f : Option (Inner node) → Except Fault α} {x : Except Fault α}
    (h : node.get? name = some j) (hj : j.isNull = false)
    (hf : ∀ part, part.1 = j → f (some part) = x) : Json.optional name node >>= f = x := by
  obtain ⟨part, hp, rfl⟩ := Json.exists_field? h
  rw [Json.optional, if_pos (Json.isObject_of_get? h), hp, Option.filter_some, if_pos (by simp [hj])]
  exact hf part rfl

theorem optional_bind_null {f : Option (Inner node) → Except Fault α}
    (h : node.get? name = some .null) : Json.optional name node >>= f = f none := by
  obtain ⟨part, hp, hn⟩ := Json.exists_field? h
  rw [Json.optional, if_pos (Json.isObject_of_get? h), hp, Option.filter_some, hn]
  rfl

end

section
variable {j : Json}

theorem readTypeName_plain (h : j.HasType "Identifier") : readTypeName j = (do
    let name ← required "name" j
    return .plain (span? j) (← expectText name.1)) := by
  rw [readTypeName]
  refine required_bind h fun type ht => ?_
  rw [ht, if_pos (Json.isText_str_self _)]

theorem readTypeName_qualified {q i : Json} (h : j.HasType "QualifiedTypeIdentifier")
    (hq : j.get? "qualification" = some q) (hi : j.get? "id" = some i) : readTypeName j = (do
      let qualification ← readTypeName q
      return .qualified (span? j) qualification (← readTypeName i)) := by
  rw [readTypeName]
  refine required_bind h fun type ht => ?_
  rw [ht, if_neg (by decide), if_pos (Json.isText_str_self _)]
  refine required_bind hq fun part hpart => ?_
  rw [hpart]
  refine bind_congr fun qualification => required_bind hi fun part hpart => ?_
  rw [hpart]

theorem readKey_plain (h : j.HasType "Identifier") :
    readKey j = do return ⟨(← required "name" j).1, false⟩ := by
  refine required_bind h fun type ht => ?_
  rw [ht, if_pos (Json.isText_str_self _)]

theorem readKey_quoted (h : j.HasType "StringLiteral") :
    readKey j = do return ⟨(← required "value" j).1, true⟩ := by
  refine required_bind h fun type ht => ?_
  rw [ht, if_neg (by decide), if_pos (Json.isText_str_self _)]

end

def readDeclaredParams {node : Json} (below : Below node) : Except Fault Declared := do
  match ← Json.optional "params" node with
  | none => return ⟨[], none⟩
  | some list => (← list.members).foldlM (readDeclaredParam below) ⟨[], none⟩

theorem readFunctionDeclaration_eq {node : Json} (below : Below node) :
    readFunctionDeclaration below = (do
      let declared ← readDeclaredParams below
      let name ← readName node "id"
      let returnType ← readOptional below "returnType"
      let typeParams ← readParams below "typeParameters"
      return .callable none (.declared name) declared.params returnType declared.rest
        typeParams) := by
  simp only [readFunctionDeclaration, readDeclaredParams, bind_assoc]
  refine bind_congr fun list => ?_
  cases list <;> simp

abbrev reading (node : Json) : Below node := fun part => read part.1

theorem read_of_hasType {node : Json} {kind : String} (h : node.HasType kind) :
    read node = do return (← readNamed (reading node) kind).orSpan (span? node) := by
  rw [read, kindOf_eq_ok_iff.2 h]
  show (do return (← readKind (reading node) kind).orSpan (span? node)) = _
  rw [readKind, Text.string?_ofString]

end Flow.Reader

end Reannotate
