import Reannotate.Flow.Reader
import Reannotate.Proofs.Ending
import Reannotate.Proofs.Everywhere

/-!
# What reading guarantees

`yields_read`: in a tree that was read, the parameters and the rest parameter of every declared
function are declared names; and a document that is refused is refused without a phrase to blame.
Each small reader passes this on from the reader of the nodes below.
-/

namespace Reannotate

def Fault.NoSubject (e : Fault) : Prop :=
  ∀ r, e = .refused r → r.subject = none

theorem noSubject_of_ne {e : Fault} (h : ∀ r, e ≠ .refused r) : e.NoSubject :=
  fun r he => absurd he (h r)

theorem noSubject_refused {kind message : Json} :
    (Fault.refused ⟨kind, message, none⟩).NoSubject := by
  intro r same
  cases same
  rfl

abbrev Plainly {α : Type} (x : Except Fault α) : Prop :=
  Yields x (fun _ => True) Fault.NoSubject

namespace Flow

def Phrase.isDeclared : Phrase → Bool
  | .parameter _ .declared _ _ _ => true
  | _ => false

/-- A declared function has declared names for parameters. -/
def Phrase.DeclaresNames : Phrase → Prop
  | .callable _ (.declared _) ps _ rest _ =>
    (∀ p ∈ ps, p.isDeclared = true) ∧ ∀ p ∈ rest, p.isDeclared = true
  | _ => True

theorem Phrase.isDeclared_withSpan (s : Option Span) (p : Phrase) :
    (p.withSpan s).isDeclared = p.isDeclared := by
  cases p with
  | typeName n => cases n <;> rfl
  | parameter s' f n t o => cases f <;> rfl
  | _ => rfl

theorem Phrase.isDeclared_orSpan (s : Option Span) (p : Phrase) :
    (p.orSpan s).isDeclared = p.isDeclared := by
  unfold orSpan
  split
  · exact isDeclared_withSpan s p
  · rfl

theorem Phrase.DeclaresNames.withSpan {p : Phrase} (s : Option Span) (h : p.DeclaresNames) :
    (p.withSpan s).DeclaresNames := by
  cases p with
  | typeName n => cases n <;> trivial
  | callable s' f ps r rest ts => cases f <;> exact h
  | _ => trivial

namespace Reader

open Json (Inner required flag field?)

/-! ## Look-ups -/

theorem plainly_required (name : String) (node : Json) : Plainly (required name node) := by
  unfold required
  split
  · trivial
  · exact noSubject_of_ne fun r => by split <;> exact Fault.noConfusion

theorem plainly_optional (name : String) (node : Json) : Plainly (Json.optional name node) := by
  unfold Json.optional
  split
  · trivial
  · exact noSubject_of_ne fun r => Fault.noConfusion

theorem plainly_elements (j : Json) : Plainly j.elements := by
  unfold Json.elements
  split
  · trivial
  · trivial
  · trivial
  · exact noSubject_of_ne fun r => Fault.noConfusion

theorem plainly_members {node : Json} (outer : Inner node) : Plainly outer.members := by
  unfold Inner.members
  split
  · split
    · trivial
    · rename_i e he
      have := plainly_elements outer.1
      rwa [he] at this
  · trivial

theorem plainly_expectText (j : Json) : Plainly (expectText j) := by
  unfold expectText
  split
  · trivial
  · exact noSubject_of_ne fun r => Fault.noConfusion

theorem plainly_readTypeName (node : Json) : Plainly (readTypeName node) := by
  unfold readTypeName
  refine (plainly_required "type" node).bind fun type _ => ?_
  split
  · refine (plainly_required "name" node).bind fun name _ => ?_
    exact (plainly_expectText _).bind fun _ _ => trivial
  · split
    · refine (plainly_required "qualification" node).bind fun q _ => ?_
      have := q.2
      refine (plainly_readTypeName q.1).bind fun _ _ => ?_
      refine (plainly_required "id" node).bind fun i _ => ?_
      have := i.2
      exact (plainly_readTypeName i.1).bind fun _ _ => trivial
    · exact noSubject_refused
termination_by node.depth

theorem plainly_readKey (node : Json) : Plainly (readKey node) := by
  unfold readKey
  refine (plainly_required "type" node).bind fun type _ => ?_
  split
  · exact (plainly_required "name" node).bind fun _ _ => trivial
  · split
    · exact (plainly_required "value" node).bind fun _ _ => trivial
    · exact noSubject_refused

theorem plainly_readName (node : Json) (field : String) : Plainly (readName node field) := by
  unfold readName
  refine (plainly_optional field node).bind fun id _ => ?_
  cases id with
  | none => trivial
  | some id => exact (plainly_required "name" id.1).bind fun _ _ => trivial

theorem plainly_readVariance (node : Json) : Plainly (readVariance node) := by
  unfold readVariance
  refine (plainly_optional "variance" node).bind fun v _ => ?_
  cases v with
  | none => trivial
  | some v => exact (plainly_required "kind" v.1).bind fun _ _ => trivial

theorem plainly_readComment (node : Json) : Plainly (readComment node) := by
  unfold readComment
  refine (plainly_required "value" node).bind fun _ _ => ?_
  exact (plainly_optional "type" node).bind fun _ _ => trivial

theorem plainly_readComments (node : Json) (field : String) :
    Plainly (readComments node field) := by
  unfold readComments
  refine (plainly_optional field node).bind fun list _ => ?_
  cases list with
  | none => trivial
  | some list =>
    refine (plainly_members list).bind fun items _ => ?_
    exact (Yields.mapM fun c _ => plainly_readComment c.1).mono (fun _ _ => trivial) fun _ h => h

theorem plainly_propertyVariance (kind : Json) : Plainly (propertyVariance kind) := by
  unfold propertyVariance
  split
  · trivial
  · split
    · trivial
    · split
      · trivial
      · exact noSubject_of_ne fun r => Fault.noConfusion

def NamesType (kind : String) (node : Json) : Prop :=
  ∃ type, field? "type" node = some type ∧ type.1.isText kind = true

theorem yields_optional_type (node : Json) :
    Yields (Json.optional "type" node)
      (fun type => ∀ kind, (type.any fun t => t.1.isText kind) = true → NamesType kind node)
      Fault.NoSubject := by
  have hp := plainly_optional "type" node
  unfold Json.optional at hp ⊢
  split at hp
  · rename_i ho
    rw [if_pos ho]
    intro kind hk
    cases ht : (field? "type" node).filter fun part => !part.1.isNull with
    | none => simp [ht] at hk
    | some t =>
      rw [ht] at hk
      exact ⟨t, (Option.filter_eq_some_iff.1 ht).1, hk⟩
  · rename_i ho
    rw [if_neg ho]
    exact hp

/-! ## Readers of nodes -/

structure ReadWell (node : Json) (p : Phrase) : Prop where
  everywhere : p.Everywhere Phrase.DeclaresNames
  declared : NamesType "Identifier" node ∨ NamesType "RestElement" node → p.isDeclared = true

abbrev Tidy (p : Phrase) : Prop := p.Everywhere Phrase.DeclaresNames

theorem tidy_declared {name : Json} {t : Option Phrase} {optional : Bool} (ht : ∀ p ∈ t, Tidy p) :
    Tidy (.parameter none .declared name t optional) :=
  Phrase.everywhere_parameter.2 ⟨trivial, ht⟩

section
variable {node : Json} {below : Below node}
variable (h : ∀ part, Yields (below part) (ReadWell part.1) Fault.NoSubject)
include h

theorem yields_below (part : Inner node) : Yields (below part) Tidy Fault.NoSubject :=
  (h part).mono (fun _ hp => hp.everywhere) fun _ he => he

theorem yields_readChild (name : String) : Yields (readChild below name) Tidy Fault.NoSubject :=
  (plainly_required name node).bind fun part _ => yields_below h part

theorem yields_readMaybe : ∀ part : Option (Inner node),
    Yields (readMaybe below part) (fun o => ∀ p ∈ o, Tidy p) Fault.NoSubject
  | none => fun _ hp => absurd hp (by simp)
  | some part => (yields_below h part).bind fun p hp q hq => by
    cases hq
    exact hp

theorem yields_readOptional (name : String) :
    Yields (readOptional below name) (fun o => ∀ p ∈ o, Tidy p) Fault.NoSubject :=
  (plainly_optional name node).bind fun part _ => yields_readMaybe h part

theorem yields_readMembers : ∀ part : Option (Inner node),
    Yields (readMembers below part) (fun ps => ∀ p ∈ ps, Tidy p) Fault.NoSubject
  | none => fun _ hp => absurd hp List.not_mem_nil
  | some part => (plainly_members part).bind fun _ _ =>
    Yields.mapM fun item _ => yields_below h item

theorem yields_readList (name : String) :
    Yields (readList below name) (fun ps => ∀ p ∈ ps, Tidy p) Fault.NoSubject :=
  (plainly_optional name node).bind fun part _ => yields_readMembers h part

theorem yields_readRequiredList (name : String) :
    Yields (readRequiredList below name) (fun ps => ∀ p ∈ ps, Tidy p) Fault.NoSubject :=
  (plainly_required name node).bind fun part _ => yields_readMembers h (some part)

theorem yields_readParams (name : String) :
    Yields (readParams below name) (fun o => ∀ ps ∈ o, ∀ p ∈ ps, Tidy p) Fault.NoSubject := by
  unfold readParams
  refine (plainly_optional name node).bind fun outer _ => ?_
  cases outer with
  | none => exact fun ps hps => absurd hps (by simp)
  | some outer =>
    refine (plainly_required "params" outer.1).bind fun params _ => ?_
    refine (yields_readMembers h _).bind fun ps hps => ?_
    intro qs same
    cases same
    exact hps

theorem yields_readGeneric : Yields (readGeneric below) Tidy Fault.NoSubject := by
  unfold readGeneric
  refine (yields_readParams h _).bind fun args hargs => ?_
  refine (plainly_required "id" node).bind fun id _ => ?_
  refine (plainly_readTypeName id.1).bind fun name _ => ?_
  have hname := Phrase.everywhere_typeName (P := Phrase.DeclaresNames) (fun _ => trivial) name
  exact Phrase.everywhere_generic.2 ⟨trivial, hname, hargs⟩

theorem yields_readTuple : Yields (readTuple below) Tidy Fault.NoSubject := by
  unfold readTuple
  refine (yields_readList h _).bind fun ts hts => ?_
  exact Phrase.everywhere_group.2 ⟨trivial, hts⟩

theorem yields_readObject : Yields (readObject below) Tidy Fault.NoSubject := by
  unfold readObject
  refine (yields_readList h _).bind fun ps hps => ?_
  refine (yields_readList h _).bind fun is his => ?_
  refine (yields_readList h _).bind fun cs hcs => ?_
  exact Phrase.everywhere_object.2 ⟨trivial, hps, his, hcs⟩

theorem yields_readProperty : Yields (readProperty below) Tidy Fault.NoSubject := by
  unfold readProperty
  refine (plainly_required "key" node).bind fun k _ => ?_
  refine (plainly_readKey k.1).bind fun key _ => ?_
  refine (yields_readChild h _).bind fun value hvalue => ?_
  refine (plainly_readVariance node).bind fun kind _ => ?_
  refine (plainly_readComments node _).bind fun leading _ => ?_
  refine (plainly_readComments node _).bind fun inner _ => ?_
  refine (plainly_readComments node _).bind fun trailing _ => ?_
  refine (plainly_propertyVariance kind).bind fun variance _ => ?_
  exact Phrase.everywhere_property.2 ⟨trivial, hvalue⟩

theorem yields_readIndexer : Yields (readIndexer below) Tidy Fault.NoSubject := by
  unfold readIndexer
  refine (plainly_readName node _).bind fun id _ => ?_
  refine (yields_readChild h _).bind fun key hkey => ?_
  refine (yields_readChild h _).bind fun value hvalue => ?_
  refine (plainly_readVariance node).bind fun kind _ => ?_
  exact Phrase.everywhere_indexer.2 ⟨trivial, hkey, hvalue⟩

theorem yields_readFunctionType : Yields (readFunctionType below) Tidy Fault.NoSubject := by
  unfold readFunctionType
  refine (yields_readList h _).bind fun ps hps => ?_
  refine (yields_readOptional h _).bind fun r hr => ?_
  refine (yields_readOptional h _).bind fun rest hrest => ?_
  refine (yields_readParams h _).bind fun ts hts => ?_
  exact Phrase.everywhere_callable.2 ⟨trivial, hps, hr, hrest, hts⟩

theorem yields_readFunctionTypeParam : Yields (readFunctionTypeParam below) Tidy Fault.NoSubject := by
  unfold readFunctionTypeParam
  refine (plainly_readName node _).bind fun name _ => ?_
  refine (yields_readOptional h _).bind fun t ht => ?_
  exact Phrase.everywhere_parameter.2 ⟨trivial, ht⟩

theorem yields_readTypeParameter : Yields (readTypeParameter below) Tidy Fault.NoSubject := by
  unfold readTypeParameter
  refine (plainly_required "name" node).bind fun name _ => ?_
  refine (yields_readOptional h _).bind fun bound hbound => ?_
  refine (yields_readOptional h _).bind fun default hdefault => ?_
  refine (plainly_readVariance node).bind fun kind _ => ?_
  exact Phrase.everywhere_typeParameter.2 ⟨trivial, hbound, hdefault⟩

theorem yields_readIdentifier :
    Yields (readIdentifier below) (fun p => Tidy p ∧ p.isDeclared = true) Fault.NoSubject := by
  unfold readIdentifier
  refine (plainly_required "name" node).bind fun name _ => ?_
  refine (yields_readOptional h _).bind fun t ht => ?_
  exact ⟨tidy_declared ht, rfl⟩

theorem yields_readRestElement :
    Yields (readRestElement below) (fun p => Tidy p ∧ p.isDeclared = true) Fault.NoSubject := by
  unfold readRestElement
  refine (plainly_required "argument" node).bind fun argument _ => ?_
  refine (plainly_optional "type" argument.1).bind fun type _ => ?_
  split
  · refine (plainly_required "name" argument.1).bind fun name _ => ?_
    refine (yields_readMaybe h _).bind fun t ht => ?_
    exact ⟨tidy_declared ht, rfl⟩
  · exact noSubject_refused

structure Declared.Well (d : Declared) : Prop where
  params : ∀ p ∈ d.params, Tidy p ∧ p.isDeclared = true
  rest : ∀ p ∈ d.rest, Tidy p ∧ p.isDeclared = true

theorem yields_readDeclaredParam {done : Declared} (hd : done.Well) (param : Inner node) :
    Yields (readDeclaredParam below done param) Declared.Well Fault.NoSubject := by
  unfold readDeclaredParam
  refine (yields_optional_type param.1).bind fun type htype => ?_
  split
  · rename_i hk
    refine (h param).bind fun p hp => ⟨hd.params, ?_⟩
    intro q same
    cases same
    exact ⟨hp.everywhere, hp.declared (.inr (htype _ hk))⟩
  · split
    · rename_i hk
      refine (h param).bind fun p hp => ⟨?_, hd.rest⟩
      refine List.forall_mem_append.2 ⟨hd.params, List.forall_mem_singleton.2 ?_⟩
      exact ⟨hp.everywhere, hp.declared (.inl (htype _ hk))⟩
    · exact noSubject_refused

theorem yields_readFunctionDeclaration :
    Yields (readFunctionDeclaration below) Tidy Fault.NoSubject := by
  have rest : ∀ params : List (Inner node), Yields (do
      let declared ← params.foldlM (readDeclaredParam below) ⟨[], none⟩
      let name ← readName node "id"
      let returnType ← readOptional below "returnType"
      let typeParams ← readParams below "typeParameters"
      return Phrase.callable none (.declared name) declared.params returnType declared.rest typeParams)
      Tidy Fault.NoSubject := fun params => by
    have folded : Yields (params.foldlM (readDeclaredParam below) ⟨[], none⟩) Declared.Well
        Fault.NoSubject :=
      Yields.foldlM (fun done hd param _ => yields_readDeclaredParam h hd param) ⟨by simp, by simp⟩
    refine folded.bind fun declared hd => ?_
    refine (plainly_readName node _).bind fun name _ => ?_
    refine (yields_readOptional h _).bind fun r hr => ?_
    refine (yields_readParams h _).bind fun ts hts => ?_
    refine Phrase.everywhere_callable.2
      ⟨⟨fun p hp => (hd.params p hp).2, fun p hp => (hd.rest p hp).2⟩, ?_⟩
    exact ⟨fun p hp => (hd.params p hp).1, hr, fun p hp => (hd.rest p hp).1, hts⟩
  unfold readFunctionDeclaration
  refine (plainly_optional "params" node).bind fun list _ => ?_
  cases list with
  | none => exact rest []
  | some list => exact (plainly_members list).bind fun params _ => rest params

theorem yields_readNamed (kind : String) : Yields (readNamed below kind) Tidy Fault.NoSubject := by
  -- for nodes that stand for a type around one other
  have around : ∀ {name : String} {f : Phrase → Phrase},
      (∀ p, Tidy p → Tidy (f p)) → Yields (do return f (← readChild below name)) Tidy Fault.NoSubject :=
    fun hf => (yields_readChild h _).bind fun p hp => hf p hp
  have group : ∀ {name : String} {g : Grouping},
      Yields (do return .group none g (← readRequiredList below name)) Tidy Fault.NoSubject :=
    (yields_readRequiredList h _).bind fun ts hts =>
      Phrase.everywhere_group.2 ⟨trivial, hts⟩
  unfold readNamed
  split
  · exact Phrase.everywhere_primitive.2 trivial
  · refine (plainly_required "value" node).bind fun value _ => ?_
    exact Phrase.everywhere_literal.2 trivial
  · split
    · exact yields_readChild h _
    · exact around fun p hp => Phrase.everywhere_array.2 ⟨trivial, hp⟩
    · exact yields_readTuple h
    · exact group
    · exact group
    · exact around fun p hp => Phrase.everywhere_nullable.2 ⟨trivial, hp⟩
    · exact around fun p hp => Phrase.everywhere_typeof.2 ⟨trivial, hp⟩
    · exact yields_readGeneric h
    · exact yields_readObject h
    · exact yields_readProperty h
    · exact around fun p hp => Phrase.everywhere_spread.2 ⟨trivial, hp⟩
    · exact yields_readIndexer h
    · exact around fun p hp => Phrase.everywhere_callProperty.2 ⟨trivial, hp⟩
    · exact yields_readFunctionType h
    · exact yields_readFunctionTypeParam h
    · exact yields_readTypeParameter h
    · exact (yields_readIdentifier h).mono (fun _ hp => hp.1) fun _ he => he
    · exact (yields_readRestElement h).mono (fun _ hp => hp.1) fun _ he => he
    · exact yields_readFunctionDeclaration h
    · exact noSubject_refused

theorem yields_readNamed_declared {kind : String} (hk : kind = "Identifier" ∨ kind = "RestElement") :
    Yields (readNamed below kind) (fun p => p.isDeclared = true) Fault.NoSubject := by
  rcases hk with rfl | rfl
  · exact (yields_readIdentifier h).mono (fun _ hp => hp.2) fun _ he => he
  · exact (yields_readRestElement h).mono (fun _ hp => hp.2) fun _ he => he

end

theorem kindOf_of_namesType {kind : String} {node : Json} (h : NamesType kind node) :
    kindOf node = .ok (Text.ofString kind) := by
  obtain ⟨type, ht, hk⟩ := h
  unfold Json.isText at hk
  simp only [kindOf, ht, of_decide_eq_true hk]

end Reader

open Reader

theorem plainly_kindOf (node : Json) : Plainly (kindOf node) := by
  unfold kindOf notANode
  split
  · exact noSubject_refused
  · split
    · trivial
    · exact noSubject_of_ne fun r => Fault.noConfusion

theorem yields_read (node : Json) : Yields (read node) (ReadWell node) Fault.NoSubject := by
  have below : ∀ part : Json.Inner node, Yields (read part.1) (ReadWell part.1) Fault.NoSubject :=
    fun part => by
      have := part.2
      exact yields_read part.1
  have hkind := plainly_kindOf node
  unfold read
  cases hk : kindOf node with
  | error e => rwa [hk] at hkind
  | ok kind =>
    have named : Yields (readKind (fun part : Json.Inner node => read part.1) kind)
        (ReadWell node) Fault.NoSubject := by
      unfold readKind
      cases hs : kind.string? with
      | none => exact noSubject_refused
      | some name =>
        have hname : ∀ k, NamesType k node → name = k := fun k hn => by
          cases hk.symm.trans (kindOf_of_namesType hn)
          rw [Text.string?_ofString] at hs
          exact (Option.some.inj hs).symm
        have declared : Yields (readNamed (fun part : Json.Inner node => read part.1) name)
            (fun p => NamesType "Identifier" node ∨ NamesType "RestElement" node →
              p.isDeclared = true) Fault.NoSubject := by
          by_cases hn : NamesType "Identifier" node ∨ NamesType "RestElement" node
          · exact (yields_readNamed_declared below (hn.imp (hname _) (hname _))).mono
              (fun _ hp _ => hp) fun _ he => he
          · exact (yields_readNamed below name).mono (fun _ _ h => absurd h hn) fun _ he => he
        exact ((yields_readNamed below name).and declared).mono (fun _ hp => ⟨hp.1, hp.2⟩)
          fun _ he => he
    exact named.bind fun p hp => ⟨Phrase.everywhere_orSpan (fun hp => hp.withSpan _) hp.everywhere,
      fun h => (Phrase.isDeclared_orSpan _ p).trans (hp.declared h)⟩
termination_by node.depth

end Flow

end Reannotate
