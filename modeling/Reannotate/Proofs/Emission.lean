import Reannotate.Proofs.Inheritance
import Reannotate.Proofs.Kinds
import Reannotate.Proofs.Reading
import Reannotate.TypeScript.Document

/-!
# What conversions hand over

A node that a conversion ends with can be written as a document (`Node.Emits`), and a refusal can be
shown (`Refusal.Shown`), provided that the keys of properties are texts. So nothing goes wrong with
either later on.
-/

namespace Reannotate

open Reannotate.Flow (Phrase TypeName)
open Reannotate.TypeScript (Node)

namespace TypeScript

/-! ## Nodes as documents -/

/-- The node can be written, and not as null. -/
def Node.Emits (n : Node) : Prop :=
  ∃ fields, n.toJson = .ok (.object fields)

theorem exists_jsonEach : ∀ {ns : List Node}, (∀ n ∈ ns, n.Emits) → ∃ js, jsonEach ns = .ok js
  | [], _ => ⟨[], rfl⟩
  | n :: ns, h => by
    obtain ⟨fields, hn⟩ := h n List.mem_cons_self
    obtain ⟨js, hns⟩ := exists_jsonEach fun n hn => h n (List.mem_cons_of_mem _ hn)
    exact ⟨_, bind_of_eq hn (bind_of_eq hns rfl)⟩

theorem exists_jsonMaybe {o : Option Node} (h : ∀ n ∈ o, n.Emits) : ∃ j, jsonMaybe o = .ok j := by
  cases o with
  | none => exact ⟨_, rfl⟩
  | some n =>
    obtain ⟨fields, hn⟩ := h n rfl
    exact ⟨_, hn⟩

theorem exists_jsonSlot {o : Option Node} (h : ∀ n ∈ o, n.Emits) : ∃ j, jsonSlot o = .ok j := by
  cases o with
  | none => exact ⟨_, rfl⟩
  | some n =>
    obtain ⟨fields, hn⟩ := h n rfl
    exact ⟨_, bind_of_eq hn rfl⟩

theorem exists_jsonMany (type : String) {o : Option (List Node)} (h : ∀ ns ∈ o, ∀ n ∈ ns, n.Emits) :
    ∃ j, jsonMany type o = .ok j := by
  cases o with
  | none => exact ⟨_, rfl⟩
  | some ns =>
    obtain ⟨js, hns⟩ := exists_jsonEach (h ns rfl)
    exact ⟨_, bind_of_eq hns rfl⟩

namespace Node

theorem emits_word (name : String) : (word name).Emits := ⟨_, rfl⟩

theorem emits_this : this.Emits := ⟨_, rfl⟩

theorem emits_literal (v : Scalar) : (literal v).Emits := ⟨_, rfl⟩

theorem emits_reference (name : EntityName) {args : Option (List Node)}
    (h : ∀ ns ∈ args, ∀ n ∈ ns, n.Emits) : (reference name args).Emits := by
  obtain ⟨js, hargs⟩ := exists_jsonMany "TSTypeParameterInstantiation" h
  exact ⟨_, bind_of_eq hargs rfl⟩

theorem emits_operator (op : Operator) {n : Node} (h : n.Emits) : (operator op n).Emits := by
  obtain ⟨fields, hn⟩ := h
  exact ⟨_, bind_of_eq hn rfl⟩

theorem emits_access {n i : Node} (hn : n.Emits) (hi : i.Emits) : (access n i).Emits := by
  obtain ⟨fields, hn⟩ := hn
  obtain ⟨fields', hi⟩ := hi
  exact ⟨_, bind_of_eq hn (bind_of_eq hi rfl)⟩

theorem emits_array {n : Node} (h : n.Emits) : (array n).Emits := by
  obtain ⟨fields, hn⟩ := h
  exact ⟨_, bind_of_eq hn rfl⟩

theorem emits_group (g : Grouping) {ns : List Node} (h : ∀ n ∈ ns, n.Emits) : (group g ns).Emits := by
  obtain ⟨js, hns⟩ := exists_jsonEach h
  exact ⟨_, bind_of_eq hns rfl⟩

theorem emits_property (key : PropertyKey) {type : Option Node} (optional readonly : Bool)
    (comments : Comments) (h : ∀ n ∈ type, n.Emits) :
    (property key type optional readonly comments).Emits := by
  obtain ⟨j, htype⟩ := exists_jsonSlot h
  exact ⟨_, bind_of_eq htype rfl⟩

theorem emits_index (name : Scalar) {key type : Option Node} (hk : ∀ n ∈ key, n.Emits)
    (ht : ∀ n ∈ type, n.Emits) : (index name key type).Emits := by
  obtain ⟨j, hkey⟩ := exists_jsonSlot hk
  obtain ⟨j', htype⟩ := exists_jsonSlot ht
  exact ⟨_, bind_of_eq hkey (bind_of_eq htype rfl)⟩

theorem emits_object {members : List Node} (h : ∀ n ∈ members, n.Emits) :
    (object members).Emits := by
  obtain ⟨js, hns⟩ := exists_jsonEach h
  exact ⟨_, bind_of_eq hns rfl⟩

theorem emits_typeParameter (name : Scalar) {bound default : Option Node}
    (hb : ∀ n ∈ bound, n.Emits) (hd : ∀ n ∈ default, n.Emits) :
    (typeParameter name bound default).Emits := by
  obtain ⟨j, hbound⟩ := exists_jsonMaybe hb
  obtain ⟨j', hdefault⟩ := exists_jsonMaybe hd
  exact ⟨_, bind_of_eq hbound (bind_of_eq hdefault rfl)⟩

theorem emits_parameter (name : Scalar) {type : Option Node} (optional : Bool)
    (h : ∀ n ∈ type, n.Emits) : (parameter name type optional).Emits := by
  obtain ⟨j, htype⟩ := exists_jsonSlot h
  exact ⟨_, bind_of_eq htype rfl⟩

theorem emits_rest (name : Scalar) {type : Option Node} (h : ∀ n ∈ type, n.Emits) :
    (rest name type).Emits := by
  obtain ⟨j, htype⟩ := exists_jsonSlot h
  exact ⟨_, bind_of_eq htype rfl⟩

theorem emits_function {typeParams : Option (List Node)} {params : List Node} {result : Option Node}
    (ht : ∀ ns ∈ typeParams, ∀ n ∈ ns, n.Emits) (hp : ∀ n ∈ params, n.Emits)
    (hr : ∀ n ∈ result, n.Emits) : (function typeParams params result).Emits := by
  obtain ⟨j, htypeParams⟩ := exists_jsonMany "TSTypeParameterDeclaration" ht
  obtain ⟨js, hparams⟩ := exists_jsonEach hp
  obtain ⟨j', hresult⟩ := exists_jsonSlot hr
  exact ⟨_, bind_of_eq htypeParams (bind_of_eq hparams (bind_of_eq hresult rfl))⟩

theorem inherited_emits : Inherited Emits where
  word := emits_word
  this := emits_this
  literal := emits_literal
  operator := emits_operator
  access := emits_access
  array := emits_array
  group := emits_group
  property := emits_property
  index := emits_index
  object := emits_object
  typeParameter := emits_typeParameter
  parameter := emits_parameter
  rest := emits_rest
  function := emits_function

end Node

end TypeScript

/-! ## Phrases in messages -/

namespace Flow

def Phrase.KeyText : Phrase → Prop
  | .property _ k _ _ _ _ => k.text.Textual
  | _ => True

theorem PropertyKey.exists_describe {k : PropertyKey} (h : k.text.Textual) :
    ∃ shown, k.describe = .ok shown := by
  obtain ⟨s, hs⟩ := h
  unfold PropertyKey.describe
  rw [hs]
  split <;> exact ⟨_, rfl⟩

mutual

theorem Phrase.exists_describe {p : Phrase} (hp : p.Everywhere Phrase.KeyText) :
    ∃ shown, p.describe = .ok shown := by
  match p with
  | .generic s id as =>
    have ⟨_, has⟩ := (Phrase.everywhere_generic.1 hp).2
    obtain ⟨shown, hshown⟩ := exists_describeArgs has
    unfold Phrase.describe
    rw [hshown]
    exact ⟨_, rfl⟩
  | .property s k v o w c =>
    have hv := (Phrase.everywhere_property.1 hp).2
    obtain ⟨key, hkey⟩ := PropertyKey.exists_describe hp.here
    obtain ⟨value, hvalue⟩ := Phrase.exists_describe hv
    unfold Phrase.describe
    rw [hkey, hvalue]
    exact ⟨_, rfl⟩
  | .parameter s form n t o =>
    have ht := (Phrase.everywhere_parameter.1 hp).2
    obtain ⟨shown, hshown⟩ := exists_describeMaybe ht
    unfold Phrase.describe
    rw [hshown]
    exact ⟨_, rfl⟩
  | .callable s .ofType ps r rest ts => exact ⟨_, rfl⟩
  | .callable s (.declared n) ps r rest ts => exact ⟨_, rfl⟩
  | .typeName n => exact ⟨_, rfl⟩
  | .primitive s w => exact ⟨_, rfl⟩
  | .literal s k v => exact ⟨_, rfl⟩
  | .array s e => exact ⟨_, rfl⟩
  | .group s g ts => exact ⟨_, rfl⟩
  | .nullable s q => exact ⟨_, rfl⟩
  | .typeof s a => exact ⟨_, rfl⟩
  | .spread s a => exact ⟨_, rfl⟩
  | .indexer s i k v w => exact ⟨_, rfl⟩
  | .callProperty s v st => exact ⟨_, rfl⟩
  | .object s ps is cs x => exact ⟨_, rfl⟩
  | .typeParameter s n b d w => exact ⟨_, rfl⟩

theorem exists_describeMaybe {o : Option Phrase} (h : ∀ p ∈ o, p.Everywhere Phrase.KeyText) :
    ∃ shown, describeMaybe o = .ok shown := by
  match o with
  | none => exact ⟨_, rfl⟩
  | some p => exact Phrase.exists_describe (h p rfl)

theorem exists_describeEach {ps : List Phrase} (h : ∀ p ∈ ps, p.Everywhere Phrase.KeyText) :
    ∃ shown, describeEach ps = .ok shown := by
  match ps with
  | [] => exact ⟨_, rfl⟩
  | p :: rest =>
    have ⟨hp, hrest⟩ := List.forall_mem_cons.1 h
    obtain ⟨shown, hshown⟩ := Phrase.exists_describe hp
    obtain ⟨others, hothers⟩ := exists_describeEach hrest
    unfold describeEach
    rw [hshown, hothers]
    exact ⟨_, rfl⟩

theorem exists_describeArgs {o : Option (List Phrase)}
    (h : ∀ ps ∈ o, ∀ p ∈ ps, p.Everywhere Phrase.KeyText) :
    ∃ shown, describeArgs o = .ok shown := by
  match o with
  | none => exact ⟨_, rfl⟩
  | some [] => exact ⟨_, rfl⟩
  | some (p :: rest) =>
    obtain ⟨shown, hshown⟩ := exists_describeEach (h _ rfl)
    unfold describeArgs
    rw [hshown]
    exact ⟨_, rfl⟩

end

end Flow

def Refusal.Shown (r : Refusal) : Prop :=
  ∀ part ∈ r.subject, ∃ p shown, part = .phrase p ∧ p.describe = .ok shown

def Fault.Showable (e : Fault) : Prop :=
  ∀ r, e = .refused r → r.Shown

theorem Fault.NoSubject.showable {e : Fault} (h : e.NoSubject) : e.Showable := by
  intro r hr part hpart
  rw [h r hr] at hpart
  nomatch hpart

theorem showable_of_ne {e : Fault} (h : ∀ r, e ≠ .refused r) : e.Showable :=
  (noSubject_of_ne h).showable

theorem showable_refused {p : Phrase} (h : p.Everywhere Phrase.KeyText) {kind message : Json} :
    (Fault.refused ⟨kind, message, some (.phrase p)⟩).Showable := by
  rintro _ ⟨⟩ _ ⟨⟩
  obtain ⟨shown, hshown⟩ := Phrase.exists_describe h
  exact ⟨p, shown, rfl, hshown⟩

/-! ## Conversions -/

namespace Converting

theorem emits_referTo {p : Phrase} (hp : p.Everywhere Phrase.KeyText) (name : Text)
    {args : Option (List Node)} (h : ∀ ns ∈ args, ∀ n ∈ ns, n.Emits) :
    Ends (referTo p name args) Node.Emits Fault.Showable := by
  unfold referTo
  split
  case h_4 => exact ends_throw (showable_refused hp)
  all_goals exact ends_pure (Node.emits_reference _ h)

theorem emits_reference {p : Phrase} (hp : p.Everywhere Phrase.KeyText) (id : TypeName)
    {args : Option (List Node)} (h : ∀ ns ∈ args, ∀ n ∈ ns, n.Emits) :
    Ends (reference .usual p id args) Node.Emits Fault.Showable := by
  unfold reference
  split
  · split
    · apply inherited_apply Node.inherited_emits h
      · exact fun _ _ {args} hargs => Node.emits_reference _ hargs
      · exact fun _ => showable_refused hp
    · exact emits_referTo hp _ h
  · exact ends_pure (Node.emits_reference _ h)
  · exact ends_throw (showable_of_ne fun _ => Fault.noConfusion)
  · exact ends_throw (showable_refused hp)

theorem upholds_emits : Upholds .usual Phrase.KeyText Node.Emits Fault.Showable where
  inherited := Node.inherited_emits
  reference hp h := emits_reference hp _ h
  fresh _ _ := yields_fresh _ _ (showable_of_ne fun _ => Fault.noConfusion)
  refused _ _ hp := showable_refused hp
  notScalar := showable_of_ne fun _ => Fault.noConfusion
  noSuchPart := showable_of_ne fun _ => Fault.noConfusion

theorem emits_entry {p : Phrase} (hp : p.Everywhere Phrase.KeyText) :
    Ends (convertEntry .usual p) (fun o => ∀ n ∈ o, n.Emits) Fault.Showable :=
  upholds_emits.ends_convertEntry hp

end Converting

end Reannotate
