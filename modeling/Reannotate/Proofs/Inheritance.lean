import Reannotate.Proofs.Ending
import Reannotate.Proofs.Everywhere

/-!
# What all nodes of a conversion have

A property that nodes inherit from the nodes in them (`Node.Inherited`) holds of all that
conversions make, once it holds of the references they make. `Upholds` lists what is to be known of
references and of faults; `Upholds.ends_convert` and `Upholds.ends_convertSignature` carry it through
the tree.
-/

namespace Reannotate

open Reannotate.Flow (Phrase TypeName Role)
open Reannotate.TypeScript (Node)

/-! ## Nodes in nodes -/

namespace TypeScript.Node

/-- Nodes have `Q` if the nodes in them have it, references and accesses apart. -/
structure Inherited (Q : Node → Prop) : Prop where
  word (name : String) : Q (word name)
  this : Q this
  literal (v : Scalar) : Q (literal v)
  operator (op : Operator) {n : Node} : Q n → Q (operator op n)
  access {n i : Node} : Q n → Q i → Q (access n i)
  array {n : Node} : Q n → Q (array n)
  group (g : Grouping) {ns : List Node} : (∀ n ∈ ns, Q n) → Q (group g ns)
  property (key : PropertyKey) {type : Option Node} (optional readonly : Bool)
    (comments : Comments) : (∀ n ∈ type, Q n) → Q (property key type optional readonly comments)
  index (name : Scalar) {key type : Option Node} : (∀ n ∈ key, Q n) → (∀ n ∈ type, Q n) →
    Q (index name key type)
  object {members : List Node} : (∀ n ∈ members, Q n) → Q (object members)
  typeParameter (name : Scalar) {bound default : Option Node} : (∀ n ∈ bound, Q n) →
    (∀ n ∈ default, Q n) → Q (typeParameter name bound default)
  parameter (name : Scalar) {type : Option Node} (optional : Bool) : (∀ n ∈ type, Q n) →
    Q (parameter name type optional)
  rest (name : Scalar) {type : Option Node} : (∀ n ∈ type, Q n) → Q (rest name type)
  function {typeParams : Option (List Node)} {params : List Node} {result : Option Node} :
    (∀ ns ∈ typeParams, ∀ n ∈ ns, Q n) → (∀ n ∈ params, Q n) → (∀ n ∈ result, Q n) →
    Q (function typeParams params result)

end TypeScript.Node

def Utility.introduced : Utility → List Text
  | .readOnly => ["Readonly"]
  | .readOnlyArray => ["ReadonlyArray"]
  | .diff => ["Pick", "Exclude"]
  | .shape => ["Partial"]
  | .fixMe => ["any"]
  | _ => []

namespace Converting

/-- What is to be known of references, of refusals and of other faults, so that `Q` holds of all
nodes that come from phrases with `P` everywhere, and `bad` of all faults. -/
structure Upholds (names : Names) (P : Phrase → Prop) (Q : Node → Prop) (bad : Fault → Prop) :
    Prop where
  inherited : Node.Inherited Q
  reference {s : Option Flow.Span} {id : TypeName} {as : Option (List Phrase)}
    {args : Option (List Node)} : (Phrase.generic s id as).Everywhere P →
    (∀ ns ∈ args, ∀ n ∈ ns, Q n) → Ends (reference names (.generic s id as) id args) Q bad
  fresh (earlier : List (List Json)) (used : List Json) :
    Yields (names.fresh earlier used) (fun _ => True) bad
  refused {p : Phrase} (kind message : Json) : p.Everywhere P →
    bad (.refused ⟨kind, message, some (.phrase p)⟩)
  notScalar : bad .notScalar
  noSuchPart : bad .noSuchPart

structure Members.All (Q : Node → Prop) (m : Members) : Prop where
  members : ∀ n ∈ m.members, Q n
  spreads : ∀ n ∈ m.spreads, Q n

section
variable {Q : Node → Prop} {bad : Fault → Prop}

/-! ## Nodes made of nodes -/

theorem inherited_nullable (hQ : Node.Inherited Q) {it : Node} (h : Q it) (role : Role Bool) :
    Q (nullable it role) := by
  unfold nullable
  split
  all_goals
    apply hQ.group
    simp [h, Node.null, Node.undefined, hQ.word]

theorem inherited_anyObject (hQ : Node.Inherited Q) : Q Utility.anyObject := by
  apply hQ.object
  rw [List.forall_mem_singleton]
  apply hQ.index
  · simp [Node.string, hQ.word]
  · simp [Node.any, hQ.word]

theorem Members.All.assemble (hQ : Node.Inherited Q) {m : Members} (h : m.All Q)
    {indexers : List Node} (hi : ∀ n ∈ indexers, Q n) : Q (m.assemble indexers) := by
  have literal := hQ.object (List.forall_mem_append.2 ⟨h.members, hi⟩)
  unfold Members.assemble
  split
  · exact literal
  · exact hQ.group _ (List.forall_mem_cons.2 ⟨literal, h.spreads⟩)

theorem inherited_apply (hQ : Node.Inherited Q) {u : Utility} {subject : Flow.Part}
    {args : Option (List Node)} (h : ∀ ns ∈ args, ∀ n ∈ ns, Q n)
    (named : ∀ name ∈ u.introduced, ∀ {args : Option (List Node)}, (∀ ns ∈ args, ∀ n ∈ ns, Q n) →
      Q (.named name args))
    (refused : ∀ message, bad (.refused ⟨.str u.name, message, some subject⟩)) :
    Ends (u.apply subject args) Q bad := by
  have each : ∀ n ∈ args.getD [], Q n := by
    cases args with
    | none => simp
    | some ns => exact h ns rfl
  have given : ∀ {ns : List Node}, (∀ n ∈ ns, Q n) → ∀ ms ∈ some ns, ∀ n ∈ ms, Q n := by
    rintro ns h _ ⟨⟩
    exact h
  unfold Utility.apply
  split
  case h_1 x hx | h_10 x hx =>
    rw [hx, List.forall_mem_singleton] at each
    exact ends_pure (hQ.operator _ each)
  case h_2 x hx =>
    rw [hx, List.forall_mem_singleton] at each
    exact ends_pure (hQ.access each (hQ.operator _ each))
  case h_3 x hx | h_4 x hx | h_9 x hx =>
    rw [hx] at each
    exact ends_pure (named _ List.mem_cons_self (given each))
  case h_5 x hx =>
    rw [hx, List.forall_mem_singleton] at each
    exact ends_warn.bind fun _ _ => ends_pure each
  case h_6 x y hxy =>
    rw [hxy, List.forall_mem_cons, List.forall_mem_singleton] at each
    obtain ⟨hx, hy⟩ := each
    have exclude : Q (.named "Exclude" (some [.operator .keyof x, .operator .keyof y])) := by
      apply named _ (by simp [Utility.introduced])
      apply given
      simp [hQ.operator, hx, hy]
    apply ends_pure
    apply named _ List.mem_cons_self
    apply given
    simp [hx, exclude]
  case h_7 x y hxy | h_8 x y hxy =>
    rw [hxy, List.forall_mem_cons, List.forall_mem_singleton] at each
    exact ends_pure (hQ.access each.1 each.2)
  case h_11 => exact ends_pure (named _ List.mem_cons_self h)
  case h_12 => exact ends_pure (inherited_anyObject hQ)
  case h_13 | h_14 => exact ends_throw (refused _)

end

theorem yields_fresh (earlier : List (List Json)) (used : List Json) {bad : Fault → Prop}
    (notScalar : bad .notScalar) : Yields (Names.usual.fresh earlier used) (fun _ => True) bad := by
  have scalar : ∀ j : Json, Yields j.toScalar (fun _ => True) bad := by
    intro j
    cases j with
    | scalar s => trivial
    | _ => exact notScalar
  exact (Yields.mapM fun j _ => scalar j).bind fun _ _ => trivial

namespace Upholds

variable {names : Names} {P : Phrase → Prop} {Q : Node → Prop} {bad : Fault → Prop}

/-! ## Single steps -/

theorem ends_refuse {α : Type} {ok : α → Prop} (h : Upholds names P Q bad) {p : Phrase}
    (hp : p.Everywhere P) (kind message : Text) : Ends (refuse kind message (.phrase p)) ok bad :=
  ends_throw (h.refused _ _ hp)

theorem ends_refuseKind {α : Type} {ok : α → Prop} (h : Upholds names P Q bad) {p : Phrase}
    (hp : p.Everywhere P) : Ends (refuseKind p : Converting α) ok bad :=
  ends_throw (h.refused _ _ hp)

theorem yields_toScalar (h : Upholds names P Q bad) (j : Json) :
    Yields j.toScalar (fun _ => True) bad := by
  cases j with
  | scalar s => trivial
  | _ => exact h.notScalar

theorem ends_primitive (h : Upholds names P Q bad) (w : Flow.Primitive) :
    Ends (primitive w) Q bad := by
  cases w with
  | «exists» => exact ends_warn.bind fun _ _ => ends_pure (h.inherited.word _)
  | this => exact ends_pure h.inherited.this
  | _ => exact ends_pure (h.inherited.word _)

theorem yields_literal (h : Upholds names P Q bad) (kind : Flow.LiteralKind) (v : Json) :
    Yields (literal kind v) Q bad := by
  cases kind with
  | boolean => exact h.inherited.literal _
  | _ => exact (h.yields_toScalar v).bind fun _ _ => h.inherited.literal _

theorem yields_propertySignature (h : Upholds names P Q bad) (key : Flow.PropertyKey) {type : Node}
    (htype : Q type) (optional : Bool) (variance : Option Flow.Variance) (cs : Flow.Comments) :
    Yields (propertySignature key type optional variance cs) Q bad := by
  have comment : ∀ c : Flow.Comment,
      Yields (TypeScript.comment? c.value (.bool c.block)) (fun _ => True) bad := fun c =>
    (h.yields_toScalar _).bind fun _ _ => (h.yields_toScalar _).bind fun _ _ => trivial
  have list : ∀ cs, Yields (comments cs) (fun _ => True) bad := fun cs =>
    (Yields.mapM fun c _ => comment c).mono (fun _ _ => trivial) fun _ he => he
  have key' : Yields (TypeScript.propertyKey? key.text (.bool key.quoted)) (fun _ => True) bad :=
    (h.yields_toScalar _).bind fun _ _ => (h.yields_toScalar _).bind fun _ _ => trivial
  unfold propertySignature
  refine key'.bind fun key' _ => ?_
  refine (list cs.leading).bind fun leading _ => ?_
  refine (list cs.inner).bind fun inner _ => ?_
  refine (list cs.trailing).bind fun trailing _ => ?_
  exact h.inherited.property _ _ _ _ (by simpa using htype)

theorem yields_nameOf (h : Upholds names P Q bad) (p : Phrase) :
    Yields (nameOf p) (fun _ => True) bad := by
  unfold nameOf
  split
  case h_4 => exact h.noSuchPart
  all_goals trivial

theorem yields_namesInUse (h : Upholds names P Q bad) (ps : List Phrase) :
    Yields (namesInUse ps) (fun _ => True) bad :=
  (Yields.mapM fun p _ => h.yields_nameOf p).bind fun _ _ => trivial

theorem ends_nameFor (h : Upholds names P Q bad) (name : Json) (used : List Json) :
    Ends (nameFor names name used) (fun _ => True) bad := by
  have asked : Ends (askName names used) (fun _ => True) bad := fun log => by
    rw [outcome_askName]
    exact h.fresh _ used
  unfold nameFor
  split
  · exact asked.bind fun _ _ => ends_pure trivial
  · exact ends_pure trivial

theorem yields_signatureRoles (h : Upholds names P Q bad) (ps : List Phrase) :
    Yields (signatureRoles ps) (fun _ => True) bad := by
  unfold signatureRoles
  refine (@Yields.mapM _ _ _ _ (fun _ => True) _ fun p _ => ?_).bind fun _ _ => trivial
  cases p.optional? with
  | some o => trivial
  | none => exact h.noSuchPart

/-! ## Trees -/

mutual

theorem ends_convert (h : Upholds names P Q bad) {p : Phrase} {role : Role Bool}
    (hp : p.Everywhere P) : Ends (convert names p role) Q bad := by
  match p with
  | .primitive s w => exact h.ends_primitive w
  | .literal s k v => exact ends_lift (h.yields_literal k v)
  | .array s e =>
    have he := (Phrase.everywhere_array.1 hp).2
    exact (h.ends_convert he).bind fun _ hn => ends_pure (h.inherited.array hn)
  | .group s g ts =>
    have hts := (Phrase.everywhere_group.1 hp).2
    exact (h.ends_each hts).bind fun _ hn => ends_pure (h.inherited.group _ hn)
  | .nullable s q =>
    have hq := (Phrase.everywhere_nullable.1 hp).2
    exact (h.ends_convert hq).bind fun _ hn => ends_pure (inherited_nullable h.inherited hn role)
  | .typeof s a =>
    have ha := (Phrase.everywhere_typeof.1 hp).2
    exact (h.ends_convert ha).bind fun _ hn => ends_pure (h.inherited.operator _ hn)
  | .generic s id as =>
    have ⟨_, has⟩ := (Phrase.everywhere_generic.1 hp).2
    exact (h.ends_args has).bind fun _ hargs => h.reference hp hargs
  | .object s ps is cs x =>
    have ⟨hps, his, hcs⟩ := (Phrase.everywhere_object.1 hp).2
    have parts : Ends (convertParts names ps is cs) Q bad := by
      refine (h.ends_members hps).bind fun members hm => ?_
      refine (h.ends_indexers his).bind fun indexers hi => ?_
      cases cs with
      | nil => exact ends_pure (hm.assemble h.inherited hi)
      | cons c cs => exact h.ends_refuse (hcs c List.mem_cons_self) _ _
    rw [convert_object]
    cases x with
    | true => exact ends_warn.bind fun _ _ => parts
    | false => exact parts
  | .callable s .ofType ps r rest ts =>
    have ⟨hps, hr, hrest, hts⟩ := (Phrase.everywhere_callable.1 hp).2
    refine (h.ends_typeParams hts).bind fun typeParams ht => ?_
    refine (ends_lift (h.yields_namesInUse ps)).bind fun used _ => ?_
    refine (h.ends_params hps).bind fun params hparams => ?_
    refine (h.ends_rest hrest).bind fun last hlast => ?_
    refine (h.ends_maybe hr).bind fun result hresult => ends_pure ?_
    exact h.inherited.function ht (List.forall_mem_append.2 ⟨hparams, hlast⟩) hresult
  | .callable s (.declared n) ps r rest ts => exact h.ends_refuseKind hp
  | .typeName n => exact h.ends_refuseKind hp
  | .property s k v o w c => exact h.ends_refuseKind hp
  | .spread s a => exact h.ends_refuseKind hp
  | .indexer s i k v w => exact h.ends_refuseKind hp
  | .callProperty s v st => exact h.ends_refuseKind hp
  | .typeParameter s n b d w => exact h.ends_refuseKind hp
  | .parameter s f n a o => exact h.ends_refuseKind hp

theorem ends_each (h : Upholds names P Q bad) {ps : List Phrase} {role : Role Bool}
    (hps : ∀ p ∈ ps, p.Everywhere P) :
    Ends (convertEach names ps role) (fun ns => ∀ n ∈ ns, Q n) bad := by
  match ps with
  | [] => exact ends_pure fun _ hn => nomatch hn
  | p :: rest =>
    have ⟨hp, hrest⟩ := List.forall_mem_cons.1 hps
    refine (h.ends_convert hp).bind fun node hnode => ?_
    exact (h.ends_each hrest).bind fun nodes hs => ends_pure (List.forall_mem_cons.2 ⟨hnode, hs⟩)

theorem ends_maybe (h : Upholds names P Q bad) {o : Option Phrase} {role : Role Bool}
    (ho : ∀ p ∈ o, p.Everywhere P) :
    Ends (convertMaybe names o role) (fun o => ∀ n ∈ o, Q n) bad := by
  match o with
  | none => exact ends_pure fun _ hn => nomatch hn
  | some p =>
    refine (h.ends_convert (ho p rfl)).bind fun node h => ends_pure ?_
    intro _ same
    cases same
    exact h

theorem ends_args (h : Upholds names P Q bad) {o : Option (List Phrase)}
    (ho : ∀ ps ∈ o, ∀ p ∈ ps, p.Everywhere P) :
    Ends (convertArgs names o) (fun o => ∀ ns ∈ o, ∀ n ∈ ns, Q n) bad := by
  match o with
  | none => exact ends_pure fun _ hn => nomatch hn
  | some ps =>
    refine (h.ends_each (ho ps rfl)).bind fun nodes h => ends_pure ?_
    intro _ same
    cases same
    exact h

theorem ends_members (h : Upholds names P Q bad) {ps : List Phrase}
    (hps : ∀ p ∈ ps, p.Everywhere P) : Ends (convertMembers names ps) (Members.All Q) bad := by
  match ps with
  | [] => exact ends_pure ⟨fun _ hn => (nomatch hn), fun _ hn => (nomatch hn)⟩
  | p :: rest =>
    have ⟨hp, hrest⟩ := List.forall_mem_cons.1 hps
    cases p with
    | property s k v o w c =>
      have hv := (Phrase.everywhere_property.1 hp).2
      refine (h.ends_convert hv).bind fun type htype => ?_
      refine (ends_lift (h.yields_propertySignature k htype o w c)).bind fun member hm => ?_
      refine (h.ends_members hrest).bind fun others hs => ends_pure ?_
      exact ⟨List.forall_mem_cons.2 ⟨hm, hs.members⟩, hs.spreads⟩
    | spread s a =>
      have ha := (Phrase.everywhere_spread.1 hp).2
      refine (h.ends_convert ha).bind fun spread hspread => ?_
      refine (h.ends_members hrest).bind fun others hs => ends_pure ?_
      exact ⟨hs.members, List.forall_mem_cons.2 ⟨hspread, hs.spreads⟩⟩
    | _ => exact h.ends_refuseKind hp

theorem ends_indexers (h : Upholds names P Q bad) {ps : List Phrase}
    (hps : ∀ p ∈ ps, p.Everywhere P) :
    Ends (convertIndexers names ps) (fun ns => ∀ n ∈ ns, Q n) bad := by
  match ps with
  | [] => exact ends_pure fun _ hn => nomatch hn
  | p :: rest =>
    have ⟨hp, hrest⟩ := List.forall_mem_cons.1 hps
    cases p with
    | indexer s id k v w =>
      have ⟨hk, hv⟩ := (Phrase.everywhere_indexer.1 hp).2
      refine (h.ends_convert hk).bind fun key hkey => ?_
      refine (h.ends_convert hv).bind fun type htype => ?_
      have index : Yields (Node.index? (indexName id) (some key) (some type)) Q bad :=
        (h.yields_toScalar _).bind fun _ _ =>
          h.inherited.index _ (by simpa using hkey) (by simpa using htype)
      refine (ends_lift index).bind fun member hm => ?_
      exact (h.ends_indexers hrest).bind fun others hs =>
        ends_pure (List.forall_mem_cons.2 ⟨hm, hs⟩)
    | _ => exact ends_throw h.noSuchPart

theorem ends_params (h : Upholds names P Q bad) {ps : List Phrase} {roles : List (Role Bool)}
    {used : List Json} (hps : ∀ p ∈ ps, p.Everywhere P) :
    Ends (convertParams names ps roles used) (fun ns => ∀ n ∈ ns, Q n) bad := by
  match ps, roles with
  | [], _ => exact ends_pure fun _ hn => nomatch hn
  | p :: rest, [] => cases p <;> exact ends_pure fun _ hn => nomatch hn
  | p :: rest, role :: roles =>
    have ⟨hp, hrest⟩ := List.forall_mem_cons.1 hps
    cases p with
    | parameter s f n a o =>
      have ha := (Phrase.everywhere_parameter.1 hp).2
      refine (h.ends_nameFor n used).bind fun named _ => ?_
      refine (h.ends_maybe ha).bind fun type htype => ?_
      have param : Yields (Node.parameter? named.1 type o) Q bad :=
        (h.yields_toScalar _).bind fun _ _ => h.inherited.parameter _ _ htype
      refine (ends_lift param).bind fun param hparam => ?_
      exact (h.ends_params hrest).bind fun others hs =>
        ends_pure (List.forall_mem_cons.2 ⟨hparam, hs⟩)
    | _ =>
      exact (ends_lift (h.yields_nameOf _)).bind fun name _ =>
        (h.ends_nameFor name used).bind fun _ _ => ends_throw h.noSuchPart

theorem ends_rest (h : Upholds names P Q bad) {o : Option Phrase} (ho : ∀ p ∈ o, p.Everywhere P) :
    Ends (convertRest names o) (fun ns => ∀ n ∈ ns, Q n) bad := by
  match o with
  | none => exact ends_pure fun _ hn => nomatch hn
  | some p =>
    have hp := ho p rfl
    cases p with
    | parameter s f n a o =>
      have ha := (Phrase.everywhere_parameter.1 hp).2
      rw [convertRest_parameter]
      cases n.isNull with
      | true => exact ends_pure fun _ hn => nomatch hn
      | false =>
        refine (h.ends_maybe ha).bind fun type htype => ?_
        have rest : Yields (Node.rest? n type) Q bad :=
          (h.yields_toScalar _).bind fun _ _ => h.inherited.rest _ htype
        exact (ends_lift rest).bind fun rest h => ends_pure (List.forall_mem_singleton.2 h)
    | _ =>
      refine (ends_lift (h.yields_nameOf _)).bind fun name _ => ?_
      cases name.isNull with
      | true => exact ends_pure fun _ hn => nomatch hn
      | false => exact ends_throw h.noSuchPart

theorem ends_typeParams (h : Upholds names P Q bad) {o : Option (List Phrase)}
    (ho : ∀ ps ∈ o, ∀ p ∈ ps, p.Everywhere P) :
    Ends (convertTypeParams names o) (fun o => ∀ ns ∈ o, ∀ n ∈ ns, Q n) bad := by
  match o with
  | none => exact ends_pure fun _ hn => nomatch hn
  | some ps =>
    refine (h.ends_eachTypeParam (ho ps rfl)).bind fun nodes h => ends_pure ?_
    intro _ same
    cases same
    exact h

theorem ends_eachTypeParam (h : Upholds names P Q bad) {ps : List Phrase}
    (hps : ∀ p ∈ ps, p.Everywhere P) :
    Ends (convertEachTypeParam names ps) (fun ns => ∀ n ∈ ns, Q n) bad := by
  match ps with
  | [] => exact ends_pure fun _ hn => nomatch hn
  | p :: rest =>
    have ⟨hp, hrest⟩ := List.forall_mem_cons.1 hps
    cases p with
    | typeParameter s n b d w =>
      have ⟨hb, hd⟩ := (Phrase.everywhere_typeParameter.1 hp).2
      refine (h.ends_maybe hb).bind fun bound hbound => ?_
      refine (h.ends_maybe hd).bind fun default hdefault => ?_
      have param : Yields (Node.typeParameter? n bound default) Q bad :=
        (h.yields_toScalar _).bind fun _ _ => h.inherited.typeParameter _ hbound hdefault
      refine (ends_lift param).bind fun param hparam => ?_
      exact (h.ends_eachTypeParam hrest).bind fun others hs =>
        ends_pure (List.forall_mem_cons.2 ⟨hparam, hs⟩)
    | _ => exact ends_throw h.noSuchPart

end

theorem ends_convertSignature (h : Upholds names P Q bad) {p : Phrase} (hp : p.Everywhere P) :
    Ends (convertSignature names p) Q bad := by
  cases p with
  | callable s form ps r rest ts =>
    have ⟨hps, hr, hrest, hts⟩ := (Phrase.everywhere_callable.1 hp).2
    refine (ends_lift (h.yields_signatureRoles ps)).bind fun roles _ => ?_
    refine (h.ends_typeParams hts).bind fun typeParams ht => ?_
    refine (ends_lift (h.yields_namesInUse ps)).bind fun used _ => ?_
    refine (h.ends_params hps).bind fun params hparams => ?_
    refine (h.ends_rest hrest).bind fun last hlast => ?_
    refine (h.ends_maybe hr).bind fun result hresult => ends_pure ?_
    exact h.inherited.function ht (List.forall_mem_append.2 ⟨hparams, hlast⟩) hresult
  | _ => exact ends_throw h.noSuchPart

theorem ends_convertEntry (h : Upholds names P Q bad) {p : Phrase} (hp : p.Everywhere P) :
    Ends (convertEntry names p) (fun o => ∀ n ∈ o, Q n) bad := by
  have single : ∀ {c : Converting Node}, Ends c Q bad →
      Ends (do return some (← c)) (fun o => ∀ n ∈ o, Q n) bad := fun hc =>
    hc.bind fun node hnode => ends_pure fun n hn => by
      cases hn
      exact hnode
  cases p with
  | callable s form ps r rest ts =>
    cases form with
    | declared n => exact single (h.ends_convertSignature hp)
    | ofType => exact single (h.ends_convert hp)
  | parameter s form n t o =>
    cases form with
    | declared =>
      have ht := (Phrase.everywhere_parameter.1 hp).2
      exact h.ends_maybe ht
    | ofType => exact single (h.ends_convert hp)
  | _ => exact single (h.ends_convert hp)

end Upholds

end Converting

end Reannotate
