import Reannotate.Proofs.Kinds
import Reannotate.Proofs.Visit

/-!
# What is refused

`Phrase.Refuses` lists the grounds on which a phrase in the place of a type is refused. The
conversion of a well-kinded tree ends with a node if no phrase that it visits is refused, and if one
is, with such a refusal; nothing else can go wrong (`convert_refuses_iff`).
-/

namespace Reannotate

open Reannotate.Flow (Phrase TypeName Role Frame)
open Reannotate.TypeScript (Node)

namespace Flow.Phrase

def isType : Phrase → Bool
  | .primitive _ _ | .literal _ _ _ | .array _ _ | .group _ _ _ | .nullable _ _ | .typeof _ _
  | .generic _ _ _ | .object _ _ _ _ _ | .callable _ .ofType _ _ _ _ => true
  | _ => false

def isMember : Phrase → Bool
  | .property _ _ _ _ _ _ | .spread _ _ => true
  | _ => false

end Flow.Phrase

def Refusal.ofKind (p : Phrase) : Refusal where
  kind := .str p.kind
  message := .str ("There is no translation for FlowType(type=" ++ p.kind ++ ").")
  subject := some (.phrase p)

/-- Why a phrase in the place of a type is refused. -/
inductive Flow.Phrase.Refuses : Phrase → Refusal → Prop
  | noType {p} (h : p.isType = false) : Refuses p (.ofKind p)
  | noMember {s ps is cs x m} (hm : m ∈ ps) (h : m.isMember = false) :
      Refuses (.object s ps is cs x) (.ofKind m)
  | call {s ps is c cs x} : Refuses (.object s ps is (c :: cs) x)
      ⟨.str "ObjectTypeCallProperty", .str
        "Call properties would become TSCallSignatureDeclaration, which is not supported yet.",
        some (.phrase c)⟩
  | nested {s id as} (h : 1 < id.depth) : Refuses (.generic s id as)
      ⟨.str "QualifiedTypeIdentifier", .str "Nested qualification is not supported.",
        some (.phrase (.generic s id as))⟩
  | dots {s sp name as} (hu : Utility.ofName? name = none)
      (h : 2 < (Converting.dotted (resolveName name)).length) :
      Refuses (.generic s (.plain sp name) as) ⟨.str "QualifiedTypeIdentifier",
        .str ("Nested qualification is not supported: " ++ resolveName name),
        some (.phrase (.generic s (.plain sp name) as))⟩
  | arity {s sp name as u n} (hu : Utility.ofName? name = some u) (hn : u.arity = some n)
      (h : (as.getD []).length ≠ n) : Refuses (.generic s (.plain sp name) as)
      ⟨.str u.name, .str (u.arityMessage n (as.getD []).length),
        some (.phrase (.generic s (.plain sp name) as))⟩
  | rest {s sp name as} (hu : Utility.ofName? name = some .rest) :
      Refuses (.generic s (.plain sp name) as)
      ⟨.str "$Rest", .str "$Rest in GenericTypeAnnotation is not supported.",
        some (.phrase (.generic s (.plain sp name) as))⟩

theorem not_refuses {p : Phrase} (ht : p.isType = true)
    (ho : ∀ s ps is cs x, p ≠ .object s ps is cs x) (hg : ∀ s id as, p ≠ .generic s id as)
    (r : Refusal) : ¬p.Refuses r := by
  intro hr
  cases hr with
  | noType h => exact absurd (ht.symm.trans h) Bool.noConfusion
  | noMember => exact ho _ _ _ _ _ rfl
  | call => exact ho _ _ _ _ _ rfl
  | nested => exact hg _ _ _ rfl
  | dots => exact hg _ _ _ rfl
  | arity => exact hg _ _ _ rfl
  | rest => exact hg _ _ _ rfl

/-! ## Calls without refusals -/

/-- Nothing that is reached from the call is refused. -/
def Clean (call : Call) : Prop :=
  ∀ c, Reaches call c → ∀ r, ¬c.phrase.Refuses r

theorem clean_of_hands {call : Call} (own : ∀ r, ¬call.phrase.Refuses r)
    (h : ∀ b, Hands call b → Clean b) : Clean call := by
  intro c hc
  rcases Relation.ReflTransGen.cases_head hc with rfl | ⟨b, hb, hbc⟩
  · exact own
  · exact h b hb c hbc

/-- `B` holds of the refusals of all that is reached from the call. -/
def Blames (B : Refusal → Prop) (call : Call) : Prop :=
  ∀ c, Reaches call c → ∀ r, c.phrase.Refuses r → B r

theorem Blames.hands {B : Refusal → Prop} {a b : Call} (h : Blames B a) (hab : Hands a b) :
    Blames B b :=
  fun c hc => h c (.head hab hc)

def Refused (B : Refusal → Prop) (e : Fault) : Prop :=
  ∃ r, e = .refused r ∧ B r

namespace Converting

section
variable {B : Refusal → Prop}

/-! ## Steps -/

theorem ends_primitive (w : Flow.Primitive) : Ends (primitive w) (fun _ => True) (Refused B) := by
  cases w with
  | «exists» => exact ends_warn.bind fun _ _ => ends_pure trivial
  | _ => exact ends_pure trivial

theorem yields_toScalar {j : Json} (h : j = .null ∨ j.Textual) :
    Yields j.toScalar (fun _ => True) (Refused B) := by
  rcases h with rfl | ⟨s, rfl⟩ <;> trivial

theorem textual_indexName {id : Json} (h : id = .null ∨ id.Textual) : (indexName id).Textual := by
  unfold indexName
  split
  · rename_i ht
    rcases h with rfl | h
    · exact absurd ht Bool.false_ne_true
    · exact h
  · exact ⟨_, rfl⟩

theorem yields_literal {k : Flow.LiteralKind} {v : Json} (h : v.Literal) :
    Yields (literal k v) (fun _ => True) (Refused B) := by
  obtain ⟨s, rfl, _⟩ := h
  cases k <;> trivial

theorem ends_apply {u : Utility} {n : Nat} (hu : u.arity = some n) (subject : Flow.Part)
    {args : Option (List Node)} (h : (args.getD []).length = n) :
    Ends (u.apply subject args) (fun _ => True) (Refused B) := by
  unfold Utility.apply
  cases u with
  | fixMe => cases hu
  | object => cases hu
  | rest => cases hu
  | diff | propertyType | elementType =>
    cases hu
    obtain ⟨x, y, hxy⟩ := List.length_eq_two.1 h
    rw [hxy]
    exact ends_pure trivial
  | exact =>
    cases hu
    obtain ⟨x, hx⟩ := List.length_eq_one_iff.1 h
    rw [hx]
    exact ends_warn.bind fun _ _ => ends_pure trivial
  | _ =>
    cases hu
    obtain ⟨x, hx⟩ := List.length_eq_one_iff.1 h
    rw [hx]
    exact ends_pure trivial

theorem apply_refuses {u : Utility} {n : Nat} (hu : u.arity = some n) (subject : Flow.Part)
    {args : Option (List Node)} (h : (args.getD []).length ≠ n) :
    u.apply subject args =
      refuse u.name (u.arityMessage n (args.getD []).length) subject := by
  unfold Utility.apply
  split
  case h_11 | h_12 | h_13 => cases hu
  case h_14 =>
    rw [hu]
    rfl
  all_goals
    rename_i hargs
    cases hu
    rw [hargs] at h
    exact absurd rfl h

section
variable {s : Option Flow.Span} {as : Option (List Phrase)} {args : Option (List Node)}

theorem ends_refuse {α : Type} {ok : α → Prop} {kind message : Text} {subject : Flow.Part}
    (h : B ⟨.str kind, .str message, some subject⟩) :
    Ends (refuse kind message subject : Converting α) ok (Refused B) :=
  ends_throw ⟨_, rfl, h⟩

theorem ends_utility {sp : Option Flow.Span} {name : Text} {u : Utility}
    (hu : Utility.ofName? name = some u) (hlen : (args.getD []).length = (as.getD []).length)
    (hB : ∀ r, (Phrase.generic s (.plain sp name) as).Refuses r → B r) :
    Ends (u.apply (.phrase (.generic s (.plain sp name) as)) args)
      (fun _ => ∀ r, ¬(Phrase.generic s (.plain sp name) as).Refuses r) (Refused B) := by
  -- the grounds that are left for a utility type
  have clean : u ≠ .rest → (∀ n, u.arity = some n → (as.getD []).length = n) →
      ∀ r, ¬(Phrase.generic s (.plain sp name) as).Refuses r := by
    intro hrest harity r hr
    cases hr with
    | noType h => cases h
    | nested h => exact absurd h (Nat.not_lt_zero 1)
    | dots hu' h => cases hu.symm.trans hu'
    | arity hu' hn h =>
      cases hu.symm.trans hu'
      exact h (harity _ hn)
    | rest hu' =>
      cases hu.symm.trans hu'
      exact hrest rfl
  cases ha : u.arity with
  | some n =>
    by_cases h : (as.getD []).length = n
    · refine (ends_apply ha _ (hlen.trans h)).mono (fun _ _ => clean ?_ ?_) fun _ he => he
      · intro same
        subst same
        cases ha
      · rw [ha]
        intro k same
        cases same
        exact h
    · rw [apply_refuses ha _ (hlen ▸ h)]
      exact ends_refuse (hlen ▸ hB _ (.arity hu ha h))
  | none =>
    cases u with
    | rest => exact ends_refuse (hB _ (.rest hu))
    | fixMe | object => exact ends_pure (clean Utility.noConfusion (by simp [Utility.arity]))
    | _ => cases ha

theorem ends_referTo {sp : Option Flow.Span} {name : Text} (hu : Utility.ofName? name = none)
    (hB : ∀ r, (Phrase.generic s (.plain sp name) as).Refuses r → B r) :
    Ends (referTo (.generic s (.plain sp name) as) (resolveName name) args)
      (fun _ => ∀ r, ¬(Phrase.generic s (.plain sp name) as).Refuses r) (Refused B) := by
  have clean : ¬2 < (dotted (resolveName name)).length →
      ∀ r, ¬(Phrase.generic s (.plain sp name) as).Refuses r := by
    intro hdots r hr
    cases hr with
    | noType h => cases h
    | nested h => exact absurd h (Nat.not_lt_zero 1)
    | dots _ h => exact hdots h
    | arity hu' => cases hu.symm.trans hu'
    | rest hu' => cases hu.symm.trans hu'
  unfold referTo
  split
  case h_4 h2 h0 h1 =>
    refine ends_refuse (hB _ (.dots hu ?_))
    match h : dotted (resolveName name) with
    | [] => exact absurd h h0
    | [a] => exact absurd h (h1 a)
    | [a, b] => exact absurd h (h2 a b)
    | a :: b :: c :: rest => simp
  all_goals
    rename_i h
    exact ends_pure (clean (by simp [h]))

theorem ends_reference {id : TypeName} (hid : (Phrase.typeName id).WellKinded)
    (hlen : (args.getD []).length = (as.getD []).length)
    (hB : ∀ r, (Phrase.generic s id as).Refuses r → B r) :
    Ends (reference .usual (.generic s id as) id args)
      (fun _ => ∀ r, ¬(Phrase.generic s id as).Refuses r) (Refused B) := by
  match id with
  | .plain sp name =>
    cases hu : Utility.ofName? name with
    | some u =>
      simp only [reference, hu]
      exact ends_utility hu hlen hB
    | none =>
      simp only [reference, hu]
      exact ends_referTo hu hB
  | .qualified _ (.plain _ left) (.plain _ right) =>
    refine ends_pure fun r hr => ?_
    cases hr with
    | noType h => cases h
    | nested h => exact absurd h (Nat.lt_irrefl 1)
  | .qualified _ (.plain _ left) (.qualified _ q i) => exact absurd hid.here (Nat.succ_ne_zero _)
  | .qualified _ (.qualified _ q i) _ => exact ends_refuse (hB _ (.nested (Nat.le_add_left 2 _)))

end

/-! ## Names of parameters -/

theorem ends_nameFor {name : Json} (hname : name = .null ∨ name.Textual) {used : List Json}
    (hused : ∀ j ∈ used, j.Textual) :
    Ends (nameFor .usual name used) (fun r => r.1.Textual ∧ ∀ j ∈ r.2, j.Textual) (Refused B) := by
  rcases hname with rfl | ⟨s, rfl⟩
  · have scalars : Yields (used.mapM Json.toScalar) (fun _ => True) (Refused B) :=
      (Yields.mapM fun j hj => yields_toScalar (.inr (hused j hj))).mono (fun _ _ => trivial)
        fun _ he => he
    have asked : Ends (askName .usual used) (fun _ => True) (Refused B) := fun log => by
      rw [outcome_askName]
      exact scalars.bind fun _ _ => trivial
    refine asked.bind fun fresh _ => ends_pure ⟨⟨_, rfl⟩, ?_⟩
    exact List.forall_mem_append.2 ⟨hused, List.forall_mem_singleton.2 ⟨_, rfl⟩⟩
  · exact ends_pure ⟨⟨s, rfl⟩, hused⟩

theorem yields_namesInUse {ps : List Phrase} (hps : ∀ p ∈ ps, p.isParameter = true ∧ p.Fits) :
    Yields (namesInUse ps) (fun used => ∀ j ∈ used, j.Textual) (Refused B) := by
  have names : Yields (ps.mapM nameOf) (fun names => ∀ j ∈ names, j = .null ∨ j.Textual)
      (Refused B) := by
    refine Yields.mapM fun p hp => ?_
    obtain ⟨hparam, hfits⟩ := hps p hp
    cases p with
    | parameter s f n a o => exact hfits
    | _ => exact absurd hparam Bool.false_ne_true
  refine names.bind fun names hnames j hj => ?_
  obtain ⟨hj, hnull⟩ := List.mem_filter.1 hj
  exact (hnames j hj).resolve_left fun h => by simp [h, Json.isNull] at hnull

/-! ## Parts -/

section
variable {s : Option Flow.Span} {ps is cs : List Phrase} {x : Bool} {role : Role Bool}
variable {r rest : Option Phrase} {ts : Option (List Phrase)}

theorem ends_object {inMembers inIndexers : Prop}
    (own : ∀ r, (Phrase.object s ps is cs x).Refuses r → B r)
    (members : Ends (convertMembers .usual ps)
      (fun _ => (∀ m ∈ ps, m.isMember = true) ∧ inMembers) (Refused B))
    (indexers : Ends (convertIndexers .usual is) (fun _ => inIndexers) (Refused B)) :
    Ends (convert .usual (.object s ps is cs x) role)
      (fun _ => (∀ r, ¬(Phrase.object s ps is cs x).Refuses r) ∧ inMembers ∧ inIndexers)
      (Refused B) := by
  have parts : Ends (convertParts .usual ps is cs)
      (fun _ => (∀ r, ¬(Phrase.object s ps is cs x).Refuses r) ∧ inMembers ∧ inIndexers)
      (Refused B) := by
    refine members.bind fun members ⟨hmembers, hm⟩ => ?_
    refine indexers.bind fun indexers hi => ?_
    cases cs with
    | cons c cs => exact ends_refuse (own _ .call)
    | nil =>
      refine ends_pure ⟨fun r hr => ?_, hm, hi⟩
      cases hr with
      | noType h => cases h
      | noMember hm h => exact absurd (h.symm.trans (hmembers _ hm)) Bool.noConfusion
  rw [convert_object]
  cases x with
  | true => exact ends_warn.bind fun _ _ => parts
  | false => exact parts

theorem ends_callable {inTypeParams inParams inRest inResult : Prop}
    (names : ∀ p ∈ ps, p.isParameter = true ∧ p.Fits)
    (typeParams : Ends (convertTypeParams .usual ts) (fun _ => inTypeParams) (Refused B))
    (params : ∀ used : List Json, (∀ j ∈ used, j.Textual) →
      Ends (convertParams .usual ps (ps.map fun _ => .other) used) (fun _ => inParams) (Refused B))
    (last : Ends (convertRest .usual rest) (fun _ => inRest) (Refused B))
    (result : Ends (convertMaybe .usual r role) (fun _ => inResult) (Refused B)) :
    Ends (convert .usual (.callable s .ofType ps r rest ts) role)
      (fun _ => inTypeParams ∧ inParams ∧ inRest ∧ inResult) (Refused B) := by
  refine typeParams.bind fun _ hts => ?_
  refine (ends_lift (yields_namesInUse names)).bind fun used hused => ?_
  refine (params used hused).bind fun _ hps => ?_
  refine last.bind fun _ hrest => ?_
  exact result.bind fun _ hr => ends_pure ⟨hts, hps, hrest, hr⟩

end

mutual

theorem ends_convert {t : List Frame} {p : Phrase} {role : Role Bool} (hp : p.WellKinded)
    (hB : Blames B ⟨t, p, role⟩) :
    Ends (convert .usual p role) (fun _ => Clean ⟨t, p, role⟩) (Refused B) := by
  have own : ∀ r, p.Refuses r → B r := hB _ .refl
  -- A call is clean if its phrase has no refusal of its own and all calls handed on are clean, which
  -- is what the recursion says of them.
  have clean := @clean_of_hands ⟨t, p, role⟩
  match p with
  | .primitive s w =>
    refine (ends_primitive w).mono (fun _ _ => clean (not_refuses rfl nofun nofun) ?_) fun _ he => he
    intro b same
    cases same
  | .literal s k v =>
    refine (ends_lift (yields_literal hp.here)).mono
      (fun _ _ => clean (not_refuses rfl nofun nofun) ?_) fun _ he => he
    intro b same
    cases same
  | .array s e =>
    have he := (Phrase.everywhere_array.1 hp).2
    refine (ends_convert he (hB.hands .element)).bind fun node cleanElement => ends_pure ?_
    refine clean (not_refuses rfl nofun nofun) ?_
    intro b same
    cases same
    exact cleanElement
  | .group s g ts =>
    have hts := (Phrase.everywhere_group.1 hp).2
    refine (ends_each hts fun i q hq => hB.hands (.member hq)).bind
      fun nodes ⟨_, cleans⟩ => ends_pure ?_
    refine clean (not_refuses rfl nofun nofun) fun b hb => ?_
    cases hb with
    | member hq => exact cleans _ _ hq
  | .nullable s q =>
    have hq := (Phrase.everywhere_nullable.1 hp).2
    refine (ends_convert hq (hB.hands .nullable)).bind fun node cleanType => ends_pure ?_
    refine clean (not_refuses rfl nofun nofun) ?_
    intro b same
    cases same
    exact cleanType
  | .typeof s a =>
    have ha := (Phrase.everywhere_typeof.1 hp).2
    refine (ends_convert ha (hB.hands .typeof)).bind fun node cleanArgument => ends_pure ?_
    refine clean (not_refuses rfl nofun nofun) ?_
    intro b same
    cases same
    exact cleanArgument
  | .generic s id as =>
    have ⟨hid, has⟩ := (Phrase.everywhere_generic.1 hp).2
    refine (ends_args ((Phrase.generic s id as).underAt "type_args" t) has
      fun qs e i q hq => ?_).bind fun args ⟨hlen, cleans⟩ => ?_
    · subst e
      exact hB.hands (.typeArg hq)
    refine (ends_reference hid hlen own).mono (fun _ free => clean free fun b hb => ?_) fun _ he => he
    cases hb with
    | typeArg hq => exact cleans _ rfl _ _ hq
  | .object s ps is cs x =>
    have ⟨hps, his, _⟩ := (Phrase.everywhere_object.1 hp).2
    have members := ends_members hps (fun i m hm call hc => hB.hands (.property hm hc))
      fun m hm h => own _ (.noMember hm h)
    have indexers := ends_indexers his hp.here fun i m hm call hc => hB.hands (.indexer hm hc)
    refine (ends_object own members indexers).mono
      (fun _ ⟨free, cleanMembers, cleanIndexers⟩ => clean free fun b hb => ?_) fun _ he => he
    cases hb with
    | property hm hc => exact cleanMembers _ _ hm _ hc
    | indexer hm hc => exact cleanIndexers _ _ hm _ hc
  | .callable s .ofType ps r rest ts =>
    have ⟨hps, hr, hrest, hts⟩ := (Phrase.everywhere_callable.1 hp).2
    have ⟨hips, hirest, hits⟩ := hp.here
    have hand := fun call hc => hB.hands (b := call) (.signature hc)
    let around := Phrase.callable s .ofType ps r rest ts
    have typeParams := ends_typeParams (around.underAt "type_params" t) hts hits
      fun tps e i m hm call hc => by
        subst e
        exact hand _ (.typeParam hm hc)
    have params := fun (used : List Json) (hused : ∀ j ∈ used, j.Textual) =>
      ends_params (around.underAt "params" t) hps hips hused
        fun i m r hm hr call hc => hand _ (.param hm hr hc)
    have last := ends_rest (around.under "rest" t) hrest hirest fun m e call hc => by
      subst e
      exact hand _ (.rest hc)
    have result := ends_maybe (around.under "return_type" t) hr fun q e => by
      subst e
      exact hand _ .result
    have names := fun q hq => And.intro (hips q hq) (hps q hq).here
    refine (ends_callable names typeParams params last result).mono
      (fun _ ⟨cleanTypeParams, cleanParams, cleanRest, cleanResult⟩ => ?_) fun _ he => he
    refine clean (not_refuses rfl nofun nofun) fun b hb => ?_
    cases hb with
    | signature hc =>
      cases hc with
      | typeParam hm hc => exact cleanTypeParams _ rfl _ _ hm _ hc
      | param hm hr hc => exact cleanParams _ _ _ hm hr _ hc
      | rest hc => exact cleanRest _ rfl _ hc
      | result => exact cleanResult _ rfl
  | .callable s (.declared n) ps r rest ts => exact ends_throw ⟨_, rfl, own _ (.noType rfl)⟩
  | .typeName n => exact ends_throw ⟨_, rfl, own _ (.noType rfl)⟩
  | .property s k v o w c => exact ends_throw ⟨_, rfl, own _ (.noType rfl)⟩
  | .spread s a => exact ends_throw ⟨_, rfl, own _ (.noType rfl)⟩
  | .indexer s i k v w => exact ends_throw ⟨_, rfl, own _ (.noType rfl)⟩
  | .callProperty s v st => exact ends_throw ⟨_, rfl, own _ (.noType rfl)⟩
  | .typeParameter s n b d w => exact ends_throw ⟨_, rfl, own _ (.noType rfl)⟩
  | .parameter s f n a o => exact ends_throw ⟨_, rfl, own _ (.noType rfl)⟩

theorem ends_each {t : Nat → List Frame} {ps : List Phrase} {role : Role Bool}
    (hps : ∀ p ∈ ps, p.WellKinded) (hB : ∀ i q, ps[i]? = some q → Blames B ⟨t i, q, role⟩) :
    Ends (convertEach .usual ps role)
      (fun nodes => nodes.length = ps.length ∧ ∀ i q, ps[i]? = some q → Clean ⟨t i, q, role⟩)
      (Refused B) := by
  match ps with
  | [] => exact ends_pure ⟨rfl, fun _ _ hq => nomatch hq⟩
  | p :: rest =>
    have ⟨hp, hrest⟩ := List.forall_mem_cons.1 hps
    refine (ends_convert hp (hB 0 p rfl)).bind fun node clean => ?_
    refine (ends_each hrest fun i q hq => hB (i + 1) q hq).bind fun nodes ⟨hlen, cleans⟩ => ?_
    refine ends_pure ⟨congrArg (· + 1) hlen, fun i q hq => ?_⟩
    cases i with
    | zero =>
      cases hq
      exact clean
    | succ i => exact cleans i q hq

theorem ends_args (t : Nat → List Frame) {o : Option (List Phrase)}
    (ho : ∀ ps ∈ o, ∀ p ∈ ps, p.WellKinded)
    (hB : ∀ ps, o = some ps → ∀ i q, ps[i]? = some q → Blames B ⟨t i, q, .other⟩) :
    Ends (convertArgs .usual o)
      (fun nodes => (nodes.getD []).length = (o.getD []).length ∧
        ∀ ps, o = some ps → ∀ i q, ps[i]? = some q → Clean ⟨t i, q, .other⟩) (Refused B) := by
  match o with
  | none => exact ends_pure ⟨rfl, fun _ hps => nomatch hps⟩
  | some ps =>
    refine (ends_each (ho ps rfl) (hB ps rfl)).bind fun nodes ⟨hlen, cleans⟩ => ends_pure ⟨hlen, ?_⟩
    intro _ same
    cases same
    exact cleans

theorem ends_maybe (t : List Frame) {o : Option Phrase} {role : Role Bool}
    (ho : ∀ p ∈ o, p.WellKinded) (hB : ∀ q, o = some q → Blames B ⟨t, q, role⟩) :
    Ends (convertMaybe .usual o role) (fun _ => ∀ q, o = some q → Clean ⟨t, q, role⟩)
      (Refused B) := by
  match o with
  | none => exact ends_pure fun _ hq => nomatch hq
  | some p =>
    refine (ends_convert (ho p rfl) (hB p rfl)).bind fun node clean => ends_pure ?_
    intro q same
    cases same
    exact clean

theorem ends_members {t : Nat → List Frame} {ps : List Phrase} (hps : ∀ p ∈ ps, p.WellKinded)
    (hB : PartsHand t .other .member ps (Blames B))
    (hm : ∀ m ∈ ps, m.isMember = false → B (.ofKind m)) :
    Ends (convertMembers .usual ps)
      (fun _ => (∀ m ∈ ps, m.isMember = true) ∧ PartsHand t .other .member ps Clean)
      (Refused B) := by
  match ps with
  | [] => exact ends_pure ⟨by simp, partsHand_nil t⟩
  | p :: rest =>
    have ⟨hp, hrest⟩ := List.forall_mem_cons.1 hps
    have ⟨hmp, hmrest⟩ := List.forall_mem_cons.1 hm
    cases p with
    | property s k v o w c =>
      have hv := (Phrase.everywhere_property.1 hp).2
      obtain ⟨text, htext⟩ := hp.here.1
      refine (ends_convert hv (hB.head .value)).bind fun type clean => ?_
      obtain ⟨out, hout⟩ := exists_propertySignature htext hp.here.2 type o w
      rw [hout]
      refine (ends_members hrest hB.tail hmrest).bind fun others ⟨members, cleans⟩ => ?_
      refine ends_pure ⟨List.forall_mem_cons.2 ⟨rfl, members⟩, .cons ?_ cleans⟩
      intro call same
      cases same
      exact clean
    | spread s a =>
      have ha := (Phrase.everywhere_spread.1 hp).2
      refine (ends_convert ha (hB.head .argument)).bind fun spread clean => ?_
      refine (ends_members hrest hB.tail hmrest).bind fun others ⟨members, cleans⟩ => ?_
      refine ends_pure ⟨List.forall_mem_cons.2 ⟨rfl, members⟩, .cons ?_ cleans⟩
      intro call same
      cases same
      exact clean
    | _ => exact ends_throw ⟨_, rfl, hmp rfl⟩

theorem ends_indexers {t : Nat → List Frame} {ps : List Phrase} (hps : ∀ p ∈ ps, p.WellKinded)
    (hi : ∀ p ∈ ps, p.isIndexer = true) (hB : PartsHand t .other .indexer ps (Blames B)) :
    Ends (convertIndexers .usual ps) (fun _ => PartsHand t .other .indexer ps Clean)
      (Refused B) := by
  match ps with
  | [] => exact ends_pure (partsHand_nil t)
  | p :: rest =>
    have ⟨hp, hrest⟩ := List.forall_mem_cons.1 hps
    have ⟨hip, hirest⟩ := List.forall_mem_cons.1 hi
    cases p with
    | indexer s id k v w =>
      have ⟨hk, hv⟩ := (Phrase.everywhere_indexer.1 hp).2
      refine (ends_convert hk (hB.head .indexKey)).bind fun key cleanKey => ?_
      refine (ends_convert hv (hB.head .indexValue)).bind fun type cleanType => ?_
      have member : Yields (Node.index? (indexName id) key type) (fun _ => True) (Refused B) :=
        (yields_toScalar (.inr (textual_indexName hp.here))).bind fun _ _ => trivial
      refine (ends_lift member).bind fun member _ => ?_
      refine (ends_indexers hrest hirest hB.tail).bind fun others cleans => ends_pure ?_
      refine .cons ?_ cleans
      rintro call (_ | _)
      · exact cleanKey
      · exact cleanType
    | _ => exact absurd hip Bool.false_ne_true

theorem ends_params (t : Nat → List Frame) {ps : List Phrase} {roles : List (Role Bool)}
    {used : List Json} (hps : ∀ p ∈ ps, p.WellKinded) (hi : ∀ p ∈ ps, p.isParameter = true)
    (hused : ∀ j ∈ used, j.Textual)
    (hB : ∀ i m r, ps[i]? = some m → roles[i]? = some r →
      ∀ call, PartHands (t i) r .param m call → Blames B call) :
    Ends (convertParams .usual ps roles used)
      (fun _ => ∀ i m r, ps[i]? = some m → roles[i]? = some r →
        ∀ call, PartHands (t i) r .param m call → Clean call) (Refused B) := by
  match ps, roles with
  | [], _ => exact ends_pure fun _ _ _ hm => nomatch hm
  | p :: rest, [] =>
    have clean : ∀ i m r, (p :: rest)[i]? = some m → ([] : List (Role Bool))[i]? = some r →
        ∀ call, PartHands (t i) r .param m call → Clean call := fun _ _ _ _ hr => nomatch hr
    cases p <;> exact ends_pure clean
  | p :: rest, role :: roles =>
    have ⟨hp, hrest⟩ := List.forall_mem_cons.1 hps
    have ⟨hip, hirest⟩ := List.forall_mem_cons.1 hi
    cases p with
    | parameter s f n a o =>
      have ha := (Phrase.everywhere_parameter.1 hp).2
      refine (ends_nameFor hp.here hused).bind fun named ⟨hname, hused⟩ => ?_
      refine (ends_maybe ((Phrase.parameter s f n a o).under "type_annotation" (t 0)) ha
        fun q e => ?_).bind fun type clean => ?_
      · subst e
        exact hB 0 _ role rfl rfl _ .param
      have param : Yields (Node.parameter? named.1 type o) (fun _ => True) (Refused B) :=
        (yields_toScalar (.inr hname)).bind fun _ _ => trivial
      refine (ends_lift param).bind fun param _ => ?_
      refine (ends_params _ hrest hirest hused fun i m r hm hr => hB (i + 1) m r hm hr).bind
        fun others cleans => ends_pure fun i m r hm hr => ?_
      cases i with
      | zero =>
        cases hm
        cases hr
        intro call same
        cases same
        exact clean _ rfl
      | succ i => exact cleans i m r hm hr
    | _ => exact absurd hip Bool.false_ne_true

theorem ends_rest (t : List Frame) {o : Option Phrase} (ho : ∀ p ∈ o, p.WellKinded)
    (hi : ∀ p ∈ o, p.isParameter = true)
    (hB : ∀ m, o = some m → ∀ call, PartHands t .other .rest m call → Blames B call) :
    Ends (convertRest .usual o)
      (fun _ => ∀ m, o = some m → ∀ call, PartHands t .other .rest m call → Clean call)
      (Refused B) := by
  match o with
  | none => exact ends_pure fun _ hm => nomatch hm
  | some p =>
    have hp := ho p rfl
    have hip := hi p rfl
    cases p with
    | parameter s f n a o =>
      have ha := (Phrase.everywhere_parameter.1 hp).2
      rw [convertRest_parameter]
      cases hn : n.isNull with
      | true =>
        refine ends_pure ?_
        intro _ same call hc
        cases same
        cases hc with
        | rest named => exact absurd (hn.symm.trans named) Bool.noConfusion
      | false =>
        refine (ends_maybe ((Phrase.parameter s f n a o).under "type_annotation" t) ha
          fun q e => ?_).bind fun type clean => ?_
        · subst e
          exact hB _ rfl _ (.rest hn)
        have rest : Yields (Node.rest? n type) (fun _ => True) (Refused B) :=
          (yields_toScalar hp.here).bind fun _ _ => trivial
        refine (ends_lift rest).bind fun rest _ => ends_pure ?_
        rintro _ ⟨⟩ call ⟨⟩
        exact clean _ rfl
    | _ => exact absurd hip Bool.false_ne_true

theorem ends_typeParams (t : Nat → List Frame) {o : Option (List Phrase)}
    (ho : ∀ ps ∈ o, ∀ p ∈ ps, p.WellKinded) (hi : ∀ ps ∈ o, ∀ p ∈ ps, p.isTypeParameter = true)
    (hB : ∀ ps, o = some ps → PartsHand t .other .typeParam ps (Blames B)) :
    Ends (convertTypeParams .usual o)
      (fun _ => ∀ ps, o = some ps → PartsHand t .other .typeParam ps Clean) (Refused B) := by
  match o with
  | none => exact ends_pure fun _ hps => nomatch hps
  | some ps =>
    refine (ends_eachTypeParam (ho ps rfl) (hi ps rfl) (hB ps rfl)).bind fun _ clean => ends_pure ?_
    intro _ same
    cases same
    exact clean

theorem ends_eachTypeParam {t : Nat → List Frame} {ps : List Phrase}
    (hps : ∀ p ∈ ps, p.WellKinded) (hi : ∀ p ∈ ps, p.isTypeParameter = true)
    (hB : PartsHand t .other .typeParam ps (Blames B)) :
    Ends (convertEachTypeParam .usual ps) (fun _ => PartsHand t .other .typeParam ps Clean)
      (Refused B) := by
  match ps with
  | [] => exact ends_pure (partsHand_nil t)
  | p :: rest =>
    have ⟨hp, hrest⟩ := List.forall_mem_cons.1 hps
    have ⟨hip, hirest⟩ := List.forall_mem_cons.1 hi
    cases p with
    | typeParameter s n b d w =>
      have ⟨hb, hd⟩ := (Phrase.everywhere_typeParameter.1 hp).2
      let around := Phrase.typeParameter s n b d w
      refine (ends_maybe (around.under "bound" (t 0)) hb fun q e => ?_).bind fun bound cleanBound => ?_
      · subst e
        exact hB.head .bound
      refine (ends_maybe (around.under "default" (t 0)) hd fun q e => ?_).bind
        fun default cleanDefault => ?_
      · subst e
        exact hB.head .default
      have param : Yields (Node.typeParameter? n bound default) (fun _ => True) (Refused B) :=
        (yields_toScalar (.inr hp.here)).bind fun _ _ => trivial
      refine (ends_lift param).bind fun param _ => ?_
      refine (ends_eachTypeParam hrest hirest hB.tail).bind fun others cleans => ends_pure ?_
      refine .cons ?_ cleans
      rintro call (_ | _)
      · exact cleanBound _ rfl
      · exact cleanDefault _ rfl
    | _ => exact absurd hip Bool.false_ne_true

end

end

end Converting

/-- The conversion of a well-kinded tree ends with a node or a refusal; with a refusal exactly if
something that it visits is refused, and then with one of the refusals of what it visits. -/
theorem convert_refuses_iff {start : Call} (h : start.phrase.WellKinded) (log : Log) :
    ((∃ node, start.result .usual log = .ok node) ∨
      ∃ r, start.result .usual log = .error (.refused r)) ∧
    ((∃ r, start.result .usual log = .error (.refused r)) ↔
      ∃ c r, Reaches start c ∧ c.phrase.Refuses r) ∧
    ∀ r, start.result .usual log = .error (.refused r) → ∃ c, Reaches start c ∧ c.phrase.Refuses r := by
  have blames : Blames (fun r => ∃ c, Reaches start c ∧ c.phrase.Refuses r) start :=
    fun c hc r hr => ⟨c, hc, hr⟩
  have ends := Converting.ends_convert h blames log
  change Yields (start.result .usual log) _ _ at ends
  cases hr : start.result .usual log with
  | ok node =>
    rw [hr] at ends
    refine ⟨.inl ⟨node, rfl⟩, ⟨fun ⟨_, he⟩ => (nomatch he), ?_⟩, fun _ he => nomatch he⟩
    intro ⟨c, r, hc, hrefuses⟩
    exact absurd hrefuses (ends c hc r)
  | error e =>
    rw [hr] at ends
    obtain ⟨r, rfl, c, hc, hrefuses⟩ := ends
    refine ⟨.inr ⟨r, rfl⟩, ⟨fun _ => ⟨c, r, hc, hrefuses⟩, fun _ => ⟨r, rfl⟩⟩, ?_⟩
    intro _ same
    cases same
    exact ⟨c, hc, hrefuses⟩

theorem convert_refuses_iff_keys :
    (Phrase.array none (.generic none (.plain none (Utility.keys.name)) none)).WellKinded ∧
      ∃ r, Call.result .usual
        ⟨[], .array none (.generic none (.plain none (Utility.keys.name)) none), .other⟩ .empty =
        .error (.refused r) := by
  have kinded : (Phrase.array none (.generic none (.plain none Utility.keys.name) none)).WellKinded := by
    simp [Phrase.Fits]
  refine ⟨kinded, (@convert_refuses_iff ⟨[], _, .other⟩ kinded .empty).2.1.2 ?_⟩
  exact ⟨_, _, .single .element, .arity (Utility.ofName?_name .keys) rfl (by decide)⟩

end Reannotate
