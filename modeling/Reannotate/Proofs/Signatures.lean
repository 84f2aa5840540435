import Reannotate.Proofs.Formation
import Reannotate.Proofs.Handing
import Reannotate.Proofs.Lookup
import Reannotate.Proofs.Steps
import Reannotate.Proofs.Words

/-!
# Signatures and the names in them

`registerCallable` is the conversion of a signature with a register of the requests for names that
the signature makes itself; what the types inside ask for goes to the log alone. `Makes` says what
is known of the register: each request tells the names the parameters have, and the answers so far.

So a signature keeps its parameters in order (`Outlined`), and those without a name are given, from
left to right, the answers to its requests: with the usual names, the vacant words in order
(`signatures_outlined`).
-/

namespace Reannotate

open Reannotate.Flow (Phrase Role)
open Reannotate.TypeScript (Node)

/-! ## Outlines -/

def Flow.Phrase.ownName (p : Phrase) : Json :=
  (Converting.nameOf p).toOption.getD .null

def explicitNames (ps : List Phrase) : List Json :=
  (ps.map Phrase.ownName).filter fun name => !name.isNull

/-- Each parameter is that of the source, and those without a name take the given ones in turn. -/
inductive ParamsMatch : List Phrase → List Text → List Node → Prop
  | nil : ParamsMatch [] [] []
  | named {s f name t o ps given type ns} (hn : name ≠ .null) (ht : type.isSome = t.isSome)
      (h : ParamsMatch ps given ns) :
      ParamsMatch (.parameter s f (.scalar name) t o :: ps) given (.parameter name type o :: ns)
  | unnamed {s f t o ps name given type ns} (ht : type.isSome = t.isSome)
      (h : ParamsMatch ps given ns) :
      ParamsMatch (.parameter s f .null t o :: ps) (name :: given)
        (.parameter (.str name) type o :: ns)

inductive RestMatches : Option Phrase → List Node → Prop
  | absent : RestMatches none []
  | unnamed {p} (h : Converting.nameOf p = .ok .null) : RestMatches (some p) []
  | named {s f name t o type} (hn : name ≠ .null) (ht : type.isSome = t.isSome) :
      RestMatches (some (.parameter s f (.scalar name) t o)) [.rest name type]

inductive TypeParamMatches : Phrase → Node → Prop
  | mk {s name b d w bound default} (hb : bound.isSome = b.isSome)
      (hd : default.isSome = d.isSome) :
      TypeParamMatches (.typeParameter s (.scalar name) b d w) (.typeParameter name bound default)

/-- The node is a signature with the parts of the source; `given` are the names for parameters
that have none. -/
def Outlined (ps : List Phrase) (r rest : Option Phrase) (ts : Option (List Phrase))
    (given : List Text) (node : Node) : Prop :=
  ∃ typeParams params last result, node = .function typeParams (params ++ last) result ∧
    Option.Rel (List.Forall₂ TypeParamMatches) ts typeParams ∧ ParamsMatch ps given params ∧
    RestMatches rest last ∧ result.isSome = r.isSome

theorem ParamsMatch.length_given {ps : List Phrase} {given : List Text} {ns : List Node}
    (h : ParamsMatch ps given ns) : given.length = ps.countP fun p => !p.named := by
  induction h with
  | nil => rfl
  | named hn ht h ih => simp [ih, Phrase.named, Json.isNull, hn]
  | unnamed ht h ih => simp [ih, Phrase.named, Json.isNull]

namespace Converting

def convertCallable (names : Names) (role : Role Bool) : Phrase → Converting Node
  | .callable s (.declared n) ps r rest ts =>
    convertSignature names (.callable s (.declared n) ps r rest ts)
  | p => convert names p role

section
variable {names : Names}

theorem ends_any {α : Type} (c : Converting α) : Ends c (fun _ => True) fun _ => True :=
  fun _ => (yields_self _).mono (fun _ _ => trivial) fun _ => id

theorem ends_maybe_isSome (o : Option Phrase) (role : Role Bool) :
    Ends (convertMaybe names o role) (fun node => node.isSome = o.isSome) fun _ => True := by
  cases o with
  | none => exact ends_pure rfl
  | some p => exact (ends_any (convert names p role)).bind fun _ _ => ends_pure rfl

theorem yields_scalar (j : Json) : Yields j.toScalar (fun s => j = .scalar s) fun _ => True :=
  (yields_self _).mono (fun _ => eq_of_toScalar) fun _ => id

theorem ends_typeParams_match (ps : List Phrase) :
    Ends (convertEachTypeParam names ps) (List.Forall₂ TypeParamMatches ps) fun _ => True := by
  induction ps with
  | nil => exact ends_pure .nil
  | cons p ps ih =>
    cases p with
    | typeParameter s n b d w =>
      refine (ends_maybe_isSome b .other).bind fun bound hb => ?_
      refine (ends_maybe_isSome d .other).bind fun default hd => ?_
      have param : Yields (Node.typeParameter? n bound default)
          (TypeParamMatches (.typeParameter s n b d w)) fun _ => True := by
        refine (yields_scalar n).bind fun name hn => ?_
        subst hn
        exact .mk hb hd
      refine (ends_lift param).bind fun node hnode => ?_
      exact ih.bind fun nodes hnodes => ends_pure (.cons hnode hnodes)
    | _ => exact ends_throw trivial

theorem ends_rest_matches (o : Option Phrase) :
    Ends (convertRest names o) (RestMatches o) fun _ => True := by
  cases o with
  | none => exact ends_pure .absent
  | some p =>
    cases p with
    | parameter s f n t o =>
      rw [convertRest_parameter]
      cases hn : n.isNull with
      | true =>
        rw [Json.isNull_iff] at hn
        subst hn
        exact ends_pure (.unnamed rfl)
      | false =>
        refine (ends_maybe_isSome t .other).bind fun type ht => ?_
        have kept : Yields (Node.rest? n type)
            (fun node => RestMatches (some (.parameter s f n t o)) [node]) fun _ => True := by
          refine (yields_scalar n).bind fun name hname => ?_
          subst hname
          refine yields_ok.2 (.named ?_ ht)
          rintro rfl
          cases hn
        exact (ends_lift kept).bind fun node hnode => ends_pure hnode
    | _ =>
      refine (ends_lift (yields_self _)).bind fun n hn => ?_
      cases null : n.isNull with
      | true =>
        rw [Json.isNull_iff] at null
        subst null
        exact ends_pure (.unnamed hn)
      | false => exact ends_throw trivial

theorem yields_explicitNames (ps : List Phrase) :
    Yields (namesInUse ps) (fun used => used = explicitNames ps) fun _ => True := by
  have each : ∀ p ∈ ps, Yields (nameOf p) (fun n => n = p.ownName) fun _ => True := by
    intro p _
    refine (yields_self _).mono (fun n hn => ?_) fun _ => id
    rw [Phrase.ownName, hn]
    rfl
  refine (Yields.mapM_eq each).bind fun found hfound => ?_
  subst hfound
  exact yields_ok.2 rfl

end

end Converting

/-! ## Requests for names -/

structure Request where
  earlier : List (List Json)
  used : List Json
  answer : Except Fault Text

structure Register where
  log : Log
  requests : List Request

/-- A conversion with a register of the requests that one signature makes. -/
abbrev Registering := ExceptT Fault (StateM Register)

def answers (requests : List Request) : List Json :=
  requests.filterMap fun q => q.answer.toOption.map .str

namespace Registering

open Converting

variable {α β : Type}

def outcome (c : Registering α) (register : Register) : Except Fault α × Register :=
  c.run.run register

def unregistered (c : Converting α) : Registering α :=
  ExceptT.mk fun register =>
    let (result, log) := c.outcome register.log
    (result, { register with log := log })

def requestName (names : Names) (used : List Json) : Registering Text :=
  ExceptT.mk fun register =>
    let (result, log) := (askName names used).outcome register.log
    (result, ⟨log, register.requests ++ [⟨register.log.asked, used, result⟩]⟩)

def registerNameFor (names : Names) (name : Json) (used : List Json) :
    Registering (Json × List Json) := do
  if name.isNull then
    let fresh ← requestName names used
    return (.str fresh, used ++ [.str fresh])
  else return (name, used)

def registerParams (names : Names) :
    List Phrase → List (Role Bool) → List Json → Registering (List Node)
  | .parameter _ _ n t o :: rest, role :: roles, used => do
    let (name, used) ← registerNameFor names n used
    let type ← unregistered (convertMaybe names t role)
    let param ← unregistered (Node.parameter? name type o)
    return param :: (← registerParams names rest roles used)
  | p :: _, _ :: _, used => do
    let _ ← registerNameFor names (← unregistered (nameOf p)) used
    unregistered (throw .noSuchPart)
  | _, _, _ => pure []

def registerSignature (names : Names) (ps : List Phrase) (r rest : Option Phrase)
    (ts : Option (List Phrase)) (roles : List (Role Bool)) (role : Role Bool) :
    Registering Node := do
  let typeParams ← unregistered (convertTypeParams names ts)
  let used ← unregistered (namesInUse ps)
  let params ← registerParams names ps roles used
  let last ← unregistered (convertRest names rest)
  let result ← unregistered (convertMaybe names r role)
  return .function typeParams (params ++ last) result

def registerCallable (names : Names) (role : Role Bool) : Phrase → Registering Node
  | .callable _ .ofType ps r rest ts =>
    registerSignature names ps r rest ts (ps.map fun _ => .other) role
  | .callable _ (.declared _) ps r rest ts => do
    let roles ← unregistered (signatureRoles ps)
    registerSignature names ps r rest ts roles .returnType
  | p => unregistered (convert names p role)

theorem outcome_bind (c : Registering α) (f : α → Registering β) (register : Register) :
    (c >>= f).outcome register = match c.outcome register with
      | (.ok a, after) => (f a).outcome after
      | (.error e, after) => (.error e, after) := by
  simp only [outcome, ExceptT.run_bind, StateT.run_bind]
  rcases c.run.run register with ⟨x, after⟩
  cases x <;> rfl

/-! ## The register is faithful -/

def Registers (c : Registering α) (plain : Converting α) : Prop :=
  ∀ register, ((c.outcome register).1, (c.outcome register).2.log) = plain.outcome register.log

theorem registers_pure (a : α) : Registers (pure a) (pure a) := fun _ => rfl

theorem registers_unregistered (c : Converting α) : Registers (unregistered c) c := fun _ => rfl

theorem Registers.bind {c : Registering α} {plain : Converting α} {f : α → Registering β}
    {g : α → Converting β} (h : Registers c plain) (hf : ∀ a, Registers (f a) (g a)) :
    Registers (c >>= f) (plain >>= g) := by
  intro register
  rw [outcome_bind, Converting.outcome_bind, ← h register]
  rcases c.outcome register with ⟨x, after⟩
  cases x with
  | ok a => exact hf a after
  | error e => rfl

theorem registers_nameFor (names : Names) (name : Json) (used : List Json) :
    Registers (registerNameFor names name used) (nameFor names name used) := by
  unfold registerNameFor nameFor
  split
  · have asked : Registers (requestName names used) (askName names used) := fun _ => rfl
    exact asked.bind fun _ => registers_pure _
  · exact registers_pure _

theorem registers_params (names : Names) (ps : List Phrase) (roles : List (Role Bool))
    (used : List Json) :
    Registers (registerParams names ps roles used) (convertParams names ps roles used) := by
  induction ps generalizing roles used with
  | nil => exact registers_pure _
  | cons p ps ih =>
    cases roles with
    | nil => cases p <;> exact registers_pure _
    | cons role roles =>
      cases p with
      | parameter s f n t o =>
        refine (registers_nameFor names n used).bind fun _ => ?_
        refine (registers_unregistered _).bind fun _ => (registers_unregistered _).bind fun _ => ?_
        exact (ih _ _).bind fun _ => registers_pure _
      | _ =>
        refine (registers_unregistered _).bind fun _ => ?_
        exact (registers_nameFor names _ used).bind fun _ => registers_unregistered _

theorem registers_callable (names : Names) (role : Role Bool) (p : Phrase) :
    Registers (registerCallable names role p) (convertCallable names role p) := by
  cases p with
  | callable s form ps r rest ts =>
    have signature : ∀ roles role, Registers (registerSignature names ps r rest ts roles role) (do
        let typeParams ← convertTypeParams names ts
        let used ← namesInUse ps
        let params ← convertParams names ps roles used
        let last ← convertRest names rest
        let result ← convertMaybe names r role
        return .function typeParams (params ++ last) result) := fun roles role =>
      (registers_unregistered _).bind fun _ => (registers_unregistered _).bind fun _ =>
        (registers_params names ps roles _).bind fun _ => (registers_unregistered _).bind fun _ =>
          (registers_unregistered _).bind fun _ => registers_pure _
    cases form with
    | ofType => exact signature _ role
    | declared n => exact (registers_unregistered _).bind fun roles => signature roles .returnType
  | _ => exact registers_unregistered _

/-! ## What the requests tell -/

/-- Each request tells the names in use at first and after them the answers before it. It goes to
the generator, as one of those in the log. -/
def InOrder (names : Names) (used : List Json) (requests : List Request) (log : Log) : Prop :=
  ∀ k q, requests[k]? = some q → q.used = used ++ answers (requests.take k) ∧
    q.answer = names.fresh q.earlier q.used ∧ q.earlier ++ [q.used] <+: log.asked

/-- The new requests are in order, and if they all have answers, `ok` holds of those and the
result. -/
def Makes (names : Names) (used : List Json) (c : Registering α)
    (ok : List Text → α → Prop) : Prop :=
  ∀ register, ∃ new, (c.outcome register).2.requests = register.requests ++ new ∧
    register.log.asked <+: (c.outcome register).2.log.asked ∧
    InOrder names used new (c.outcome register).2.log ∧
    Yields (c.outcome register).1
      (fun a => ∃ given : List Text, new.map Request.answer = given.map .ok ∧ ok given a)
      fun _ => True

def Grows (c : Converting α) : Prop :=
  ∀ log, log.asked <+: (c.outcome log).2.asked

theorem stepClosed_grows (names : Names) : StepClosed names Grows where
  lift x log := by
    rw [outcome_lift]
  warn w log := List.prefix_rfl
  askName used log := by
    rw [outcome_askName]
    exact List.prefix_append _ _
  bind := by
    intro α β c f hc hf log
    have grown := hc log
    rw [Converting.outcome_bind]
    rcases run : c.outcome log with ⟨x, after⟩
    rw [run] at grown
    cases x with
    | ok a => exact grown.trans (hf a after)
    | error e => exact grown

theorem answers_eq {requests : List Request} {given : List Text}
    (h : requests.map Request.answer = given.map .ok) : answers requests = given.map .str := by
  have all : answers requests = (requests.map Request.answer).filterMap fun x =>
      x.toOption.map Json.str := by
    rw [List.filterMap_map]
    rfl
  rw [all, h, List.filterMap_map]
  simp [Function.comp_def, Except.toOption, List.filterMap_eq_map']

section
variable {names : Names} {used : List Json} {ok : List Text → α → Prop}

theorem inOrder_nil (log : Log) : InOrder names used [] log := fun _ _ h => nomatch h

theorem InOrder.mono {requests : List Request} {log log' : Log}
    (h : InOrder names used requests log) (grown : log.asked <+: log'.asked) :
    InOrder names used requests log' := by
  intro k q hq
  obtain ⟨told, asked, before⟩ := h k q hq
  exact ⟨told, asked, before.trans grown⟩

theorem InOrder.append {requests more : List Request} {given : List Text} {log : Log}
    (h : InOrder names used requests log) (answered : requests.map Request.answer = given.map .ok)
    (h' : InOrder names (used ++ given.map .str) more log) :
    InOrder names used (requests ++ more) log := by
  intro k q hq
  by_cases early : k < requests.length
  · rw [List.getElem?_append_left early] at hq
    rw [List.take_append_of_le_length (by omega)]
    exact h k q hq
  · rw [List.getElem?_append_right (by omega)] at hq
    obtain ⟨told, rest⟩ := h' _ q hq
    have whole : requests.take k = requests := List.take_of_length_le (by omega)
    have split : answers ((requests ++ more).take k) =
        answers requests ++ answers (more.take (k - requests.length)) := by
      rw [List.take_append, whole]
      exact List.filterMap_append
    refine ⟨?_, rest⟩
    rw [told, List.append_assoc, split, answers_eq answered]

theorem makes_pure {a : α} (h : ok [] a) : Makes names used (pure a) ok :=
  fun _ => ⟨[], (List.append_nil _).symm, List.prefix_rfl, inOrder_nil _, [], rfl, h⟩

theorem Makes.bind {c : Registering α} {f : α → Registering β} {ok : List Text → β → Prop}
    {mid : List Text → α → Prop} (h : Makes names used c mid)
    (hf : ∀ given a, mid given a →
      Makes names (used ++ given.map .str) (f a) fun more b => ok (given ++ more) b) :
    Makes names used (c >>= f) ok := by
  intro register
  obtain ⟨new, grown, asked, order, result⟩ := h register
  rw [outcome_bind]
  rcases hc : c.outcome register with ⟨x, after⟩
  rw [hc] at grown asked order result
  cases x with
  | error e => exact ⟨new, grown, asked, order, trivial⟩
  | ok a =>
    obtain ⟨given, answered, hmid⟩ := result
    obtain ⟨more, grown', asked', order', result'⟩ := hf given a hmid after
    refine ⟨new ++ more, ?_, asked.trans asked', (order.mono asked').append answered order', ?_⟩
    · rw [← List.append_assoc, ← grown]
      exact grown'
    · refine result'.mono ?_ fun _ _ => trivial
      rintro b ⟨given', answered', hok⟩
      exact ⟨given ++ given', by rw [List.map_append, List.map_append, answered, answered'], hok⟩

theorem Makes.after {c : Converting α} {f : α → Registering β} {ok : List Text → β → Prop}
    {mid : α → Prop} (grows : Grows c) (ends : Ends c mid fun _ => True)
    (hf : ∀ a, mid a → Makes names used (f a) ok) : Makes names used (unregistered c >>= f) ok := by
  have quiet : Makes names used (unregistered c) fun given a => given = [] ∧ mid a := by
    intro register
    exact ⟨[], (List.append_nil _).symm, grows register.log, inOrder_nil _,
      (ends register.log).mono (fun _ ha => ⟨[], rfl, rfl, ha⟩) fun _ _ => trivial⟩
  refine quiet.bind fun given a ⟨nothing, ha⟩ => ?_
  subst nothing
  simpa using hf a ha

theorem makes_request (names : Names) (used : List Json) :
    Makes names used (requestName names used) fun given name => given = [name] := by
  intro register
  have run : (requestName names used).outcome register =
      (names.fresh register.log.asked used, ⟨⟨register.log.warnings, register.log.asked ++ [used]⟩,
        register.requests ++
          [⟨register.log.asked, used, names.fresh register.log.asked used⟩]⟩) := by
    simp only [requestName, outcome, ExceptT.run, ExceptT.mk, StateT.run, outcome_askName]
  rw [run]
  refine ⟨_, rfl, List.prefix_append _ _, ?_, ?_⟩
  · intro k q hq
    obtain ⟨rfl, rfl⟩ : k = 0 ∧ _ = q := by
      cases k with
      | zero => exact ⟨rfl, Option.some.inj hq⟩
      | succ k => cases hq
    exact ⟨(List.append_nil _).symm, rfl, List.prefix_rfl⟩
  · cases answer : names.fresh register.log.asked used with
    | ok name => exact ⟨[name], by simp, rfl⟩
    | error e => trivial

theorem makes_nameFor (names : Names) (name : Json) (used : List Json) :
    Makes names used (registerNameFor names name used) fun given r =>
      if name.isNull then ∃ fresh, given = [fresh] ∧ r = (.str fresh, used ++ [.str fresh])
      else given = [] ∧ r = (name, used) := by
  unfold registerNameFor
  split
  · refine (makes_request names used).bind fun given fresh asked => makes_pure ?_
    subst asked
    exact ⟨fresh, rfl, rfl⟩
  · exact makes_pure ⟨rfl, rfl⟩

theorem makes_params {ps : List Phrase} {roles : List (Role Bool)}
    (hlen : roles.length = ps.length) :
    Makes names used (registerParams names ps roles used) (ParamsMatch ps) := by
  have grows := stepClosed_grows names
  induction ps generalizing roles used with
  | nil => exact makes_pure .nil
  | cons p ps ih =>
    obtain ⟨role, roles, rfl⟩ := List.exists_cons_of_length_eq_add_one hlen
    cases p with
    | parameter s f n t o =>
      refine (makes_nameFor names n used).bind fun given named hnamed => ?_
      refine .after (grows.convertMaybe t role) (ends_maybe_isSome t role) fun type ht => ?_
      have scalar : Ends (liftM (Node.parameter? named.1 type o))
          (fun node => ∃ s, named.1 = .scalar s ∧ node = .parameter s type o) fun _ => True :=
        ends_lift ((yields_scalar _).bind fun s hs => yields_ok.2 ⟨s, hs, rfl⟩)
      refine .after (grows.lift _) scalar fun param ⟨name, hname, hparam⟩ => ?_
      subst hparam
      split at hnamed
      · rename_i null
        obtain ⟨fresh, rfl, rfl⟩ := hnamed
        cases hname
        rw [Json.isNull_iff.1 null]
        exact (ih (by simpa using hlen)).bind fun more ns hns => makes_pure (by
          simpa using ParamsMatch.unnamed ht hns)
      · rename_i named
        obtain ⟨rfl, rfl⟩ := hnamed
        subst hname
        have told : name ≠ .null := fun null => named (by rw [null]; rfl)
        rw [List.map_nil, List.append_nil]
        exact (ih (by simpa using hlen)).bind fun more ns hns => makes_pure (by
          simpa using ParamsMatch.named told ht hns)
    | _ =>
      refine .after (grows.lift _) (ends_any _) fun n _ => ?_
      refine (makes_nameFor names n used).bind fun given named _ => ?_
      intro register
      exact ⟨[], (List.append_nil _).symm, List.prefix_rfl, inOrder_nil _, trivial⟩

theorem makes_signature {ps : List Phrase} (r rest : Option Phrase) (ts : Option (List Phrase))
    {roles : List (Role Bool)} (role : Role Bool) (hlen : roles.length = ps.length) :
    Makes names (explicitNames ps) (registerSignature names ps r rest ts roles role)
      (Outlined ps r rest ts) := by
  have grows := stepClosed_grows names
  have typeParams : Ends (convertTypeParams names ts)
      (Option.Rel (List.Forall₂ TypeParamMatches) ts) fun _ => True := by
    cases ts with
    | none => exact ends_pure .none
    | some ts => exact (ends_typeParams_match ts).bind fun _ h => ends_pure (.some h)
  refine .after (grows.convertTypeParams ts) typeParams fun typeParams ht => ?_
  refine .after (grows.lift _) (ends_lift (yields_explicitNames ps)) fun used hused => ?_
  subst hused
  refine (makes_params hlen).bind fun given params hp => ?_
  refine .after (grows.convertRest rest) (ends_rest_matches rest) fun last hl => ?_
  refine .after (grows.convertMaybe r role) (ends_maybe_isSome r role) fun result hr => ?_
  refine makes_pure ⟨typeParams, params, last, result, rfl, ht, ?_, hl, hr⟩
  rwa [List.append_nil]

theorem makes_callable (names : Names) (role : Role Bool) (s : Option Flow.Span)
    (form : Flow.CallableForm) (ps : List Phrase) (r rest : Option Phrase)
    (ts : Option (List Phrase)) :
    Makes names (explicitNames ps) (registerCallable names role (.callable s form ps r rest ts))
      (Outlined ps r rest ts) := by
  cases form with
  | ofType => exact makes_signature r rest ts role (by simp)
  | declared n =>
    have roles : Yields (signatureRoles ps) (fun roles => roles.length = ps.length)
        fun _ => True := by
      refine (yields_flags ps).mono (fun roles h => ?_) fun _ _ => trivial
      rw [h, Flow.length_parameterRoles, List.length_map]
    exact .after ((stepClosed_grows names).lift _) (ends_lift roles) fun roles hlen =>
      makes_signature r rest ts .returnType hlen

end

theorem InOrder.given_eq {names : Names} {used : List Json} {requests : List Request} {log : Log}
    (usual : names.fresh = Names.usual.fresh) (h : InOrder names used requests log)
    {given : List Text} (answered : requests.map Request.answer = given.map .ok) :
    given = (List.range given.length).map (vacantWord used) := by
  -- the request after the first `k` answers tells just those, which are `k` vacant words
  have upTo : ∀ k ≤ given.length, given.take k = (List.range k).map (vacantWord used) := by
    intro k
    induction k with
    | zero => simp
    | succ k ih =>
      intro hk
      have before := ih (by omega)
      have hlen : requests.length = given.length := by simpa using congrArg List.length answered
      obtain ⟨told, asked, -⟩ := h k requests[k] (List.getElem?_eq_getElem (by omega))
      have earlier : answers (requests.take k) = (given.take k).map .str :=
        answers_eq (by rw [List.map_take, answered, List.map_take])
      have this : requests[k].answer = .ok given[k] := by
        have same := List.getElem_of_eq answered (i := k) (by rw [List.length_map]; omega)
        simpa using same
      rw [this, usual, told, earlier, before, List.map_map] at asked
      have word : given[k] = vacantWord used k := unusedAmong_vacantWords asked.symm
      rw [List.take_succ_eq_append_getElem (by omega), before, word, List.range_succ,
        List.map_append, List.map_singleton]
  rw [← upTo given.length le_rfl, List.take_length]

theorem registered_outlined {names : Names} {role : Role Bool} {s : Option Flow.Span}
    {form : Flow.CallableForm} {ps : List Phrase} {r rest : Option Phrase}
    {ts : Option (List Phrase)} {log : Log} {node : Node}
    (converted : ((registerCallable names role (.callable s form ps r rest ts)).outcome
      ⟨log, []⟩).1 = .ok node) :
    ∃ given : List Text,
      ((registerCallable names role (.callable s form ps r rest ts)).outcome
        ⟨log, []⟩).2.requests.map Request.answer = given.map .ok ∧
      Outlined ps r rest ts given node ∧
      (names.fresh = Names.usual.fresh → given =
        (List.range (ps.countP fun p => !p.named)).map (vacantWord (explicitNames ps))) := by
  obtain ⟨new, grown, -, order, result⟩ :=
    makes_callable names role s form ps r rest ts ⟨log, []⟩
  rw [List.nil_append] at grown
  subst grown
  rw [converted] at result
  obtain ⟨given, answered, outlined⟩ := result
  refine ⟨given, answered, outlined, fun usual => ?_⟩
  obtain ⟨typeParams, params, last, result, -, -, hp, -⟩ := outlined
  rw [← hp.length_given]
  exact order.given_eq usual answered

end Registering

open Registering Converting

section
variable (names : Names) (role : Role Bool) (s : Option Flow.Span) (form : Flow.CallableForm)
  (ps : List Phrase) (r rest : Option Phrase) (ts : Option (List Phrase))

/-- The register of a signature is faithful and in order, and its answers are the names of the
parameters that have none: with the usual generator the first vacant words. -/
theorem signatures_outlined (log : Log) :
    let signature : Phrase := .callable s form ps r rest ts
    let run := (registerCallable names role signature).outcome ⟨log, []⟩
    (run.1, run.2.log) = (convertCallable names role signature).outcome log ∧
      InOrder names (explicitNames ps) run.2.requests run.2.log ∧
      ∀ node, run.1 = .ok node → ∃ given : List Text,
        run.2.requests.map Request.answer = given.map .ok ∧ Outlined ps r rest ts given node ∧
        (names.fresh = Names.usual.fresh → given =
          (List.range (ps.countP fun p => !p.named)).map (vacantWord (explicitNames ps))) := by
  intro signature run
  obtain ⟨new, grown, -, order, -⟩ := makes_callable names role s form ps r rest ts ⟨log, []⟩
  rw [List.nil_append] at grown
  refine ⟨registers_callable names role signature ⟨log, []⟩, ?_, fun node => registered_outlined⟩
  rwa [← grown] at order

end

/-- A function type inside asks for a name between the two requests of the signature itself. -/
theorem signatures_outlined_nested :
    let unnamed (type : Option Phrase) : Phrase := .parameter none .ofType .null type false
    let inner : Phrase :=
      .callable none .ofType [unnamed (some (.primitive none .string))] none none none
    let params := [unnamed (some inner), .parameter none .ofType (.str "b") none true, unnamed none]
    let rest := some (Phrase.parameter none .ofType (.str "c") none false)
    let signature : Phrase := .callable none .ofType params none rest none
    let run := (registerCallable .usual .other signature).outcome ⟨.empty, []⟩
    run.2.log.asked.length = 3 ∧ run.2.requests.length = 2 ∧
      vacantWord [.str "b"] 0 = "a" ∧ vacantWord [.str "b"] 1 = "c" ∧
      ∃ node, run.1 = .ok node ∧ Outlined params none rest none ["a", "c"] node := by
  intro unnamed inner params rest signature run
  have words : run.2.requests.map (fun q => q.answer.toOption) =
      [some (Text.ofString "a"), some (Text.ofString "c")] := by decide +kernel
  obtain ⟨node, hnode⟩ : ∃ node, run.1 = .ok node := exists_ok (by decide +kernel)
  obtain ⟨-, -, named⟩ :=
    signatures_outlined .usual .other none .ofType params none rest none .empty
  obtain ⟨given, answered, outlined, vacant⟩ := named node hnode
  have optional := congrArg (List.map Except.toOption) answered
  rw [List.map_map, List.map_map] at optional
  have same : [Text.ofString "a", "c"].map some = given.map some := words.symm.trans optional
  obtain rfl := (List.map_inj_right fun _ _ => Option.some.inj).1 same
  have vacant : [Text.ofString "a", "c"] = [vacantWord [.str "b"] 0, vacantWord [.str "b"] 1] :=
    vacant rfl
  simp only [List.cons.injEq, and_true] at vacant
  exact ⟨by decide +kernel, by decide +kernel, vacant.1.symm, vacant.2.symm, node, hnode, outlined⟩

theorem convertCallable_outlined {names : Names} {role : Role Bool} {s : Option Flow.Span}
    {form : Flow.CallableForm} {ps : List Phrase} {r rest : Option Phrase}
    {ts : Option (List Phrase)} {log after : Log} {node : Node}
    (usual : names.fresh = Names.usual.fresh)
    (converted : (convertCallable names role (.callable s form ps r rest ts)).outcome log =
      (.ok node, after)) :
    Outlined ps r rest ts
      ((List.range (ps.countP fun p => !p.named)).map (vacantWord (explicitNames ps))) node := by
  have faithful := registers_callable names role (.callable s form ps r rest ts) ⟨log, []⟩
  rw [converted, Prod.mk.injEq] at faithful
  obtain ⟨given, -, outlined, words⟩ := registered_outlined faithful.1
  rwa [words usual] at outlined

end Reannotate
