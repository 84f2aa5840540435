import Mathlib.Logic.Relation
import Reannotate.Proofs.Ending

/-!
# Visits of a conversion

`Visitor.recording` keeps a record of the visits of a conversion: which phrase at which place, in
which role, from which log, and with which outcome. `records_convert` says that apart from the
record the conversion is as without, that each visit has the outcome of a conversion of its own, and
that the visits are those reached from the first by handing on (`Hands`): the rules by which a type
gives roles to the types in its slots.
-/

namespace Reannotate

open Reannotate.Flow (Phrase TypeName Role Frame)
open Reannotate.TypeScript (Node)

def Flow.Phrase.under (p : Phrase) (field : String) (t : List Frame) : List Frame :=
  ⟨p, ⟨field, none⟩⟩ :: t

def Flow.Phrase.underAt (p : Phrase) (field : String) (t : List Frame) (i : Nat) : List Frame :=
  ⟨p, ⟨field, some i⟩⟩ :: t

/-- What a conversion is asked for: a phrase with its trail, in a role. -/
structure Call where
  trail : List Frame
  phrase : Phrase
  role : Role Bool

def Call.place (c : Call) : Flow.Place := ⟨c.trail, c.phrase⟩

def Call.result (names : Names) (c : Call) (log : Log) : Except Fault Node :=
  ((Converting.convert names c.phrase c.role).outcome log).1

/-! ## Handing on -/

/-- What a part that is no type itself is to the type around it. -/
inductive Standing
  | member
  | indexer
  | typeParam
  | param
  | rest

/-- What is handed on in a part of a type that is no type itself. A parameter has the role `r`. -/
inductive PartHands (t : List Frame) (r : Role Bool) : Standing → Phrase → Call → Prop
  | value {s k v o w c} : PartHands t r .member (.property s k v o w c)
      ⟨(Phrase.property s k v o w c).under "value" t, v, .property o⟩
  | argument {s a} : PartHands t r .member (.spread s a)
      ⟨(Phrase.spread s a).under "argument" t, a, .other⟩
  | indexKey {s i k v w} : PartHands t r .indexer (.indexer s i k v w)
      ⟨(Phrase.indexer s i k v w).under "key" t, k, .other⟩
  | indexValue {s i k v w} : PartHands t r .indexer (.indexer s i k v w)
      ⟨(Phrase.indexer s i k v w).under "value" t, v, .other⟩
  | bound {s n b d w} : PartHands t r .typeParam (.typeParameter s n (some b) d w)
      ⟨(Phrase.typeParameter s n (some b) d w).under "bound" t, b, .other⟩
  | default {s n b d w} : PartHands t r .typeParam (.typeParameter s n b (some d) w)
      ⟨(Phrase.typeParameter s n b (some d) w).under "default" t, d, .other⟩
  | param {s f n a o} : PartHands t r .param (.parameter s f n (some a) o)
      ⟨(Phrase.parameter s f n (some a) o).under "type_annotation" t, a, r⟩
  | rest {s f n a o} (named : n.isNull = false) : PartHands t r .rest (.parameter s f n (some a) o)
      ⟨(Phrase.parameter s f n (some a) o).under "type_annotation" t, a, .other⟩

inductive SignatureHands (t : List Frame) (roles : List (Role Bool)) (result : Role Bool) :
    Phrase → Call → Prop
  | typeParam {s form ps q rest ts i m call} (h : ts[i]? = some m)
      (hm : PartHands
        ((Phrase.callable s form ps q rest (some ts)).underAt "type_params" t i) .other
        .typeParam m call) :
      SignatureHands t roles result (.callable s form ps q rest (some ts)) call
  | param {s form ps q rest ts i m r call} (h : ps[i]? = some m) (hr : roles[i]? = some r)
      (hm : PartHands ((Phrase.callable s form ps q rest ts).underAt "params" t i) r .param m call) :
      SignatureHands t roles result (.callable s form ps q rest ts) call
  | rest {s form ps q m ts call}
      (hm : PartHands ((Phrase.callable s form ps q (some m) ts).under "rest" t) .other .rest m call) :
      SignatureHands t roles result (.callable s form ps q (some m) ts) call
  | result {s form ps q rest ts} : SignatureHands t roles result (.callable s form ps (some q) rest ts)
      ⟨(Phrase.callable s form ps (some q) rest ts).under "return_type" t, q, result⟩

def PartsHand (t : Nat → List Frame) (r : Role Bool) (standing : Standing) (ps : List Phrase)
    (Q : Call → Prop) : Prop :=
  ∀ i m, ps[i]? = some m → ∀ call, PartHands (t i) r standing m call → Q call

section
variable {t : Nat → List Frame} {r : Role Bool} {standing : Standing} {p : Phrase} {rest : List Phrase}
variable {Q : Call → Prop}

theorem PartsHand.head (h : PartsHand t r standing (p :: rest) Q) {call : Call}
    (hp : PartHands (t 0) r standing p call) : Q call :=
  h 0 p rfl call hp

theorem partsHand_nil (t : Nat → List Frame) : PartsHand t r standing [] Q :=
  fun _ _ hm => nomatch hm

theorem PartsHand.cons (hp : ∀ call, PartHands (t 0) r standing p call → Q call)
    (hrest : PartsHand (fun i => t (i + 1)) r standing rest Q) : PartsHand t r standing (p :: rest) Q
  | 0, _, rfl => hp
  | i + 1, m, hm => hrest i m hm

theorem PartsHand.tail (h : PartsHand t r standing (p :: rest) Q) :
    PartsHand (fun i => t (i + 1)) r standing rest Q :=
  fun i m hm => h (i + 1) m hm

end

def SignatureStarts (t : List Frame) : Phrase → Call → Prop
  | .callable s form ps q rest ts, call => ∃ roles, Converting.signatureRoles ps = .ok roles ∧
      SignatureHands t roles .returnType (.callable s form ps q rest ts) call
  | _, _ => False

/-- One type hands on to another in one of its slots. -/
inductive Hands : Call → Call → Prop
  | element {t r s e} : Hands ⟨t, .array s e, r⟩ ⟨(Phrase.array s e).under "element" t, e, r⟩
  | member {t r s g ts i q} (h : ts[i]? = some q) :
      Hands ⟨t, .group s g ts, r⟩ ⟨(Phrase.group s g ts).underAt "types" t i, q, r⟩
  | nullable {t r s q} :
      Hands ⟨t, .nullable s q, r⟩ ⟨(Phrase.nullable s q).under "type_annotation" t, q, r⟩
  | typeof {t r s a} : Hands ⟨t, .typeof s a, r⟩ ⟨(Phrase.typeof s a).under "argument" t, a, r⟩
  | typeArg {t r s id as i q} (h : as[i]? = some q) : Hands ⟨t, .generic s id (some as), r⟩
      ⟨(Phrase.generic s id (some as)).underAt "type_args" t i, q, .other⟩
  | property {t r s ps is cs x i m call} (h : ps[i]? = some m)
      (hm : PartHands ((Phrase.object s ps is cs x).underAt "properties" t i) .other
        .member m call) : Hands ⟨t, .object s ps is cs x, r⟩ call
  | indexer {t r s ps is cs x i m call} (h : is[i]? = some m)
      (hm : PartHands ((Phrase.object s ps is cs x).underAt "indexers" t i) .other
        .indexer m call) : Hands ⟨t, .object s ps is cs x, r⟩ call
  | signature {t r s ps q rest ts call}
      (h : SignatureHands t (ps.map fun _ => .other) r (.callable s .ofType ps q rest ts) call) :
      Hands ⟨t, .callable s .ofType ps q rest ts, r⟩ call

abbrev Reaches : Call → Call → Prop := Relation.ReflTransGen Hands

/-! ## What a type hands on -/

section
variable {t : List Frame} {r : Role Bool} {s : Option Flow.Span} {call : Call}

@[simp]
theorem partHands_property {k : Flow.PropertyKey} {x : Phrase} {o : Bool}
    {w : Option Flow.Variance} {c : Flow.Comments} :
    PartHands t r .member (.property s k x o w c) call ↔
      call = ⟨(Phrase.property s k x o w c).under "value" t, x, .property o⟩ := by
  constructor
  · rintro ⟨⟩
    rfl
  · rintro rfl
    exact .value

@[simp]
theorem partHands_spread {a : Phrase} : PartHands t r .member (.spread s a) call ↔
    call = ⟨(Phrase.spread s a).under "argument" t, a, .other⟩ := by
  constructor
  · rintro ⟨⟩
    rfl
  · rintro rfl
    exact .argument

@[simp]
theorem partHands_indexer {i : Json} {k x : Phrase} {w : Json} :
    PartHands t r .indexer (.indexer s i k x w) call ↔
      call = ⟨(Phrase.indexer s i k x w).under "key" t, k, .other⟩ ∨
        call = ⟨(Phrase.indexer s i k x w).under "value" t, x, .other⟩ := by
  constructor
  · rintro (_ | _)
    · exact .inl rfl
    · exact .inr rfl
  · rintro (rfl | rfl)
    · exact .indexKey
    · exact .indexValue

@[simp]
theorem partHands_typeParameter {n : Json} {b d : Option Phrase} {w : Json} :
    PartHands t r .typeParam (.typeParameter s n b d w) call ↔
      (∃ q ∈ b, call = ⟨(Phrase.typeParameter s n b d w).under "bound" t, q, .other⟩) ∨
        ∃ q ∈ d, call = ⟨(Phrase.typeParameter s n b d w).under "default" t, q, .other⟩ := by
  constructor
  · rintro (_ | _)
    · exact .inl ⟨_, rfl, rfl⟩
    · exact .inr ⟨_, rfl, rfl⟩
  · rintro (⟨q, rfl, rfl⟩ | ⟨q, rfl, rfl⟩)
    · exact .bound
    · exact .default

@[simp]
theorem partHands_param {f : Flow.ParameterForm} {n : Json} {a : Option Phrase} {o : Bool} :
    PartHands t r .param (.parameter s f n a o) call ↔
      ∃ q ∈ a, call = ⟨(Phrase.parameter s f n a o).under "type_annotation" t, q, r⟩ := by
  constructor
  · rintro ⟨⟩
    exact ⟨_, rfl, rfl⟩
  · rintro ⟨q, rfl, rfl⟩
    exact .param

@[simp]
theorem partHands_rest {f : Flow.ParameterForm} {n : Json} {a : Option Phrase} {o : Bool} :
    PartHands t r .rest (.parameter s f n a o) call ↔ n.isNull = false ∧
      ∃ q ∈ a, call = ⟨(Phrase.parameter s f n a o).under "type_annotation" t, q, .other⟩ := by
  constructor
  · rintro ⟨⟩
    exact ⟨‹_›, _, rfl, rfl⟩
  · rintro ⟨named, q, rfl, rfl⟩
    exact .rest named

end

section
variable {t : List Frame} {r : Role Bool} {s : Option Flow.Span} {call : Call}

theorem signatureHands_callable {roles : List (Role Bool)} {result : Role Bool}
    {form : Flow.CallableForm} {ps : List Phrase} {q rest : Option Phrase}
    {ts : Option (List Phrase)} :
    SignatureHands t roles result (.callable s form ps q rest ts) call ↔
      (∃ tps ∈ ts, ∃ i m, tps[i]? = some m ∧ PartHands
        ((Phrase.callable s form ps q rest ts).underAt "type_params" t i) .other .typeParam m call) ∨
      (∃ i m, ps[i]? = some m ∧ ∃ r, roles[i]? = some r ∧ PartHands
        ((Phrase.callable s form ps q rest ts).underAt "params" t i) r .param m call) ∨
      (∃ m ∈ rest, PartHands
        ((Phrase.callable s form ps q rest ts).under "rest" t) .other .rest m call) ∨
      ∃ a ∈ q, call = ⟨(Phrase.callable s form ps q rest ts).under "return_type" t, a, result⟩ := by
  constructor
  · rintro (⟨h, hm⟩ | ⟨h, hr, hm⟩ | hm | _)
    · exact .inl ⟨_, rfl, _, _, h, hm⟩
    · exact .inr (.inl ⟨_, _, h, _, hr, hm⟩)
    · exact .inr (.inr (.inl ⟨_, rfl, hm⟩))
    · exact .inr (.inr (.inr ⟨_, rfl, rfl⟩))
  · rintro (⟨tps, rfl, i, m, h, hm⟩ | ⟨i, m, h, r, hr, hm⟩ | ⟨m, rfl, hm⟩ | ⟨a, rfl, rfl⟩)
    · exact .typeParam h hm
    · exact .param h hr hm
    · exact .rest hm
    · exact .result

theorem hands_array {e : Phrase} : Hands ⟨t, .array s e, r⟩ call ↔
    call = ⟨(Phrase.array s e).under "element" t, e, r⟩ := by
  constructor
  · rintro ⟨⟩
    rfl
  · rintro rfl
    exact .element

theorem hands_group {g : Grouping} {ts : List Phrase} : Hands ⟨t, .group s g ts, r⟩ call ↔
    ∃ i q, ts[i]? = some q ∧ call = ⟨(Phrase.group s g ts).underAt "types" t i, q, r⟩ := by
  constructor
  · rintro (_ | h)
    exact ⟨_, _, h, rfl⟩
  · rintro ⟨i, q, h, rfl⟩
    exact .member h

theorem hands_nullable {q : Phrase} : Hands ⟨t, .nullable s q, r⟩ call ↔
    call = ⟨(Phrase.nullable s q).under "type_annotation" t, q, r⟩ := by
  constructor
  · rintro ⟨⟩
    rfl
  · rintro rfl
    exact .nullable

theorem hands_typeof {a : Phrase} : Hands ⟨t, .typeof s a, r⟩ call ↔
    call = ⟨(Phrase.typeof s a).under "argument" t, a, r⟩ := by
  constructor
  · rintro ⟨⟩
    rfl
  · rintro rfl
    exact .typeof

theorem hands_generic {id : TypeName} {as : Option (List Phrase)} :
    Hands ⟨t, .generic s id as, r⟩ call ↔ ∃ qs ∈ as, ∃ i q, qs[i]? = some q ∧
      call = ⟨(Phrase.generic s id as).underAt "type_args" t i, q, .other⟩ := by
  constructor
  · rintro ⟨⟩
    exact ⟨_, rfl, _, _, ‹_›, rfl⟩
  · rintro ⟨qs, rfl, i, q, h, rfl⟩
    exact .typeArg h

theorem hands_object {ps is cs : List Phrase} {x : Bool} :
    Hands ⟨t, .object s ps is cs x, r⟩ call ↔
      (∃ i m, ps[i]? = some m ∧ PartHands
        ((Phrase.object s ps is cs x).underAt "properties" t i) .other .member m call) ∨
      ∃ i m, is[i]? = some m ∧ PartHands
        ((Phrase.object s ps is cs x).underAt "indexers" t i) .other .indexer m call := by
  constructor
  · rintro ⟨⟩
    · exact .inl ⟨_, _, ‹_›, ‹_›⟩
    · exact .inr ⟨_, _, ‹_›, ‹_›⟩
  · rintro (⟨i, m, h, hm⟩ | ⟨i, m, h, hm⟩)
    · exact .property h hm
    · exact .indexer h hm

theorem hands_ofType {ps : List Phrase} {q rest : Option Phrase} {ts : Option (List Phrase)} :
    Hands ⟨t, .callable s .ofType ps q rest ts, r⟩ call ↔
      SignatureHands t (ps.map fun _ => .other) r (.callable s .ofType ps q rest ts) call := by
  constructor
  · rintro ⟨⟩
    assumption
  · exact .signature

end

theorem exists_getElem?_cons {α : Type} {a : α} {l : List α} {P : Nat → α → Prop} :
    (∃ i b, (a :: l)[i]? = some b ∧ P i b) ↔ P 0 a ∨ ∃ i b, l[i]? = some b ∧ P (i + 1) b := by
  constructor
  · rintro ⟨i, b, h, hP⟩
    cases i with
    | zero =>
      cases h
      exact .inl hP
    | succ i => exact .inr ⟨i, b, h, hP⟩
  · rintro (hP | ⟨i, b, h, hP⟩)
    · exact ⟨0, a, rfl, hP⟩
    · exact ⟨i + 1, b, h, hP⟩

/-! ## The conversion with a record -/

structure Visit where
  call : Call
  before : Log
  result : Except Fault Node

structure Trace where
  log : Log
  visits : List Visit

abbrev Tracing := ExceptT Fault (StateM Trace)

namespace Tracing

variable {α : Type}

def outcome (c : Tracing α) (trace : Trace) : Except Fault α × Trace :=
  c.run.run trace

def visits (c : Tracing α) (log : Log) : List Visit :=
  (c.outcome ⟨log, []⟩).2.visits

def quietly (c : Converting α) : Tracing α :=
  ExceptT.mk fun trace =>
    let (result, log) := c.outcome trace.log
    (result, { trace with log := log })

def visiting (call : Call) (c : Tracing Node) : Tracing Node :=
  ExceptT.mk fun trace =>
    let (result, after) := c.outcome trace
    (result, { after with visits := after.visits ++ [⟨call, trace.log, result⟩] })

end Tracing

abbrev Visitor.recording : Visitor (List Frame) Tracing where
  step := Tracing.quietly
  enter p slot t := ⟨p, slot⟩ :: t
  visit t p role := Tracing.visiting ⟨t, p, role⟩

@[simp]
theorem recording_under (p : Phrase) (field : String) (t : List Frame) :
    Visitor.recording.under p field t = p.under field t := rfl

@[simp]
theorem recording_underAt (p : Phrase) (field : String) (t : List Frame) (i : Nat) :
    Visitor.recording.underAt p field t i = p.underAt field t i := rfl

/-- The outcome of a visit is that of a conversion of its own. -/
def Visit.Genuine (names : Names) (v : Visit) : Prop :=
  v.result = v.call.result names v.before

/-- The call was visited, and had a result. -/
def Succeeds (visits : List Visit) (call : Call) : Prop :=
  ∃ v ∈ visits, v.call = call ∧ ∃ node, v.result = .ok node

/-- Visits that start with calls of which `D` holds: where a visit has a result, all that is handed
on was visited as well. -/
structure Covers (names : Names) (D : Call → Prop) (visits : List Visit) : Prop where
  genuine : ∀ v ∈ visits, v.Genuine names
  reached : ∀ v ∈ visits, ∃ first, D first ∧ Reaches first v.call
  complete : ∀ v ∈ visits, ∀ node, v.result = .ok node → ∀ call, Hands v.call call →
    Succeeds visits call

/-- Apart from its record `c` is `plain`. What it adds to the record starts with calls of which `D`
holds, with all of them if it has a result. -/
structure Records {α : Type} (names : Names) (D : Call → Prop) (c : Tracing α)
    (plain : Converting α) : Prop where
  outcome : ∀ trace, ((c.outcome trace).1, (c.outcome trace).2.log) = plain.outcome trace.log
  visits : ∀ trace, ∃ new, (c.outcome trace).2.visits = trace.visits ++ new ∧
    Covers names D new ∧ ∀ a, (c.outcome trace).1 = .ok a → ∀ call, D call → Succeeds new call

section
variable {names : Names} {D D₁ D₂ : Call → Prop} {vs ws : List Visit} {call : Call}

theorem Succeeds.left (h : Succeeds vs call) : Succeeds (vs ++ ws) call :=
  have ⟨v, hv, hc⟩ := h
  ⟨v, List.mem_append_left ws hv, hc⟩

theorem Succeeds.right (h : Succeeds ws call) : Succeeds (vs ++ ws) call :=
  have ⟨v, hv, hc⟩ := h
  ⟨v, List.mem_append_right vs hv, hc⟩

theorem Succeeds.visited (h : Succeeds vs call) : ∃ v ∈ vs, v.call = call :=
  have ⟨v, hv, hc, _⟩ := h
  ⟨v, hv, hc⟩

theorem covers_nil : Covers names D [] := ⟨nofun, nofun, nofun⟩

theorem Covers.mono (h : Covers names D₁ vs) (hD : ∀ call, D₁ call → D call) :
    Covers names D vs where
  genuine := h.genuine
  reached v hv := by
    obtain ⟨first, hfirst, hreach⟩ := h.reached v hv
    exact ⟨first, hD first hfirst, hreach⟩
  complete := h.complete

theorem Covers.append (h : Covers names D vs) (h' : Covers names D ws) : Covers names D (vs ++ ws) where
  genuine := List.forall_mem_append.2 ⟨h.genuine, h'.genuine⟩
  reached := List.forall_mem_append.2 ⟨h.reached, h'.reached⟩
  complete := List.forall_mem_append.2
    ⟨fun v hv node hn call hc => (h.complete v hv node hn call hc).left,
      fun v hv node hn call hc => (h'.complete v hv node hn call hc).right⟩

theorem Covers.visit {v : Visit} (h : Covers names (Hands v.call) vs) (own : v.Genuine names)
    (done : ∀ node, v.result = .ok node → ∀ call, Hands v.call call → Succeeds vs call) :
    Covers names (· = v.call) (vs ++ [v]) where
  genuine := List.forall_mem_append.2 ⟨h.genuine, List.forall_mem_singleton.2 own⟩
  reached := by
    refine List.forall_mem_append.2 ⟨fun w hw => ?_, List.forall_mem_singleton.2 ⟨_, rfl, .refl⟩⟩
    obtain ⟨first, hfirst, hreach⟩ := h.reached w hw
    exact ⟨v.call, rfl, .head hfirst hreach⟩
  complete := List.forall_mem_append.2
    ⟨fun w hw node hn call hc => (h.complete w hw node hn call hc).left,
      List.forall_mem_singleton.2 fun node hn call hc => (done node hn call hc).left⟩

theorem Covers.succeeds (h : Covers names D vs) {a b : Call} (ha : Succeeds vs a) (hab : Reaches a b) :
    Succeeds vs b := by
  induction hab with
  | refl => exact ha
  | tail _ hands ih =>
    obtain ⟨v, hv, rfl, node, hn⟩ := ih
    exact h.complete v hv node hn _ hands

end

section
variable {α β : Type} {names : Names} {D D₁ D₂ : Call → Prop}

theorem Tracing.outcome_bind (c : Tracing α) (f : α → Tracing β) (trace : Trace) :
    (c >>= f).outcome trace = match c.outcome trace with
      | (.ok a, after) => (f a).outcome after
      | (.error e, after) => (.error e, after) := by
  simp only [Tracing.outcome, ExceptT.run_bind, StateT.run_bind]
  rcases c.run.run trace with ⟨r, after⟩
  cases r <;> rfl

theorem Records.congr {c : Tracing α} {plain : Converting α} (h : Records names D₁ c plain)
    (hD : ∀ call, D call ↔ D₁ call) : Records names D c plain where
  outcome := h.outcome
  visits trace := by
    obtain ⟨new, hnew, covers, all⟩ := h.visits trace
    exact ⟨new, hnew, covers.mono fun call => (hD call).2,
      fun a ha call hcall => all a ha call ((hD call).1 hcall)⟩

theorem records_step (c : Converting α) :
    Records names (fun _ => False) (Visitor.recording.step c) c :=
  ⟨fun _ => rfl, fun _ => ⟨[], (List.append_nil _).symm, covers_nil, nofun⟩⟩

theorem records_pure (a : α) : Records names (fun _ => False) (pure a) (pure a) :=
  ⟨fun _ => rfl, fun _ => ⟨[], (List.append_nil _).symm, covers_nil, nofun⟩⟩

theorem records_throw (e : Fault) :
    Records names D (Visitor.recording.step (throw e : Converting α)) (throw e) :=
  ⟨fun _ => rfl, fun _ => ⟨[], (List.append_nil _).symm, covers_nil, nofun⟩⟩

theorem Records.bind {c : Tracing α} {plain : Converting α} {f : α → Tracing β}
    {g : α → Converting β} (h : Records names D₁ c plain)
    (hf : ∀ a, Records names D₂ (f a) (g a)) :
    Records names (fun call => D₁ call ∨ D₂ call) (c >>= f) (plain >>= g) := by
  have run : ∀ trace, plain.outcome trace.log =
      ((c.outcome trace).1, (c.outcome trace).2.log) := fun trace => (h.outcome trace).symm
  constructor
  · intro trace
    rw [Tracing.outcome_bind, Converting.outcome_bind, run]
    rcases c.outcome trace with ⟨r, after⟩
    cases r with
    | ok a => exact (hf a).outcome after
    | error e => rfl
  · intro trace
    obtain ⟨new, hnew, covers, all⟩ := h.visits trace
    have covers := covers.mono fun call hc => Or.inl (b := D₂ call) hc
    rw [Tracing.outcome_bind]
    rcases hc : c.outcome trace with ⟨r, after⟩
    rw [hc] at hnew all
    cases r with
    | ok a =>
      obtain ⟨more, hmore, covers', all'⟩ := (hf a).visits after
      have covers' := covers'.mono fun call hc => Or.inr (a := D₁ call) hc
      refine ⟨new ++ more, ?_, covers.append covers', fun b hb call hcall => ?_⟩
      · rw [← List.append_assoc, ← hnew]
        exact hmore
      · rcases hcall with hcall | hcall
        · exact (all a rfl call hcall).left
        · exact (all' b hb call hcall).right
    | error e => exact ⟨new, hnew, covers, nofun⟩

theorem Records.step_bind {c : Converting α} {f : α → Tracing β} {g : α → Converting β}
    (h : ∀ a, Records names D (f a) (g a)) :
    Records names D (Visitor.recording.step c >>= f) (c >>= g) :=
  ((records_step c).bind h).congr fun _ => (iff_of_eq (false_or _)).symm

theorem Records.then_pure {c : Tracing α} {plain : Converting α} {f : α → β}
    (h : Records names D c plain) :
    Records names D (c >>= fun a => pure (f a)) (plain >>= fun a => pure (f a)) :=
  (h.bind fun _ => records_pure _).congr fun _ => (iff_of_eq (or_false _)).symm

theorem Records.lift_bind {x : Except Fault α} {f : α → Tracing β} {g : α → Converting β}
    (h : ∀ a, x = .ok a → Records names D (f a) (g a)) :
    Records names D (Visitor.recording.step (liftM x) >>= f) (liftM x >>= g) := by
  cases x with
  | ok a => exact h a rfl
  | error e => exact records_throw e

theorem Records.visiting (call : Call) {c : Tracing Node}
    (h : Records names (Hands call) c (Converting.convert names call.phrase call.role)) :
    Records names (· = call) (Tracing.visiting call c)
      (Converting.convert names call.phrase call.role) := by
  constructor
  · exact h.outcome
  · intro trace
    obtain ⟨new, hnew, covers, all⟩ := h.visits trace
    let v : Visit := ⟨call, trace.log, (c.outcome trace).1⟩
    have genuine : v.Genuine names := congrArg Prod.fst (h.outcome trace)
    refine ⟨new ++ [v], ?_, covers.visit genuine all, ?_⟩
    · rw [← List.append_assoc, ← hnew]
      rfl
    · rintro node hn _ rfl
      exact ⟨_, List.mem_append_right new List.mem_cons_self, rfl, node, hn⟩

end

/-! ## The record is faithful and complete -/

open Converting

section
variable {names : Names}

mutual

theorem records_convert (t : List Frame) (p : Phrase) (role : Role Bool) :
    Records names (· = ⟨t, p, role⟩) (Visitor.recording.convert names t p role)
      (convert names p role) := by
  unfold Visitor.convert
  refine Records.visiting ⟨t, p, role⟩ ?_
  match p with
  | .typeName n => exact records_throw _
  | .primitive s w => exact (records_step _).congr fun _ => ⟨nofun, False.elim⟩
  | .literal s k v => exact (records_step _).congr fun _ => ⟨nofun, False.elim⟩
  | .array s e => exact (records_convert _ e role).then_pure.congr fun _ => hands_array
  | .group s g ts => exact (records_each _ ts role).then_pure.congr fun _ => hands_group
  | .nullable s q => exact (records_convert _ q role).then_pure.congr fun _ => hands_nullable
  | .typeof s a => exact (records_convert _ a role).then_pure.congr fun _ => hands_typeof
  | .generic s id as =>
    exact ((records_args _ as).bind fun args => records_step _).congr fun _ =>
      hands_generic.trans (by simp)
  | .property s k v o w c => exact records_throw _
  | .spread s a => exact records_throw _
  | .indexer s i k v w => exact records_throw _
  | .callProperty s v st => exact records_throw _
  | .object s ps is cs x =>
    have parts : Records names (Hands ⟨t, .object s ps is cs x, role⟩) (do
        let members ← Visitor.recording.convertMembers names
          ((Phrase.object s ps is cs x).underAt "properties" t) ps
        let indexers ← Visitor.recording.convertIndexers names
          ((Phrase.object s ps is cs x).underAt "indexers" t) is
        Visitor.recording.step (refuseCalls cs)
        return members.assemble indexers) (convertParts names ps is cs) :=
      ((records_members _ ps).bind fun members => (records_indexers _ is).bind fun indexers =>
        .step_bind fun _ => records_pure _).congr fun _ => hands_object.trans (by simp)
    cases x with
    | true => exact .step_bind fun _ => parts
    | false => exact parts
  | .typeParameter s n b d w => exact records_throw _
  | .parameter s f n a o => exact records_throw _
  | .callable s (.declared n) ps r rest ts => exact records_throw _
  | .callable s .ofType ps r rest ts =>
    exact ((records_typeParams _ ts).bind fun typeParams => .step_bind fun used =>
      (records_params _ ps _ used).bind fun params => (records_rest _ rest).bind fun last =>
        (records_maybe _ r role).then_pure).congr fun _ =>
          hands_ofType.trans signatureHands_callable

theorem records_each (t : Nat → List Frame) (ps : List Phrase) (role : Role Bool) :
    Records names (fun call => ∃ i q, ps[i]? = some q ∧ call = ⟨t i, q, role⟩)
      (Visitor.recording.convertEach names t ps role) (convertEach names ps role) := by
  match ps with
  | [] => exact (records_pure _).congr fun _ => by simp
  | p :: rest =>
    exact ((records_convert (t 0) p role).bind fun node =>
      (records_each _ rest role).then_pure).congr fun _ => exists_getElem?_cons

theorem records_maybe (t : List Frame) (o : Option Phrase) (role : Role Bool) :
    Records names (fun call => ∃ q ∈ o, call = ⟨t, q, role⟩)
      (Visitor.recording.convertMaybe names t o role) (convertMaybe names o role) := by
  match o with
  | none => exact (records_pure _).congr fun _ => by simp
  | some p => exact (records_convert t p role).then_pure.congr fun _ => by simp

theorem records_args (t : Nat → List Frame) (o : Option (List Phrase)) :
    Records names (fun call => ∃ ps ∈ o, ∃ i q, ps[i]? = some q ∧ call = ⟨t i, q, .other⟩)
      (Visitor.recording.convertArgs names t o) (convertArgs names o) := by
  match o with
  | none => exact (records_pure _).congr fun _ => by simp
  | some ps => exact (records_each t ps .other).then_pure.congr fun _ => by simp

theorem records_members (t : Nat → List Frame) (ps : List Phrase) :
    Records names (fun call => ∃ i m, ps[i]? = some m ∧ PartHands (t i) .other .member m call)
      (Visitor.recording.convertMembers names t ps) (convertMembers names ps) := by
  match ps with
  | [] => exact (records_pure _).congr fun _ => by simp
  | p :: rest =>
    cases p with
    | property s k x o w c =>
      exact ((records_convert _ x _).bind fun type => .step_bind fun member =>
        (records_members _ rest).then_pure).congr fun _ => exists_getElem?_cons.trans (by simp)
    | spread s a =>
      exact ((records_convert _ a _).bind fun spread =>
        (records_members _ rest).then_pure).congr fun _ => exists_getElem?_cons.trans (by simp)
    | _ => exact records_throw _

theorem records_indexers (t : Nat → List Frame) (ps : List Phrase) :
    Records names (fun call => ∃ i m, ps[i]? = some m ∧ PartHands (t i) .other .indexer m call)
      (Visitor.recording.convertIndexers names t ps) (convertIndexers names ps) := by
  match ps with
  | [] => exact (records_pure _).congr fun _ => by simp
  | p :: rest =>
    cases p with
    | indexer s i k x w =>
      exact ((records_convert _ k _).bind fun key => (records_convert _ x _).bind fun type =>
        .step_bind fun member => (records_indexers _ rest).then_pure).congr fun _ =>
          exists_getElem?_cons.trans (by simp [or_assoc])
    | _ => exact records_throw _

theorem records_params (t : Nat → List Frame) (ps : List Phrase) (roles : List (Role Bool))
    (used : List Json) :
    Records names
      (fun call => ∃ i m, ps[i]? = some m ∧ ∃ r, roles[i]? = some r ∧ PartHands (t i) r .param m call)
      (Visitor.recording.convertParams names t ps roles used) (convertParams names ps roles used) := by
  match ps, roles with
  | [], _ => exact (records_pure _).congr fun _ => by simp
  | p :: rest, [] => cases p <;> exact (records_pure _).congr fun _ => by simp
  | p :: rest, role :: roles =>
    cases p with
    | parameter s f n a o =>
      exact .step_bind fun named => ((records_maybe _ a role).bind fun type => .step_bind fun param =>
        (records_params _ rest roles _).then_pure).congr fun _ =>
          exists_getElem?_cons.trans (by simp)
    | _ => exact .step_bind fun name => .step_bind fun named => records_throw _

theorem records_rest (t : List Frame) (o : Option Phrase) :
    Records names (fun call => ∃ m ∈ o, PartHands t .other .rest m call)
      (Visitor.recording.convertRest names t o) (convertRest names o) := by
  match o with
  | none => exact (records_pure _).congr fun _ => by simp
  | some p =>
    cases p with
    | parameter s f n a o =>
      rw [convertRest_parameter]
      unfold Visitor.convertRest
      cases hn : n.isNull with
      | true => exact (records_pure _).congr fun _ => by simp [hn]
      | false =>
        exact ((records_maybe _ a _).bind fun type =>
          .step_bind fun rest => records_pure _).congr fun _ => by simp [hn]
    | _ =>
      refine .step_bind fun name => ?_
      cases name.isNull with
      | true => exact (records_pure _).congr fun _ => ⟨fun ⟨_, rfl, h⟩ => (nomatch h), False.elim⟩
      | false => exact records_throw _

theorem records_typeParams (t : Nat → List Frame) (o : Option (List Phrase)) :
    Records names
      (fun call => ∃ ps ∈ o, ∃ i m, ps[i]? = some m ∧ PartHands (t i) .other .typeParam m call)
      (Visitor.recording.convertTypeParams names t o) (convertTypeParams names o) := by
  match o with
  | none => exact (records_pure _).congr fun _ => by simp
  | some ps => exact (records_eachTypeParam t ps).then_pure.congr fun _ => by simp

theorem records_eachTypeParam (t : Nat → List Frame) (ps : List Phrase) :
    Records names (fun call => ∃ i m, ps[i]? = some m ∧ PartHands (t i) .other .typeParam m call)
      (Visitor.recording.convertEachTypeParam names t ps) (convertEachTypeParam names ps) := by
  match ps with
  | [] => exact (records_pure _).congr fun _ => by simp
  | p :: rest =>
    cases p with
    | typeParameter s n b d w =>
      exact ((records_maybe _ b _).bind fun bound => (records_maybe _ d _).bind fun default =>
        .step_bind fun param => (records_eachTypeParam _ rest).then_pure).congr fun _ =>
          exists_getElem?_cons.trans (by simp [or_assoc])
    | _ => exact records_throw _

end

/-- The visit that is asked for comes last. -/
theorem visits_convert (t : List Frame) (p : Phrase) (role : Role Bool) (log : Log) :
    ∃ inside, (Visitor.recording.convert names t p role).visits log =
      inside ++ [⟨⟨t, p, role⟩, log, ((convert names p role).outcome log).1⟩] := by
  rw [← (records_convert t p role).outcome ⟨log, []⟩]
  unfold Visitor.convert
  exact ⟨_, rfl⟩

theorem records_signature (t : List Frame) (p : Phrase) :
    Records names (SignatureStarts t p) (Visitor.recording.convertSignature names t p)
      (convertSignature names p) := by
  cases p with
  | callable s form ps r rest ts =>
    refine Records.lift_bind fun roles hroles => ?_
    exact ((records_typeParams _ ts).bind fun typeParams => .step_bind fun used =>
      (records_params _ ps _ used).bind fun params => (records_rest _ rest).bind fun last =>
        (records_maybe _ r _).then_pure).congr fun _ => by
          simp [SignatureStarts, hroles, signatureHands_callable]
  | _ => exact records_throw _

end

end Reannotate
