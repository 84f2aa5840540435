import Reannotate.Proofs.Reading
import Reannotate.Proofs.Steps
import Reannotate.Proofs.Visit

/-!
# Roles handed down and roles found

A conversion hands roles down from slot to slot, while `roleOf` finds them from the trail. They
agree: what is handed on by a call whose role is that of its place (`InPlace`) is again such a call,
so all visits of a tree that was read have the roles of their places (`visits_agree`).
-/

namespace Reannotate

open Reannotate.Flow (Phrase Role Frame Slot Place roleOf)
open Reannotate.TypeScript (Node)

def Flow.Phrase.DeclaresNothing : Phrase → Prop
  | .callable _ .ofType ps _ rest _ =>
    (∀ p ∈ ps, p.isDeclared = false) ∧ ∀ p ∈ rest, p.isDeclared = false
  | _ => True

def Flow.Phrase.isDeclaration : Phrase → Bool
  | .callable _ (.declared _) _ _ _ _ => true
  | _ => false

theorem Flow.Phrase.exists_of_isDeclaration {p : Phrase} (h : p.isDeclaration = true) :
    ∃ s name ps r rest ts, p = .callable s (.declared name) ps r rest ts := by
  cases p with
  | callable s form ps r rest ts =>
    cases form with
    | declared name => exact ⟨s, name, ps, r, rest, ts, rfl⟩
    | ofType => exact absurd h Bool.false_ne_true
  | _ => exact absurd h Bool.false_ne_true

/-- The call is for a place of the tree, in the role that the place has. -/
structure InPlace (root : Phrase) (c : Call) : Prop where
  place : c.place ∈ root.places []
  role : c.role = roleOf c.trail

/-! ## Places -/

section
variable {root p : Phrase} {t : List Frame} (h : ⟨t, p⟩ ∈ root.places [])
include h

theorem under_mem_places {q : Phrase} {field : String} (hf : (field, .phrase q) ∈ p.fields) :
    ⟨p.under field t, q⟩ ∈ root.places [] :=
  Phrase.child_mem_places h (Phrase.mem_children_of_phrase hf)

theorem underAt_mem_places {q : Phrase} {qs : List Phrase} {field : String} {i : Nat}
    (hf : (field, .phrases qs) ∈ p.fields) (hq : qs[i]? = some q) :
    ⟨p.underAt field t i, q⟩ ∈ root.places [] :=
  Phrase.child_mem_places h (Phrase.mem_children_of_phrases hf hq)

theorem PartHands.mem_places {r : Role Bool} {standing : Standing} {c : Call}
    (hc : PartHands t r standing p c) : c.place ∈ root.places [] := by
  cases hc with
  | _ => exact under_mem_places h (by simp [Phrase.fields, Flow.Part.maybe])

theorem SignatureHands.mem_places {roles : List (Role Bool)} {r : Role Bool} {c : Call}
    (hc : SignatureHands t roles r p c) : c.place ∈ root.places [] := by
  -- a declared function has its name as a further field
  cases hc with
  | @typeParam _ form _ _ _ _ _ _ _ hm hc =>
    refine PartHands.mem_places (underAt_mem_places h ?_ hm) hc
    cases form <;> simp [Phrase.fields, Flow.Part.maybeMany]
  | @param _ form _ _ _ _ _ _ _ _ hm hr hc =>
    refine PartHands.mem_places (underAt_mem_places h ?_ hm) hc
    cases form <;> simp [Phrase.fields]
  | @rest _ form _ _ _ _ _ hc =>
    refine PartHands.mem_places (under_mem_places h ?_) hc
    cases form <;> simp [Phrase.fields, Flow.Part.maybe]
  | @result _ form =>
    refine under_mem_places h ?_
    cases form <;> simp [Phrase.fields, Flow.Part.maybe]

end

/-! ## Roles -/

theorem roleOf_cons {p : Phrase} {slot : Slot} {t : List Frame} (h : p.passesThrough = true) :
    roleOf (⟨p, slot⟩ :: t) = roleOf t := by
  simp [roleOf, h]

theorem PartHands.role_eq {t : List Frame} {r : Role Bool} {standing : Standing} {m : Phrase}
    {c : Call} (hc : PartHands t r standing m c)
    (hr : standing = .param → r = if m.isDeclared then roleOf t else .other)
    (hrest : standing = .rest → m.isDeclared = true → roleOf t = .other) :
    c.role = roleOf c.trail := by
  cases hc with
  | @param s f n a o => cases f <;> exact hr rfl
  | @rest s f n a o named =>
    cases f with
    | ofType => rfl
    | declared => exact (hrest rfl rfl).symm
  | _ => rfl

theorem roleOf_declared {s : Option Flow.Span} {name : Json} {ps : List Phrase}
    {r rest : Option Phrase} {ts : Option (List Phrase)} {slot : Slot} {t : List Frame} :
    roleOf (⟨.callable s (.declared name) ps r rest ts, slot⟩ :: t) = Flow.declaredRole ps slot := by
  rfl

theorem yields_flags (ps : List Phrase) :
    Yields (Converting.signatureRoles ps)
      (fun roles => roles = Flow.parameterRoles (ps.map fun p => p.optional?.getD false))
      fun _ => True := by
  unfold Converting.signatureRoles
  refine (Yields.mapM_eq fun p _ => ?_).bind fun flags h => congrArg Flow.parameterRoles h
  cases p.optional? with
  | none => trivial
  | some o => exact yields_ok.2 rfl

theorem signatureRoles_eq {ps : List Phrase} {roles : List (Role Bool)}
    (h : Converting.signatureRoles ps = .ok roles) :
    roles = Flow.parameterRoles (ps.map fun p => p.optional?.getD false) := by
  have := yields_flags ps
  rwa [h] at this

section
variable {s : Option Flow.Span} {ps : List Phrase} {q rest : Option Phrase}
variable {ts : Option (List Phrase)} {t : List Frame} {c : Call}

theorem SignatureHands.role_ofType {r : Role Bool}
    (h : SignatureHands t (ps.map fun _ => .other) r (.callable s .ofType ps q rest ts) c)
    (nothing : (Phrase.callable s .ofType ps q rest ts).DeclaresNothing) (hr : r = roleOf t) :
    c.role = roleOf c.trail := by
  cases h with
  | typeParam hm hc => exact hc.role_eq (by simp) (by simp)
  | param hm hr hc =>
    refine hc.role_eq (fun _ => ?_) (by simp)
    rw [nothing.1 _ (List.mem_of_getElem? hm)]
    obtain ⟨p, hp, rfl⟩ := List.mem_map.1 (List.mem_of_getElem? hr)
    rfl
  | rest hc =>
    refine hc.role_eq (by simp) fun _ hd => ?_
    rw [nothing.2 _ rfl] at hd
    exact absurd hd Bool.false_ne_true
  | result => exact hr.trans (roleOf_cons rfl).symm

theorem SignatureHands.role_declared {name : Json} {roles : List (Role Bool)}
    (h : SignatureHands t roles .returnType (.callable s (.declared name) ps q rest ts) c)
    (declares : (Phrase.callable s (.declared name) ps q rest ts).DeclaresNames)
    (hroles : roles = Flow.parameterRoles (ps.map fun p => p.optional?.getD false)) :
    c.role = roleOf c.trail := by
  cases h with
  | typeParam hm hc => exact hc.role_eq (by simp) (by simp)
  | param hm hr hc =>
    refine hc.role_eq (fun _ => ?_) (by simp)
    rw [declares.1 _ (List.mem_of_getElem? hm), if_pos rfl, Phrase.underAt, roleOf_declared]
    simp [Flow.declaredRole, ← hroles, hr]
  | rest hc => exact hc.role_eq (by simp) fun _ _ => rfl
  | result => rfl

end

/-! ## Calls in place -/

theorem Hands.inPlace {root : Phrase} {a b : Call} (hroot : root.Everywhere Phrase.DeclaresNothing)
    (h : Hands a b) (ha : InPlace root a) : InPlace root b := by
  obtain ⟨place, role⟩ := ha
  have passed : ∀ {p : Phrase} {slot : Slot} {t : List Frame} {r : Role Bool},
      p.passesThrough = true → r = roleOf t → r = roleOf (⟨p, slot⟩ :: t) :=
    fun hp hr => hr.trans (roleOf_cons hp).symm
  cases h with
  | element => exact ⟨under_mem_places place (by simp [Phrase.fields]), passed rfl role⟩
  | member hq => exact ⟨underAt_mem_places place (by simp [Phrase.fields]) hq, passed rfl role⟩
  | nullable => exact ⟨under_mem_places place (by simp [Phrase.fields]), passed rfl role⟩
  | typeof => exact ⟨under_mem_places place (by simp [Phrase.fields]), passed rfl role⟩
  | typeArg hq =>
    exact ⟨underAt_mem_places place (by simp [Phrase.fields, Flow.Part.maybeMany]) hq, rfl⟩
  | property hm hc =>
    refine ⟨PartHands.mem_places (underAt_mem_places place (by simp [Phrase.fields]) hm) hc, ?_⟩
    exact hc.role_eq (by simp) (by simp)
  | indexer hm hc =>
    refine ⟨PartHands.mem_places (underAt_mem_places place (by simp [Phrase.fields]) hm) hc, ?_⟩
    exact hc.role_eq (by simp) (by simp)
  | signature hc => exact ⟨hc.mem_places place, hc.role_ofType (hroot _ place) role⟩

theorem Reaches.inPlace {root : Phrase} {a b : Call}
    (hroot : root.Everywhere Phrase.DeclaresNothing) (h : Reaches a b) (ha : InPlace root a) :
    InPlace root b := by
  induction h with
  | refl => exact ha
  | tail _ hands ih => exact hands.inPlace hroot ih

/-! ## Visits in place -/

/-- A visit is for a place of the tree in the role of that place, and has the outcome of a
conversion that starts there: from the same log, or from any log if fresh names do not depend on
it. -/
structure Visit.Agrees (names : Names) (root : Phrase) (v : Visit) : Prop where
  inPlace : InPlace root v.call
  alone : v.result = ((Converting.convertPart names ⟨v.call.trail, .phrase v.call.phrase⟩
    none).outcome v.before).1
  anytime : names.Forgetful → ∀ log, v.result =
    ((Converting.convertPart names ⟨v.call.trail, .phrase v.call.phrase⟩ none).outcome log).1

theorem Visit.Genuine.agrees {names : Names} {root : Phrase} {v : Visit} (h : v.Genuine names)
    (hv : InPlace root v.call) : v.Agrees names root := by
  have alone : v.result = ((Converting.convertPart names ⟨v.call.trail, .phrase v.call.phrase⟩
      none).outcome v.before).1 := by
    rw [h, Call.result, hv.role]
    rfl
  refine ⟨hv, alone, fun forgetful log => alone.trans ?_⟩
  exact (Converting.steady_convert forgetful _ _).same _ _

/-- The visits of a conversion in a tree, of which the first are asked for by calls that `first` holds
of: they agree with their places, nothing that is reached is left out of them where there is a result,
and the conversion without a record has the same outcome. -/
structure VisitsAgree (names : Names) (root : Phrase) (first : Call → Prop) (c : Tracing Node)
    (plain : Converting Node) : Prop where
  outcome : ∀ log, ((c.outcome ⟨log, []⟩).1, (c.outcome ⟨log, []⟩).2.log) = plain.outcome log
  agree : ∀ log, ∀ v ∈ c.visits log, v.Agrees names root
  reached : ∀ log, ∀ v ∈ c.visits log, ∃ a, first a ∧ Reaches a v.call
  complete : ∀ log, ∀ v ∈ c.visits log, ∀ node, v.result = .ok node →
    ∀ call, Reaches v.call call → ∃ w ∈ c.visits log, w.call = call
  all : ∀ log node, (c.outcome ⟨log, []⟩).1 = .ok node →
    ∀ call, (∃ v ∈ c.visits log, v.call = call) ↔ ∃ a, first a ∧ Reaches a call

theorem Records.visitsAgree {names : Names} {root : Phrase} {first : Call → Prop} {c : Tracing Node}
    {plain : Converting Node} (h : Records names first c plain)
    (hroot : root.Everywhere Phrase.DeclaresNothing) (hfirst : ∀ a, first a → InPlace root a) :
    VisitsAgree names root first c plain := by
  have covered : ∀ log, Covers names first (c.visits log) ∧
      ∀ node, (c.outcome ⟨log, []⟩).1 = .ok node → ∀ a, first a → Succeeds (c.visits log) a := by
    intro log
    obtain ⟨new, hnew, covers⟩ := h.visits ⟨log, []⟩
    rwa [Tracing.visits, hnew]
  constructor
  · exact fun log => h.outcome ⟨log, []⟩
  · intro log v hv
    obtain ⟨a, ha, reach⟩ := (covered log).1.reached v hv
    exact ((covered log).1.genuine v hv).agrees (reach.inPlace hroot (hfirst a ha))
  · exact fun log => (covered log).1.reached
  · intro log v hv node hn call reach
    exact ((covered log).1.succeeds ⟨v, hv, rfl, node, hn⟩ reach).visited
  · intro log node hn call
    constructor
    · rintro ⟨v, hv, rfl⟩
      exact (covered log).1.reached v hv
    · rintro ⟨a, ha, reach⟩
      exact ((covered log).1.succeeds ((covered log).2 node hn a ha) reach).visited

theorem SignatureStarts.inPlace {root p : Phrase} {t : List Frame} {c : Call}
    (hp : ⟨t, p⟩ ∈ root.places []) (declares : p.DeclaresNames) (hd : p.isDeclaration = true)
    (h : SignatureStarts t p c) : InPlace root c := by
  obtain ⟨s, name, ps, r, rest, ts, rfl⟩ := Phrase.exists_of_isDeclaration hd
  obtain ⟨roles, hroles, hc⟩ := h
  exact ⟨hc.mem_places hp, hc.role_declared declares (signatureRoles_eq hroles)⟩

/-- In a tree that was read, where no function type declares names, the visits of a conversion that
starts anywhere agree with their places, the last being the one that was asked for; and so do those of
each declared function's signature. -/
theorem visits_agree (names : Names) {node : Json} {root : Phrase} (hread : Flow.read node = .ok root)
    (hroot : root.Everywhere Phrase.DeclaresNothing) {t : List Frame} {p : Phrase}
    (hp : ⟨t, p⟩ ∈ root.places []) :
    (VisitsAgree names root (· = ⟨t, p, roleOf t⟩)
        (Visitor.recording.convertPart names t ⟨t, .phrase p⟩ none)
        (Converting.convertPart names ⟨t, .phrase p⟩ none) ∧
      ∀ log, ∃ inside, (Visitor.recording.convertPart names t ⟨t, .phrase p⟩ none).visits log =
        inside ++ [⟨⟨t, p, roleOf t⟩, log,
          ((Converting.convertPart names ⟨t, .phrase p⟩ none).outcome log).1⟩]) ∧
      (p.isDeclaration = true →
        VisitsAgree names root (SignatureStarts t p)
          (Visitor.recording.convertSignaturePart names t (.phrase p))
          (Converting.convertSignaturePart names (.phrase p))) := by
  have whole : Records names (· = ⟨t, p, roleOf t⟩) (Visitor.recording.convert names t p (roleOf t))
      (Converting.convert names p (roleOf t)) := records_convert t p (roleOf t)
  refine ⟨⟨whole.visitsAgree hroot ?_, visits_convert t p (roleOf t)⟩, fun hd => ?_⟩
  · rintro _ rfl
    exact ⟨hp, rfl⟩
  · have declares : p.DeclaresNames := by
      have := Flow.yields_read node
      rw [hread] at this
      exact this.everywhere _ hp
    exact (records_signature t p).visitsAgree hroot fun a ha => ha.inPlace hp declares hd

/-- `function (f?: (?number) => ?void, g: string): ?boolean` as a document. -/
def callbackNode : Json :=
  .object [("type", .str "FunctionDeclaration"), ("params", .array [
      .object [("type", .str "Identifier"), ("name", .str "f"), ("optional", .bool true),
        ("typeAnnotation", .object [("type", .str "FunctionTypeAnnotation"),
          ("params", .array [.object [("type", .str "FunctionTypeParam"),
            ("typeAnnotation", nullable "NumberTypeAnnotation")]]),
          ("returnType", nullable "VoidTypeAnnotation")])],
      .object [("type", .str "Identifier"), ("name", .str "g"),
        ("typeAnnotation", .object [("type", .str "StringTypeAnnotation")])]]),
    ("returnType", nullable "BooleanTypeAnnotation")]
where
  nullable (type : Text) : Json :=
    .object [("type", .str "NullableTypeAnnotation"), ("typeAnnotation", .object [("type", .str type)])]

def callback : Phrase :=
  .callable none (.declared .null) [.parameter none .declared (.str "f") (some (.callable none .ofType
      [.parameter none .ofType .null (some (.nullable none (.primitive none .number))) false]
      (some (.nullable none (.primitive none .void))) none none)) true,
    .parameter none .declared (.str "g") (some (.primitive none .string)) false]
    (some (.nullable none (.primitive none .boolean))) none none

def Visit.spot (v : Visit) : List Slot × Role Bool :=
  (v.call.trail.map Frame.slot, v.call.role)

theorem visits_agree_callback :
    Flow.read callbackNode = .ok callback ∧ callback.Everywhere Phrase.DeclaresNothing ∧
      ⟨[], callback⟩ ∈ callback.places [] ∧
      ((Visitor.recording.convertSignaturePart .usual [] (.phrase callback)).visits .empty).map
          Visit.spot =
        [([⟨"type_annotation", none⟩, ⟨"type_annotation", none⟩, ⟨"params", some 0⟩,
            ⟨"type_annotation", none⟩, ⟨"params", some 0⟩], .other),
          ([⟨"type_annotation", none⟩, ⟨"params", some 0⟩, ⟨"type_annotation", none⟩,
            ⟨"params", some 0⟩], .other),
          ([⟨"type_annotation", none⟩, ⟨"return_type", none⟩, ⟨"type_annotation", none⟩,
            ⟨"params", some 0⟩], .parameter true false),
          ([⟨"return_type", none⟩, ⟨"type_annotation", none⟩, ⟨"params", some 0⟩],
            .parameter true false),
          ([⟨"type_annotation", none⟩, ⟨"params", some 0⟩], .parameter true false),
          ([⟨"type_annotation", none⟩, ⟨"params", some 1⟩], .parameter false true),
          ([⟨"type_annotation", none⟩, ⟨"return_type", none⟩], .returnType),
          ([⟨"return_type", none⟩], .returnType)] ∧
      VisitsAgree .usual callback (SignatureStarts [] callback)
        (Visitor.recording.convertSignaturePart .usual [] (.phrase callback))
        (Converting.convertSignaturePart .usual (.phrase callback)) := by
  have hread : Flow.read callbackNode = .ok callback := by with_unfolding_all rfl
  have hroot : callback.Everywhere Phrase.DeclaresNothing := by
    simp [callback, Phrase.DeclaresNothing, Phrase.isDeclared]
  have hp := Phrase.self_mem_places [] callback
  exact ⟨hread, hroot, hp, by decide +kernel, (visits_agree .usual hread hroot hp).2 rfl⟩

end Reannotate
