import Reannotate.Proofs.Emission
import Reannotate.TypeScript.Rendering

/-!
# Sorts of nodes

Nodes are types or parts of types, and each slot of a node takes nodes of certain sorts. `Formed` is
the grammar of the nodes that conversions make. It is stricter than the sorts alone: `undefined`
stands in the middle of a union for a nullable type and nowhere else, properties come before index
signatures, and a rest parameter comes last. A formed node can be written as a document
(`Formed.emits`) and shown as text (`Formed.exists_text`).
-/

namespace Reannotate

open Reannotate.Flow (Phrase)

def Scalar.Textual (s : Scalar) : Prop := ∃ t, s = .str t

namespace TypeScript

inductive NodeSort
  | type
  | property
  | index
  | typeParameter
  | parameter
  | rest

def Node.keywords : List Node :=
  [.any, .boolean, .never, .null, .number, .string, .undefined, .unknown, .void]

def EntityName.Textual : EntityName → Prop
  | .plain _ => True
  | .qualified left right => left.Textual ∧ right.Textual

/-- Which types are given in a part of a signature. -/
def Node.given : Node → List Bool
  | .parameter _ t _ | .rest _ t => [t.isSome]
  | .typeParameter _ c d => [c.isSome, d.isSome]
  | _ => []

end TypeScript

open TypeScript (Node NodeSort)

def Flow.Phrase.given : Phrase → List Bool
  | .parameter _ _ _ t _ => [t.isSome]
  | .typeParameter _ _ b d _ => [b.isSome, d.isSome]
  | _ => []

/-- A rest parameter without a name does not count. -/
def Flow.Phrase.named : Phrase → Bool
  | .parameter _ _ n _ _ => !n.isNull
  | _ => false

/-- The phrase is a signature that lacks types in the same places as the node with these parts. -/
def Flow.Phrase.Outlines (p : Phrase) (typeParams : Option (List Node)) (params : List Node)
    (result : Option Node) : Prop :=
  ∃ s form ps r rest ts, p = .callable s form ps r rest ts ∧
    typeParams.map (List.map Node.given) = ts.map (List.map Phrase.given) ∧
    params.map Node.given = (ps ++ rest.toList.filter Phrase.named).map Phrase.given ∧
    result.isSome = r.isSome

/-- The nodes that conversions make. Their signatures come from phrases of which `From` holds. -/
inductive Formed (From : Phrase → Prop) : NodeSort → Node → Prop
  | keyword {n} (h : n ∈ Node.keywords) (hu : n ≠ .undefined) : Formed From .type n
  | this : Formed From .type .this
  | literal {v} (h : v ≠ .null) : Formed From .type (.literal v)
  | reference {name args} (hn : name.Textual) (h : ∀ ns ∈ args, ∀ n ∈ ns, Formed From .type n) :
      Formed From .type (.reference name args)
  | operator {op n} (ho : op = .keyof ∨ op = .typeof) (h : Formed From .type n) :
      Formed From .type (.operator op n)
  | access {n i} (hn : Formed From .type n) (hi : Formed From .type i) :
      Formed From .type (.access n i)
  | array {n} (h : Formed From .type n) : Formed From .type (.array n)
  | group {g ns} (h : ∀ n ∈ ns, Formed From .type n) : Formed From .type (.group g ns)
  | nullable {n} (h : Formed From .type n) : Formed From .type (.union [n, .undefined, .null])
  | object {members indexers} (hm : ∀ n ∈ members, Formed From .property n)
      (hi : ∀ n ∈ indexers, Formed From .index n) :
      Formed From .type (.object (members ++ indexers))
  | function {p typeParams params last result} (source : From p)
      (outline : p.Outlines typeParams (params ++ last) result)
      (ht : ∀ ns ∈ typeParams, ∀ n ∈ ns, Formed From .typeParameter n)
      (hp : ∀ n ∈ params, Formed From .parameter n)
      (single : last.length ≤ 1) (hl : ∀ n ∈ last, Formed From .rest n)
      (hr : ∀ n ∈ result, Formed From .type n) :
      Formed From .type (.function typeParams (params ++ last) result)
  | property {text quoted type optional readonly comments} (h : Formed From .type type) :
      Formed From .property
        (.property ⟨.str text, .bool quoted⟩ (some type) optional readonly comments)
  | index {name key type} (hk : Formed From .type key) (h : Formed From .type type) :
      Formed From .index (.index (.str name) (some key) (some type))
  | typeParameter {name constraint default} (hc : ∀ n ∈ constraint, Formed From .type n)
      (hd : ∀ n ∈ default, Formed From .type n) :
      Formed From .typeParameter (.typeParameter (.str name) constraint default)
  | parameter {name type optional} (h : ∀ n ∈ type, Formed From .type n) :
      Formed From .parameter (.parameter (.str name) type optional)
  | rest {name type} (h : ∀ n ∈ type, Formed From .type n) :
      Formed From .rest (.rest (.str name) type)

/-! ## Formed nodes as text -/

namespace TypeScript

def Node.Shows (n : Node) : Prop :=
  ∃ text, n.render = .ok (.str text)

theorem joined_eq (separator : Text) (texts : List Text) :
    joined separator (texts.map .str) = .ok (Text.join separator texts) := by
  have each : (texts.map Scalar.str).mapM expectText = .ok texts := by
    induction texts with
    | nil => rfl
    | cons t ts ih =>
      rw [List.map_cons, List.mapM_cons, ih]
      rfl
  rw [joined, each]
  rfl

theorem exists_renderEach : ∀ {ns : List Node}, (∀ n ∈ ns, n.Shows) →
    ∃ texts : List Text, renderEach ns = .ok (texts.map .str)
  | [], _ => ⟨[], rfl⟩
  | n :: ns, h => by
    obtain ⟨text, hn⟩ := h n List.mem_cons_self
    obtain ⟨texts, hns⟩ := exists_renderEach fun n hn => h n (List.mem_cons_of_mem _ hn)
    refine ⟨text :: texts, ?_⟩
    rw [renderEach, hn, hns]
    rfl

theorem exists_renderArgs {o : Option (List Node)} (h : ∀ ns ∈ o, ∀ n ∈ ns, n.Shows) :
    ∃ text, renderArgs o = .ok text := by
  match o with
  | none => exact ⟨_, rfl⟩
  | some [] => exact ⟨_, rfl⟩
  | some (n :: ns) =>
    obtain ⟨texts, hns⟩ := exists_renderEach (h _ rfl)
    rw [renderArgs, hns]
    · refine ⟨"<" ++ Text.join ", " texts ++ ">", ?_⟩
      change (do return "<" ++ (← joined ", " (texts.map .str)) ++ ">") = _
      rw [joined_eq]
      rfl
    · exact nofun

theorem exists_renderAfter (before : Text) {o : Option Node} (h : ∀ n ∈ o, n.Shows) :
    ∃ shown, renderAfter before o = .ok shown := by
  cases o with
  | none => exact ⟨_, rfl⟩
  | some n =>
    obtain ⟨text, hn⟩ := h n rfl
    rw [renderAfter, hn]
    exact ⟨_, rfl⟩

theorem exists_renderResult {o : Option Node} (h : ∀ n ∈ o, n.Shows) :
    ∃ text, renderResult o = .ok text := by
  cases o with
  | none => exact ⟨_, rfl⟩
  | some n =>
    obtain ⟨text, hn⟩ := h n rfl
    rw [renderResult, hn]
    exact ⟨_, rfl⟩

theorem exists_grouped (g : Grouping) (texts : List Text) :
    ∃ text, grouped g (texts.map .str) = .ok text := by
  cases g <;> rw [grouped, joined_eq] <;> exact ⟨_, rfl⟩

theorem shows_group (g : Grouping) {ns : List Node} (h : ∀ n ∈ ns, n.Shows) :
    (Node.group g ns).Shows := by
  obtain ⟨texts, hns⟩ := exists_renderEach h
  obtain ⟨text, htext⟩ := exists_grouped g texts
  refine ⟨text, ?_⟩
  rw [Node.render, hns]
  change (do return Scalar.str (← grouped g (texts.map .str))) = _
  rw [htext]
  rfl

end TypeScript

open TypeScript

section
variable {From : Phrase → Prop} {sort : NodeSort} {n : Node}

theorem Formed.emits (h : Formed From sort n) : n.Emits := by
  induction h with
  | keyword h =>
    simp only [Node.keywords, List.mem_cons, List.not_mem_nil, or_false] at h
    rcases h with rfl | rfl | rfl | rfl | rfl | rfl | rfl | rfl | rfl <;> exact Node.emits_word _
  | this => exact Node.emits_this
  | literal h => exact Node.emits_literal _
  | reference hn h ih => exact Node.emits_reference _ ih
  | operator ho h ih => exact Node.emits_operator _ ih
  | access hn hi ihn ihi => exact Node.emits_access ihn ihi
  | array h ih => exact Node.emits_array ih
  | group h ih => exact Node.emits_group _ ih
  | nullable h ih =>
    refine Node.emits_group _ ?_
    simp only [List.forall_mem_cons]
    exact ⟨ih, Node.emits_word _, Node.emits_word _, nofun⟩
  | object hm hi ihm ihi => exact Node.emits_object (List.forall_mem_append.2 ⟨ihm, ihi⟩)
  | function source outline ht hp single hl hr iht ihp ihl ihr =>
    exact Node.emits_function iht (List.forall_mem_append.2 ⟨ihp, ihl⟩) ihr
  | property h ih => exact Node.emits_property _ _ _ _ (by simpa using ih)
  | index hk h ihk ih => exact Node.emits_index _ (by simpa using ihk) (by simpa using ih)
  | typeParameter hc hd ihc ihd => exact Node.emits_typeParameter _ ihc ihd
  | parameter h ih => exact Node.emits_parameter _ _ ih
  | rest h ih => exact Node.emits_rest _ ih

theorem Formed.shows (h : Formed From sort n) : n.Shows := by
  induction h with
  | keyword h =>
    simp only [Node.keywords, List.mem_cons, List.not_mem_nil, or_false] at h
    rcases h with rfl | rfl | rfl | rfl | rfl | rfl | rfl | rfl | rfl <;> exact ⟨_, rfl⟩
  | this => exact ⟨_, rfl⟩
  | literal h => exact ⟨_, rfl⟩
  | reference hn h ih =>
    obtain ⟨text, hargs⟩ := exists_renderArgs ih
    unfold Node.Shows
    rw [Node.render, hargs]
    exact ⟨_, rfl⟩
  | operator ho h ih =>
    obtain ⟨text, hn⟩ := ih
    unfold Node.Shows
    rw [Node.render, hn]
    exact ⟨_, rfl⟩
  | access hn hi ihn ihi =>
    obtain ⟨object, hn⟩ := ihn
    obtain ⟨index, hi⟩ := ihi
    unfold Node.Shows
    rw [Node.render, hn, hi]
    exact ⟨_, rfl⟩
  | array h ih =>
    obtain ⟨text, hn⟩ := ih
    unfold Node.Shows
    rw [Node.render, hn]
    exact ⟨_, rfl⟩
  | group h ih => exact shows_group _ ih
  | nullable h ih =>
    refine shows_group _ ?_
    simp only [List.forall_mem_cons]
    exact ⟨ih, ⟨_, rfl⟩, ⟨_, rfl⟩, nofun⟩
  | object hm hi ihm ihi =>
    obtain ⟨texts, hns⟩ := exists_renderEach (List.forall_mem_append.2 ⟨ihm, ihi⟩)
    refine ⟨"\x7b" ++ Text.join "; " texts ++ "\x7d", ?_⟩
    rw [Node.render, hns]
    -- What is joined are texts, so that the joining has a result.
    change (do return Scalar.str ("\x7b" ++ (← joined "; " (texts.map .str)) ++ "\x7d")) = _
    rw [joined_eq]
    rfl
  | function source outline ht hp single hl hr iht ihp ihl ihr =>
    obtain ⟨result, hresult⟩ := exists_renderResult ihr
    obtain ⟨typeParams, htypeParams⟩ := exists_renderArgs iht
    obtain ⟨params, hparams⟩ := exists_renderEach (List.forall_mem_append.2 ⟨ihp, ihl⟩)
    refine ⟨typeParams ++ "(" ++ Text.join ", " params ++ ") => " ++ result, ?_⟩
    rw [Node.render, hresult, htypeParams, hparams]
    change (do return Scalar.str (typeParams ++ "(" ++ (← joined ", " (params.map .str)) ++
      ") => " ++ result)) = _
    rw [joined_eq]
    rfl
  | @property text quoted type _ _ _ h ih =>
    obtain ⟨shown, htype⟩ := exists_renderAfter ": " (o := some type) (by simpa using ih)
    unfold Node.Shows
    rw [Node.render, htype]
    cases quoted <;> exact ⟨_, rfl⟩
  | index hk h ihk ih =>
    obtain ⟨key, hkey⟩ := ihk
    obtain ⟨type, htype⟩ := ih
    unfold Node.Shows
    rw [Node.render, renderNeeded, renderNeeded, hkey, htype]
    exact ⟨_, rfl⟩
  | typeParameter hc hd ihc ihd =>
    obtain ⟨constraint, hconstraint⟩ := exists_renderAfter " extends " ihc
    obtain ⟨default, hdefault⟩ := exists_renderAfter " = " ihd
    unfold Node.Shows
    rw [Node.render, hconstraint, hdefault]
    cases constraint <;> cases default <;> exact ⟨_, rfl⟩
  | parameter h ih =>
    obtain ⟨type, htype⟩ := exists_renderAfter ": " ih
    unfold Node.Shows
    rw [Node.render, htype]
    exact ⟨_, rfl⟩
  | rest h ih =>
    obtain ⟨type, htype⟩ := exists_renderAfter ": " ih
    unfold Node.Shows
    rw [Node.render, htype]
    exact ⟨_, rfl⟩

theorem Formed.exists_text (h : Formed From sort n) : ∃ text, n.text = .ok text := by
  obtain ⟨text, hn⟩ := h.shows
  cases n with
  | hole => nomatch hn
  | _ => exact ⟨text, by simp only [Node.text, hn]⟩

end

end Reannotate
