import Reannotate.Proofs.Ending
import Reannotate.Proofs.Kinds
import Reannotate.Proofs.Meaning

/-!
# Conversion preserves meaning

A converted type means what the type means, except that `undefined` may be missing in a slot where
values may be missing anyway (`Near`). It goes missing with a nullable type, and elements of arrays
and tuples cannot do without it; so nullable types have to keep away from those in such slots
(`sureElements`). An optional property lets a value be undefined itself, which makes up for the loss.
-/

namespace Reannotate

open Reannotate.Flow (Phrase Role)
open Reannotate.TypeScript (Node)

/-! ## Meanings up to undefined -/

/-- `n` is `m`, but for `undefined` if something may be lost. -/
structure Near (lossy : Bool) (m n : Set Value) : Prop where
  sound : n ⊆ m
  complete : ∀ v ∈ m, v ∈ n ∨ (lossy = true ∧ v = .undefined)

section
variable {lossy : Bool} {m n : Set Value} {ms ns : List (Set Value)}

theorem near_refl (lossy : Bool) (m : Set Value) : Near lossy m m :=
  ⟨subset_rfl, fun _ hv => .inl hv⟩

theorem Near.eq (h : Near false m n) : n = m :=
  Set.Subset.antisymm h.sound fun v hv => (h.complete v hv).resolve_right (by simp)

theorem Near.mono {lossy' : Bool} (h : Near lossy m n) (hl : lossy = true → lossy' = true) :
    Near lossy' m n :=
  ⟨h.sound, fun v hv => (h.complete v hv).imp_right (And.imp_left hl)⟩

theorem eq_of_forall₂_near (h : List.Forall₂ (Near false) ms ns) : ns = ms := by
  induction h with
  | nil => rfl
  | cons h _ ih => rw [h.eq, ih]

theorem near_union (h : List.Forall₂ (Near lossy) ms ns) :
    Near lossy (Grouping.union.combine ms) (Grouping.union.combine ns) := by
  induction h with
  | nil => exact near_refl _ _
  | cons h _ ih =>
    constructor
    · intro v ⟨n, hn, hv⟩
      rcases List.mem_cons.1 hn with rfl | hn
      · exact ⟨_, List.mem_cons_self, h.sound hv⟩
      · obtain ⟨m, hm, hv⟩ := ih.sound ⟨n, hn, hv⟩
        exact ⟨m, List.mem_cons_of_mem _ hm, hv⟩
    · intro v ⟨m, hm, hv⟩
      rcases List.mem_cons.1 hm with rfl | hm
      · exact (h.complete v hv).imp_left fun hv => ⟨_, List.mem_cons_self, hv⟩
      · refine (ih.complete v ⟨m, hm, hv⟩).imp_left ?_
        intro ⟨n, hn, hv⟩
        exact ⟨n, List.mem_cons_of_mem _ hn, hv⟩

theorem near_intersection (h : List.Forall₂ (Near lossy) ms ns) :
    Near lossy (Grouping.intersection.combine ms) (Grouping.intersection.combine ns) := by
  induction h with
  | nil => exact near_refl _ _
  | cons h _ ih =>
    constructor
    · intro v hv
      have ⟨hn, hns⟩ := List.forall_mem_cons.1 hv
      exact List.forall_mem_cons.2 ⟨h.sound hn, ih.sound hns⟩
    · intro v hv
      have ⟨hm, hms⟩ := List.forall_mem_cons.1 hv
      rcases h.complete v hm with hn | hl
      · exact (ih.complete v hms).imp_left fun hns => List.forall_mem_cons.2 ⟨hn, hns⟩
      · exact .inr hl

theorem near_nullable {absent : Bool} (h : Near (absent && lossy) m n) :
    Near absent ({.undefined, .null} ∪ m)
      (Grouping.union.combine (if absent then [n, {.null}] else [n, {.undefined}, {.null}])) := by
  cases absent with
  | true =>
    constructor
    · intro v ⟨k, hk, hv⟩
      rcases List.mem_pair.1 hk with rfl | rfl
      · exact .inr (h.sound hv)
      · exact .inl (.inr hv)
    · rintro v ((rfl | rfl) | hv)
      · exact .inr ⟨rfl, rfl⟩
      · exact .inl ⟨{.null}, by simp, rfl⟩
      · exact (h.complete v hv).imp (fun hv => ⟨n, by simp, hv⟩) fun hl => ⟨rfl, hl.2⟩
  | false =>
    rw [h.eq]
    suffices Grouping.union.combine [m, {.undefined}, {.null}] = {.undefined, .null} ∪ m by
      rw [if_neg Bool.false_ne_true, this]
      exact near_refl _ _
    ext v
    simp [Grouping.combine, or_comm, or_assoc]

end

theorem FieldType.holds_iff {key : Text} {optional : Bool} {m n : Set Value} (h : Near optional m n)
    (fields : List (Text × Value)) :
    FieldType.Holds ⟨key, optional, n⟩ fields ↔ FieldType.Holds ⟨key, optional, m⟩ fields := by
  unfold FieldType.Holds
  cases fields.lookup key with
  | none => exact Iff.rfl
  | some v =>
    refine ⟨Or.imp_left fun hv => h.sound hv, ?_⟩
    intro h
    rcases h with hv | hu
    · exact h.complete v hv
    · exact .inr hu

theorem records_congr {fs gs : List FieldType}
    (h : List.Forall₂ (fun f g => ∀ fields, f.Holds fields ↔ g.Holds fields) fs gs) :
    Value.records fs = Value.records gs := by
  have holds : ∀ fields, (∀ f ∈ fs, f.Holds fields) ↔ ∀ g ∈ gs, g.Holds fields := fun fields => by
    induction h with
    | nil => exact Iff.rfl
    | cons h _ ih => rw [List.forall_mem_cons, List.forall_mem_cons, h, ih]
  ext v
  simp only [Value.records, holds]

/-! ## Where nullable types stand -/

namespace Flow

mutual

def Phrase.holdsNullable : Phrase → Bool
  | .nullable _ _ => true
  | .array _ e => e.holdsNullable
  | .group _ _ ts => anyHoldsNullable ts
  | _ => false

def anyHoldsNullable : List Phrase → Bool
  | [] => false
  | p :: rest => p.holdsNullable || anyHoldsNullable rest

end

mutual

/-- In slots where a value may be missing, no nullable type is reached from the elements of an array
or a tuple; `absent` tells whether the type is in such a slot. -/
def Phrase.sureElements (absent : Bool) : Phrase → Bool
  | .array _ e => !(absent && e.holdsNullable) && e.sureElements absent
  | .group _ .tuple ts => !(absent && anyHoldsNullable ts) && allSureElements absent ts
  | .group _ .union ts | .group _ .intersection ts => allSureElements absent ts
  | .nullable _ t => t.sureElements absent
  | .object _ ps _ _ _ => sureProperties ps
  | _ => true

def allSureElements (absent : Bool) : List Phrase → Bool
  | [] => true
  | p :: rest => p.sureElements absent && allSureElements absent rest

def sureProperties : List Phrase → Bool
  | [] => true
  | .property _ _ v o _ _ :: rest => v.sureElements o && sureProperties rest
  | _ :: rest => sureProperties rest

end

end Flow

/-! ## Conversion -/

namespace Converting

theorem meaning?_word (name : String) :
    (Node.word name).meaning? = TypeScript.keywordMeaning? (.str name) := rfl

theorem gives_primitive {w : Flow.Primitive} {m : Set Value} (hm : w.meaning? = some m) :
    Gives (primitive w) fun node => node.meaning? = some m := by
  cases w with
  | «exists» => nomatch hm
  | this => nomatch hm
  | _ =>
    refine gives_pure ?_
    rw [← hm]
    simp [Node.any, Node.boolean, Node.number, Node.string, Node.void, Node.unknown, Node.never,
      Node.null, meaning?_word, TypeScript.keywordMeaning?, Text.string?_ofString,
      Flow.Primitive.meaning?]

theorem exists_literal {kind : Flow.LiteralKind} {j : Json} {v : Value} (h : kind.value? j = some v) :
    ∃ s, literal kind j = .ok (.literal s) ∧ s.value? = some v := by
  unfold Flow.LiteralKind.value? at h
  split at h
  · exact ⟨_, rfl, h⟩
  · exact ⟨_, rfl, h⟩
  · exact ⟨_, rfl, h⟩
  · exact ⟨_, rfl, h⟩
  · nomatch h

theorem meaning?_nullable {node : Node} {n : Set Value} (h : node.meaning? = some n)
    (role : Role Bool) :
    (nullable node role).meaning? = some (Grouping.union.combine
      (if role.allowsAbsence then [n, {.null}] else [n, {.undefined}, {.null}])) := by
  unfold nullable
  have hnull := meaning?_word "null"
  have hundefined := meaning?_word "undefined"
  simp only [TypeScript.keywordMeaning?, Text.string?_ofString] at hnull hundefined
  cases role.allowsAbsence <;>
    simp [Node.union, Node.meaning?, TypeScript.meanings?, Node.null, Node.undefined, h, hnull, hundefined]

variable {names : Names}

mutual

theorem gives_convert {p : Phrase} {role : Role Bool} {m : Set Value} (hp : p.WellKinded)
    (hm : p.meaning? = some m) (hs : p.sureElements role.allowsAbsence = true) :
    Gives (convert names p role) fun node => ∃ n, node.meaning? = some n ∧
      Near (role.allowsAbsence && p.holdsNullable) m n := by
  match p with
  | .primitive s w =>
    obtain ⟨node, hnode, hn⟩ := gives_primitive hm
    exact ⟨node, hnode, m, hn, near_refl _ _⟩
  | .literal s k v =>
    obtain ⟨value, hv, ⟨⟩⟩ := Option.bind_eq_some_iff.1 hm
    obtain ⟨out, hout, hn⟩ := exists_literal hv
    refine gives_lift hout ⟨{value}, ?_, near_refl _ _⟩
    simp [Node.meaning?, hn]
  | .array s e =>
    obtain ⟨m, he', ⟨⟩⟩ := Option.bind_eq_some_iff.1 hm
    have ⟨hsure, hs⟩ := Bool.and_eq_true_iff.1 hs
    have he := (Phrase.everywhere_array.1 hp).2
    refine (gives_convert he he' hs).bind fun node ⟨n, hn, near⟩ => gives_pure ?_
    -- No nullable type is reached from an element where it may be lost, so the meanings are equal.
    rw [(Bool.not_eq_true' _).mp hsure] at near
    refine ⟨Value.arrays m, ?_, near_refl _ _⟩
    simp [Node.meaning?, hn, near.eq]
  | .group s g ts =>
    obtain ⟨ms, hms, ⟨⟩⟩ := Option.bind_eq_some_iff.1 hm
    have hts := (Phrase.everywhere_group.1 hp).2
    have hall : Flow.allSureElements role.allowsAbsence ts = true := by
      cases g with
      | tuple => exact (Bool.and_eq_true_iff.1 hs).2
      | union => exact hs
      | intersection => exact hs
    refine (gives_convertEach hts hms hall).bind fun nodes ⟨ns, hns, near⟩ => gives_pure ?_
    refine ⟨g.combine ns, by simp [Node.meaning?, hns], ?_⟩
    cases g with
    | tuple =>
      rw [(Bool.not_eq_true' _).mp (Bool.and_eq_true_iff.1 hs).1] at near
      rw [eq_of_forall₂_near near]
      exact near_refl _ _
    | union => exact near_union near
    | intersection => exact near_intersection near
  | .nullable s t =>
    obtain ⟨m, ht', ⟨⟩⟩ := Option.bind_eq_some_iff.1 hm
    have ht := (Phrase.everywhere_nullable.1 hp).2
    refine (gives_convert ht ht' hs).bind fun node ⟨n, hn, near⟩ => gives_pure ?_
    refine ⟨_, meaning?_nullable hn role, (near_nullable near).mono fun h => ?_⟩
    rw [h]
    rfl
  | .object s ps [] [] false =>
    obtain ⟨fs, hfs, ⟨⟩⟩ := Option.bind_eq_some_iff.1 hm
    have hps := (Phrase.everywhere_object.1 hp).2.1
    refine (gives_convertMembers hps hfs hs).bind fun members ⟨hspreads, gs, hgs, same⟩ => ?_
    refine gives_pure ⟨Value.records gs, ?_, ?_⟩
    · simp [Members.assemble, hspreads, Node.meaning?, hgs]
    · rw [records_congr same]
      exact near_refl _ _
  | .object s ps (i :: is) cs x => nomatch hm
  | .object s ps [] (c :: cs) x => nomatch hm
  | .object s ps [] [] true => nomatch hm
  | .typeName n => nomatch hm
  | .typeof s a => nomatch hm
  | .generic s id as => nomatch hm
  | .property s k v o w c => nomatch hm
  | .spread s a => nomatch hm
  | .indexer s i k v w => nomatch hm
  | .callProperty s v st => nomatch hm
  | .typeParameter s n b d w => nomatch hm
  | .parameter s f n a o => nomatch hm
  | .callable s form ps r rest ts => nomatch hm

theorem gives_convertEach {ps : List Phrase} {role : Role Bool} {ms : List (Set Value)}
    (hps : ∀ p ∈ ps, p.WellKinded) (hms : Flow.meanings? ps = some ms)
    (hs : Flow.allSureElements role.allowsAbsence ps = true) :
    Gives (convertEach names ps role) fun nodes => ∃ ns, TypeScript.meanings? nodes = some ns ∧
      List.Forall₂ (Near (role.allowsAbsence && Flow.anyHoldsNullable ps)) ms ns := by
  match ps with
  | [] =>
    cases hms
    exact gives_pure ⟨[], rfl, .nil⟩
  | p :: rest =>
    obtain ⟨m, hm, hms⟩ := Option.bind_eq_some_iff.1 hms
    obtain ⟨ms, hms', ⟨⟩⟩ := Option.bind_eq_some_iff.1 hms
    have ⟨hsp, hsrest⟩ := Bool.and_eq_true_iff.1 hs
    have ⟨hp, hrest⟩ := List.forall_mem_cons.1 hps
    refine (gives_convert hp hm hsp).bind fun node ⟨n, hn, near⟩ => ?_
    refine (gives_convertEach hrest hms' hsrest).bind fun nodes ⟨ns, hns, nears⟩ => gives_pure ?_
    refine ⟨n :: ns, by simp [TypeScript.meanings?, hn, hns], .cons (near.mono ?_) ?_⟩
    · simp +contextual [Flow.anyHoldsNullable]
    · exact nears.imp fun _ _ near => near.mono (by simp +contextual [Flow.anyHoldsNullable])

theorem gives_convertMembers {ps : List Phrase} {fs : List FieldType}
    (hps : ∀ p ∈ ps, p.WellKinded) (hfs : Flow.fieldTypes? ps = some fs)
    (hs : Flow.sureProperties ps = true) :
    Gives (convertMembers names ps) fun members => members.spreads = [] ∧
      ∃ gs, TypeScript.fieldTypes? members.members = some gs ∧
        List.Forall₂ (fun f g => ∀ fields, f.Holds fields ↔ g.Holds fields) fs gs := by
  match ps with
  | [] =>
    cases hfs
    exact gives_pure ⟨rfl, [], rfl, .nil⟩
  | .property s k v o w c :: rest =>
    obtain ⟨key, hkey, hfs⟩ := Option.bind_eq_some_iff.1 hfs
    obtain ⟨m, hm, hfs⟩ := Option.bind_eq_some_iff.1 hfs
    obtain ⟨fs, hfs', ⟨⟩⟩ := Option.bind_eq_some_iff.1 hfs
    have ⟨hsv, hsrest⟩ := Bool.and_eq_true_iff.1 hs
    have ⟨hp, hrest⟩ := List.forall_mem_cons.1 hps
    have hv := (Phrase.everywhere_property.1 hp).2
    obtain ⟨text, htext⟩ := hp.here.1
    rw [htext] at hkey
    cases hkey
    refine Gives.bind (gives_convert hv hm hsv) fun type ⟨n, hn, near⟩ => ?_
    obtain ⟨out, hout⟩ := exists_propertySignature htext hp.here.2 type o w
    rw [hout]
    refine (gives_convertMembers hrest hfs' hsrest).bind
      fun others ⟨hspreads, gs, hgs, same⟩ => gives_pure ?_
    refine ⟨hspreads, ⟨key, o, n⟩ :: gs, ?_, .cons ?_ same⟩
    · simp [TypeScript.fieldTypes?, hn, hgs]
    · have near' : Near o m n := near.mono fun h => (Bool.and_eq_true_iff.1 h).1
      exact fun fields => (FieldType.holds_iff near' fields).symm
  | .typeName n :: rest => nomatch hfs
  | .primitive s w :: rest => nomatch hfs
  | .literal s k v :: rest => nomatch hfs
  | .array s e :: rest => nomatch hfs
  | .group s g ts :: rest => nomatch hfs
  | .nullable s t :: rest => nomatch hfs
  | .typeof s a :: rest => nomatch hfs
  | .generic s id as :: rest => nomatch hfs
  | .spread s a :: rest => nomatch hfs
  | .indexer s i k v w :: rest => nomatch hfs
  | .callProperty s v st :: rest => nomatch hfs
  | .object s ps is cs x :: rest => nomatch hfs
  | .typeParameter s n b d w :: rest => nomatch hfs
  | .parameter s f n a o :: rest => nomatch hfs
  | .callable s form ps r rest ts :: others => nomatch hfs

end

/-- The node of a type means what the type means where no value may be missing, and elsewhere the
same up to `undefined`. -/
theorem convert_preserves (names : Names) (role : Role Bool) {p : Phrase} {m : Set Value}
    (hp : p.WellKinded) (hm : p.meaning? = some m) (hs : p.sureElements role.allowsAbsence = true) :
    ∃ node n, (∀ log, (convert names p role).outcome log = (.ok node, log)) ∧
      node.meaning? = some n ∧ (role.allowsAbsence = false → n = m) ∧
      n ⊆ m ∧ m ⊆ insert Value.undefined n := by
  obtain ⟨node, hnode, n, hn, near⟩ := @gives_convert names p role m hp hm hs
  refine ⟨node, n, hnode, hn, fun h => ?_, near.sound, fun v hv => ?_⟩
  · rw [h] at near
    exact near.eq
  · rcases near.complete v hv with hv | ⟨_, rfl⟩
    · exact Set.mem_insert_of_mem _ hv
    · exact Set.mem_insert _ _

end Converting

/-- `?{ a?: ?number, b: (?string)[] }`. -/
def optionalRecord : Phrase :=
  .nullable none (.object none [
    .property none ⟨.str "a", false⟩ (.nullable none (.primitive none .number)) true none ⟨[], [], []⟩,
    .property none ⟨.str "b", false⟩ (.array none (.nullable none (.primitive none .string))) false
      none ⟨[], [], []⟩] [] [] false)

theorem convert_preserves_optionalRecord :
    optionalRecord.WellKinded ∧ optionalRecord.meaning? = some ({.undefined, .null} ∪ Value.records [
        ⟨"a", true, {.undefined, .null} ∪ Value.numbers⟩,
        ⟨"b", false, Value.arrays ({.undefined, .null} ∪ Value.texts)⟩]) ∧
      optionalRecord.sureElements (Role.allowsAbsence (.property true)) = true ∧
      ∃ node n, (Converting.convert .usual optionalRecord (.property true)).outcome .empty =
        (.ok node, .empty) ∧ node.meaning? = some n ∧ Value.null ∈ n := by
  have kinded : optionalRecord.WellKinded := by
    simp [optionalRecord, Phrase.Fits, Json.Textual, Flow.Comments.Textual]
  refine ⟨kinded, rfl, rfl, ?_⟩
  obtain ⟨node, n, hnode, hn, _, _, complete⟩ :=
    Converting.convert_preserves .usual (.property true) kinded rfl rfl
  exact ⟨node, n, hnode .empty, hn, (complete (.inl (.inr rfl))).resolve_left Value.noConfusion⟩

end Reannotate
