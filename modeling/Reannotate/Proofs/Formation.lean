import Reannotate.Proofs.Course
import Reannotate.Proofs.Grammar
import Reannotate.Proofs.Roles

/-!
# What conversions come to

The conversion of a well-kinded tree follows the course of the tree and, unless it is refused, comes
to a formed node, whose signatures are outlined by phrases of the tree (`follows_convert`). So its
result can always be written and shown (`conversions_formed`).
-/

namespace Reannotate

open Reannotate.Flow (Phrase TypeName Role)
open Reannotate.TypeScript (Node EntityName)

/-- Every type name has an answer, and so has every list of texts in use. -/
structure Names.Answers (names : Names) : Prop where
  resolve : ∀ name, ∃ resolved, names.resolve name = .ok resolved
  fresh : ∀ earlier (used : List Json), (∀ j ∈ used, j.Textual) →
    ∃ name, names.fresh earlier used = .ok name

theorem Names.usual_answers : Names.usual.Answers where
  resolve name := ⟨_, rfl⟩
  fresh earlier used h := by
    have scalars : ∀ j ∈ used, Yields j.toScalar (fun _ => True) fun _ => False := by
      intro j hj
      obtain ⟨s, rfl⟩ := h j hj
      trivial
    have all := Yields.mapM scalars
    change ∃ name, (do return unusedName (← used.mapM Json.toScalar)) = .ok name
    cases hx : used.mapM Json.toScalar with
    | ok names => exact ⟨_, rfl⟩
    | error e =>
      rw [hx] at all
      exact all.elim

/-- Everything in the tree is of the right kind, and `From` holds of it. -/
abbrev Flow.Phrase.Kinded (From : Phrase → Prop) (p : Phrase) : Prop :=
  p.Everywhere fun q => q.Fits ∧ From q

namespace Converting

section
variable {From : Phrase → Prop}

/-! ## Steps -/

theorem formed_word {name : String} (h : Node.word name ∈ Node.keywords) (hu : name ≠ "undefined") :
    Formed From .type (.word name) := by
  refine .keyword h fun same => hu ?_
  simpa [Node.word, Node.undefined, Text.ofString_inj] using same

theorem follows_primitive (w : Flow.Primitive) (s : Option Flow.Span) (names : Names) :
    Follows (primitive w) ((Phrase.primitive s w).course names) (Formed From .type) := by
  cases w with
  | «exists» =>
    have warned : Follows (warn .existential) (.warns .existential) fun _ => True :=
      follows_warn trivial
    exact warned.then_pure fun _ _ => formed_word (by simp [Node.keywords, Node.any]) (by decide)
  | this => exact follows_pure .this
  | any => exact follows_pure (formed_word (by simp [Node.keywords, Node.any]) (by decide))
  | boolean => exact follows_pure (formed_word (by simp [Node.keywords, Node.boolean]) (by decide))
  | number => exact follows_pure (formed_word (by simp [Node.keywords, Node.number]) (by decide))
  | string => exact follows_pure (formed_word (by simp [Node.keywords, Node.string]) (by decide))
  | void => exact follows_pure (formed_word (by simp [Node.keywords, Node.void]) (by decide))
  | mixed => exact follows_pure (formed_word (by simp [Node.keywords, Node.unknown]) (by decide))
  | empty => exact follows_pure (formed_word (by simp [Node.keywords, Node.never]) (by decide))
  | null => exact follows_pure (formed_word (by simp [Node.keywords, Node.null]) (by decide))

theorem yields_literal_formed {k : Flow.LiteralKind} {v : Json} (h : v.Literal) :
    Yields (literal k v) (Formed From .type) fun _ => False := by
  obtain ⟨s, rfl, hs⟩ := h
  cases k with
  | boolean => exact .literal nofun
  | _ => exact .literal hs

theorem formed_nullable {n : Node} (h : Formed From .type n) (role : Role Bool) :
    Formed From .type (nullable n role) := by
  have null : Formed From .type .null :=
    formed_word (by simp [Node.keywords, Node.null]) (by decide)
  unfold nullable
  split
  · refine .group ?_
    simp only [List.forall_mem_cons]
    exact ⟨h, null, List.forall_mem_nil _⟩
  · exact .nullable h

theorem formed_named (name : Text) {args : Option (List Node)}
    (h : ∀ ns ∈ args, ∀ n ∈ ns, Formed From .type n) : Formed From .type (.named name args) :=
  .reference trivial h

theorem formed_anyObject : Formed From .type Utility.anyObject := by
  have string : Formed From .type .string :=
    formed_word (by simp [Node.keywords, Node.string]) (by decide)
  have any : Formed From .type .any := formed_word (by simp [Node.keywords, Node.any]) (by decide)
  exact @Formed.object _ [] [_] (List.forall_mem_nil _)
    (List.forall_mem_singleton.2 (.index string any))

theorem formed_difference {x y : Node} (hx : Formed From .type x) (hy : Formed From .type y) :
    Formed From .type (Utility.difference x y) := by
  have keyof : ∀ {n}, Formed From .type n → Formed From .type (.operator .keyof n) :=
    fun h => .operator (.inl rfl) h
  have exclude : Formed From .type
      (.named "Exclude" (some [.operator .keyof x, .operator .keyof y])) := by
    refine formed_named _ ?_
    simpa using ⟨keyof hx, keyof hy⟩
  refine formed_named _ ?_
  simpa using ⟨hx, exclude⟩

/-! ## References -/

section
variable {args : Option (List Node)} (h : ∀ ns ∈ args, ∀ n ∈ ns, Formed From .type n)
include h

theorem formed_getD : ∀ n ∈ args.getD [], Formed From .type n := by
  cases args with
  | none => simp
  | some ns => exact h ns rfl

theorem follows_form {u : Utility} {n : Nat} (hu : u.arity = some n) (subject : Flow.Part)
    (hn : (args.getD []).length = n) :
    Follows (u.apply subject args) (u.course n) (Formed From .type) := by
  have each := formed_getD h
  have one : n = 1 → ∃ x, args.getD [] = [x] ∧ Formed From .type x := by
    rintro rfl
    obtain ⟨x, hx⟩ := List.length_eq_one_iff.1 hn
    rw [hx, List.forall_mem_singleton] at each
    exact ⟨x, hx, each⟩
  have two : n = 2 → ∃ x y, args.getD [] = [x, y] ∧ Formed From .type x ∧ Formed From .type y := by
    rintro rfl
    obtain ⟨x, y, hxy⟩ := List.length_eq_two.1 hn
    rw [hxy, List.forall_mem_cons, List.forall_mem_singleton] at each
    exact ⟨x, y, hxy, each⟩
  unfold Utility.apply
  cases u with
  | fixMe | object | rest => cases hu
  | diff =>
    cases hu
    obtain ⟨x, y, hxy, hx, hy⟩ := two rfl
    rw [hxy]
    exact follows_pure (formed_difference hx hy)
  | propertyType | elementType =>
    cases hu
    obtain ⟨x, y, hxy, hx, hy⟩ := two rfl
    rw [hxy]
    exact follows_pure (.access hx hy)
  | keys =>
    cases hu
    obtain ⟨x, hx, formed⟩ := one rfl
    rw [hx]
    exact follows_pure (.operator (.inl rfl) formed)
  | values =>
    cases hu
    obtain ⟨x, hx, formed⟩ := one rfl
    rw [hx]
    exact follows_pure (.access formed (.operator (.inl rfl) formed))
  | classOf =>
    cases hu
    obtain ⟨x, hx, formed⟩ := one rfl
    rw [hx]
    exact follows_pure (.operator (.inr rfl) formed)
  | exact =>
    cases hu
    obtain ⟨x, hx, formed⟩ := one rfl
    rw [hx]
    have warned : Follows (warn .exactObject) (.warns .exactObject) fun _ => True :=
      follows_warn trivial
    exact warned.then_pure fun _ _ => formed
  | readOnly | readOnlyArray | shape =>
    cases hu
    obtain ⟨x, hx, formed⟩ := one rfl
    rw [hx]
    exact follows_pure (formed_named _ (by simpa using formed))

theorem follows_apply (u : Utility) (subject : Flow.Part) :
    Follows (u.apply subject args) (u.course (args.getD []).length) (Formed From .type) := by
  cases ha : u.arity with
  | some n =>
    by_cases hn : (args.getD []).length = n
    · rw [hn]
      exact follows_form h ha subject hn
    · have refused : u.accepts (args.getD []).length = false := by
        simp [Utility.accepts, ha, Ne.symm hn]
      rw [apply_refuses ha subject hn, Utility.course, refused]
      exact follows_refused
  | none =>
    cases u with
    | rest => exact follows_refused
    | fixMe => exact follows_pure (formed_named _ h)
    | object => exact follows_pure formed_anyObject
    | _ => cases ha

theorem follows_referTo (p : Phrase) (name : Text) :
    Follows (referTo p name args) (if (dotted name).length ≤ 2 then .quiet else .stop)
      (Formed From .type) := by
  unfold referTo
  split
  case h_1 left right hd =>
    rw [hd]
    exact follows_pure (.reference ⟨⟨_, rfl⟩, _, rfl⟩ h)
  case h_2 hd | h_3 hd =>
    rw [hd]
    exact follows_pure (formed_named _ h)
  case h_4 two none one =>
    have long : ¬(dotted name).length ≤ 2 := by
      intro short
      match hd : dotted name with
      | [] => exact none hd
      | [a] => exact one a hd
      | [a, b] => exact two a b hd
      | a :: b :: c :: rest => simp [hd] at short
    rw [if_neg long]
    exact follows_refused

theorem follows_reference {names : Names} (answers : names.Answers) {id : TypeName}
    (hid : (Phrase.typeName id).Kinded From) (p : Phrase) :
    Follows (reference names p id args) (id.course names (args.getD []).length)
      (Formed From .type) := by
  unfold reference
  split
  case h_1 sp name =>
    cases hu : Utility.ofName? name with
    | some u =>
      simp only [Flow.TypeName.course, hu]
      exact follows_apply h u _
    | none =>
      obtain ⟨resolved, hr⟩ := answers.resolve name
      simp only [Flow.TypeName.course, hu, Names.places, hr, decide_eq_true_eq]
      exact follows_referTo h p resolved
  case h_2 => exact follows_pure (.reference ⟨⟨_, rfl⟩, _, rfl⟩ h)
  case h_3 => exact absurd hid.here.1 (Nat.succ_ne_zero _)
  case h_4 => exact follows_refused

end

/-! ## Parts -/

section
variable {names : Names} (answers : names.Answers)
include answers

theorem follows_nameFor {name : Json} (hname : name = .null ∨ name.Textual) {used : List Json}
    (hused : ∀ j ∈ used, j.Textual) :
    Follows (nameFor names name used) .quiet fun r => r.1.Textual ∧ ∀ j ∈ r.2, j.Textual := by
  rcases hname with rfl | ⟨s, rfl⟩
  · have asked : Follows (askName names used) .quiet fun _ => True := fun log => by
      obtain ⟨fresh, hfresh⟩ := answers.fresh log.asked used hused
      rw [outcome_askName, hfresh]
      exact ⟨(List.append_nil _).symm, rfl, trivial⟩
    refine asked.quiet_bind fun fresh _ => follows_pure ⟨⟨_, rfl⟩, ?_⟩
    exact List.forall_mem_append.2 ⟨hused, List.forall_mem_singleton.2 ⟨_, rfl⟩⟩
  · exact follows_pure ⟨⟨s, rfl⟩, hused⟩

end

theorem follows_namesInUse {ps : List Phrase} (hps : ∀ p ∈ ps, p.isParameter = true ∧ p.Fits) :
    Follows (liftM (namesInUse ps)) .quiet fun used => ∀ j ∈ used, j.Textual :=
  follows_lift ((@yields_namesInUse (fun _ => False) ps hps).mono (fun _ h => h)
    fun _ ⟨_, _, h⟩ => h)

theorem follows_refuseCalls (cs : List Phrase) :
    Follows (refuseCalls cs) (if cs.isEmpty then .quiet else .stop) fun _ => True := by
  cases cs with
  | nil => exact follows_pure trivial
  | cons c cs => exact follows_refused

theorem formed_assemble {m : Members} {indexers : List Node}
    (hm : ∀ n ∈ m.members, Formed From .property n) (hs : ∀ n ∈ m.spreads, Formed From .type n)
    (hi : ∀ n ∈ indexers, Formed From .index n) : Formed From .type (m.assemble indexers) := by
  have literal : Formed From .type (.object (m.members ++ indexers)) := .object hm hi
  unfold Members.assemble
  split
  · exact literal
  · exact .group (List.forall_mem_cons.2 ⟨literal, hs⟩)

theorem follows_object {names : Names} {s : Option Flow.Span} {ps is cs : List Phrase} {x : Bool}
    {role : Role Bool}
    (members : Follows (convertMembers names ps) (Flow.courseParts names Phrase.isMember ps)
      fun m => (∀ n ∈ m.members, Formed From .property n) ∧ ∀ n ∈ m.spreads, Formed From .type n)
    (indexers : Follows (convertIndexers names is) (Flow.courseParts names Phrase.isIndexer is)
      fun ns => ∀ n ∈ ns, Formed From .index n) :
    Follows (convert names (.object s ps is cs x) role)
      ((Phrase.object s ps is cs x).course names) (Formed From .type) := by
  have parts : Follows (convertParts names ps is cs)
      ((Flow.courseParts names Phrase.isMember ps).andThen
        ((Flow.courseParts names Phrase.isIndexer is).andThen
          (if cs.isEmpty then .quiet else .stop))) (Formed From .type) :=
    members.bind fun _ hm => indexers.bind fun _ hi =>
      (follows_refuseCalls cs).then_pure fun _ _ => formed_assemble hm.1 hm.2 hi
  rw [convert_object]
  cases x with
  | true =>
    have warned : Follows (warn .exactObject) (.warns .exactObject) fun _ => True :=
      follows_warn trivial
    exact warned.bind fun _ _ => parts
  | false => exact parts

theorem follows_signature {names : Names} {s : Option Flow.Span} {form : Flow.CallableForm}
    {ps : List Phrase} {r rest : Option Phrase} {ts : Option (List Phrase)} {roles : List (Role Bool)}
    {result : Role Bool} (source : From (.callable s form ps r rest ts))
    (inUse : ∀ p ∈ ps, p.isParameter = true ∧ p.Fits)
    (typeParams : Follows (convertTypeParams names ts) (Flow.courseTypeParams names ts) fun o =>
      (∀ ns ∈ o, ∀ n ∈ ns, Formed From .typeParameter n) ∧
        o.map (List.map Node.given) = ts.map (List.map Phrase.given))
    (params : ∀ used : List Json, (∀ j ∈ used, j.Textual) →
      Follows (convertParams names ps roles used) (Flow.courseParts names Phrase.isParameter ps)
        fun ns => (∀ n ∈ ns, Formed From .parameter n) ∧ ns.map Node.given = ps.map Phrase.given)
    (last : Follows (convertRest names rest) (Flow.courseRest names rest) fun ns =>
      ns.length ≤ 1 ∧ (∀ n ∈ ns, Formed From .rest n) ∧
        ns.map Node.given = (rest.toList.filter Phrase.named).map Phrase.given)
    (answer : Follows (convertMaybe names r result) (Flow.courseMaybe names r) fun o =>
      (∀ n ∈ o, Formed From .type n) ∧ o.isSome = r.isSome) :
    Follows (do
      let typeParams ← convertTypeParams names ts
      let used ← namesInUse ps
      let params ← convertParams names ps roles used
      let last ← convertRest names rest
      let result ← convertMaybe names r result
      return .function typeParams (params ++ last) result)
      ((Flow.courseTypeParams names ts).andThen <|
        (Flow.courseParts names Phrase.isParameter ps).andThen <|
          (Flow.courseRest names rest).andThen (Flow.courseMaybe names r)) (Formed From .type) := by
  refine typeParams.bind fun typeParams ⟨ht, htg⟩ => ?_
  refine (follows_namesInUse inUse).quiet_bind fun used hused => ?_
  refine (params used hused).bind fun params ⟨hp, hpg⟩ => ?_
  refine last.bind fun last ⟨single, hl, hlg⟩ => ?_
  refine answer.then_pure fun result ⟨hr, hrg⟩ => ?_
  refine .function source ⟨s, form, ps, r, rest, ts, rfl, htg, ?_, hrg⟩ ht hp single hl hr
  rw [List.map_append, List.map_append, hpg, hlg]

/-! ## Trees -/

section
variable {names : Names}

mutual

theorem follows_convert (answers : names.Answers) {p : Phrase} {role : Role Bool}
    (hp : p.Kinded From) :
    Follows (convert names p role) (p.course names) (Formed From .type) := by
  match p with
  | .primitive s w => exact follows_primitive w s names
  | .literal s k v => exact follows_lift (yields_literal_formed hp.here.1)
  | .array s e =>
    have he := (Phrase.everywhere_array.1 hp).2
    exact (follows_convert answers he).then_pure fun _ h => .array h
  | .group s g ts =>
    have hts := (Phrase.everywhere_group.1 hp).2
    exact (follows_each answers hts).then_pure fun _ h => .group h.1
  | .nullable s q =>
    have hq := (Phrase.everywhere_nullable.1 hp).2
    exact (follows_convert answers hq).then_pure fun _ h => formed_nullable h role
  | .typeof s a =>
    have ha := (Phrase.everywhere_typeof.1 hp).2
    exact (follows_convert answers ha).then_pure fun _ h => .operator (.inr rfl) h
  | .generic s id none =>
    have hid := (Phrase.everywhere_generic.1 hp).2.1
    have empty : ∀ ns ∈ (none : Option (List Node)), ∀ n ∈ ns, Formed From .type n := nofun
    exact follows_reference empty answers hid _
  | .generic s id (some as) =>
    have ⟨hid, has⟩ := (Phrase.everywhere_generic.1 hp).2
    have args : Follows (convertArgs names (some as)) (Flow.courseEach names as) fun args =>
        (∀ ns ∈ args, ∀ n ∈ ns, Formed From .type n) ∧ (args.getD []).length = as.length := by
      refine (follows_each answers (has as rfl)).then_pure fun ns ⟨h, hlen⟩ => ⟨?_, hlen⟩
      intro _ same
      cases same
      exact h
    -- The course counts the arguments of the tree, the reference those converted.
    refine args.bind fun args ⟨h, hlen⟩ => ?_
    rw [← hlen]
    exact follows_reference h answers hid _
  | .object s ps is cs x =>
    have ⟨hps, his, _⟩ := (Phrase.everywhere_object.1 hp).2
    exact follows_object (follows_members answers hps) (follows_indexers answers his hp.here.1)
  | .callable s .ofType ps r rest ts =>
    have ⟨hps, hr, hrest, hts⟩ := (Phrase.everywhere_callable.1 hp).2
    have ⟨hpk, hrk, htk⟩ := hp.here.1
    refine follows_signature hp.here.2 (fun p h => ⟨hpk p h, (hps p h).here.1⟩)
      (follows_typeParams answers hts htk) (fun used hused => ?_)
      (follows_rest answers hrest hrk) (follows_maybe answers hr)
    exact follows_params answers hps hpk (by simp) hused
  | .callable s (.declared n) ps r rest ts => exact follows_refused
  | .typeName n => exact follows_refused
  | .property s k v o w c => exact follows_refused
  | .spread s a => exact follows_refused
  | .indexer s i k v w => exact follows_refused
  | .callProperty s v st => exact follows_refused
  | .typeParameter s n b d w => exact follows_refused
  | .parameter s f n a o => exact follows_refused

theorem follows_each (answers : names.Answers) {ps : List Phrase} {role : Role Bool}
    (hps : ∀ p ∈ ps, p.Kinded From) :
    Follows (convertEach names ps role) (Flow.courseEach names ps) fun ns =>
      (∀ n ∈ ns, Formed From .type n) ∧ ns.length = ps.length := by
  match ps with
  | [] => exact follows_pure ⟨nofun, rfl⟩
  | p :: rest =>
    have ⟨hp, hrest⟩ := List.forall_mem_cons.1 hps
    refine (follows_convert answers hp).bind fun node h => ?_
    refine (follows_each answers hrest).then_pure fun nodes ⟨hs, hlen⟩ => ?_
    exact ⟨List.forall_mem_cons.2 ⟨h, hs⟩, congrArg (· + 1) hlen⟩

theorem follows_maybe (answers : names.Answers) {o : Option Phrase} {role : Role Bool}
    (ho : ∀ p ∈ o, p.Kinded From) :
    Follows (convertMaybe names o role) (Flow.courseMaybe names o) fun n =>
      (∀ node ∈ n, Formed From .type node) ∧ n.isSome = o.isSome := by
  match o with
  | none => exact follows_pure ⟨nofun, rfl⟩
  | some p =>
    refine (follows_convert answers (ho p rfl)).then_pure fun node h => ⟨?_, rfl⟩
    intro _ same
    cases same
    exact h

theorem follows_members (answers : names.Answers) {ps : List Phrase}
    (hps : ∀ p ∈ ps, p.Kinded From) :
    Follows (convertMembers names ps) (Flow.courseParts names Phrase.isMember ps) fun m =>
      (∀ n ∈ m.members, Formed From .property n) ∧ ∀ n ∈ m.spreads, Formed From .type n := by
  match ps with
  | [] => exact follows_pure ⟨nofun, nofun⟩
  | p :: rest =>
    have ⟨hp, hrest⟩ := List.forall_mem_cons.1 hps
    cases p with
    | property s k v o w c =>
      have hv := (Phrase.everywhere_property.1 hp).2
      obtain ⟨⟨text, htext⟩, hc⟩ := hp.here.1
      rw [Flow.courseParts_cons rfl]
      refine (follows_convert answers hv).bind fun type h => ?_
      obtain ⟨out, hout⟩ := exists_propertySignature htext hc type o w
      rw [hout]
      refine (follows_members answers hrest).then_pure fun others ⟨hm, hs⟩ => ?_
      exact ⟨List.forall_mem_cons.2 ⟨.property h, hm⟩, hs⟩
    | spread s a =>
      have ha := (Phrase.everywhere_spread.1 hp).2
      rw [Flow.courseParts_cons rfl]
      refine (follows_convert answers ha).bind fun spread h => ?_
      refine (follows_members answers hrest).then_pure fun others ⟨hm, hs⟩ => ?_
      exact ⟨hm, List.forall_mem_cons.2 ⟨h, hs⟩⟩
    | _ =>
      rw [Flow.courseParts_stop rfl]
      exact follows_refused

theorem follows_indexers (answers : names.Answers) {ps : List Phrase}
    (hps : ∀ p ∈ ps, p.Kinded From) (his : ∀ p ∈ ps, p.isIndexer = true) :
    Follows (convertIndexers names ps) (Flow.courseParts names Phrase.isIndexer ps) fun ns =>
      ∀ n ∈ ns, Formed From .index n := by
  match ps with
  | [] => exact follows_pure nofun
  | p :: rest =>
    have ⟨hp, hrest⟩ := List.forall_mem_cons.1 hps
    have ⟨hip, hirest⟩ := List.forall_mem_cons.1 his
    cases p with
    | indexer s id k v w =>
      have ⟨hk, hv⟩ := (Phrase.everywhere_indexer.1 hp).2
      obtain ⟨name, hname⟩ := textual_indexName hp.here.1
      have index : ∀ key type, Formed From .type key → Formed From .type type →
          Yields (Node.index? (indexName id) (some key) (some type)) (Formed From .index)
            fun _ => False := by
        intro key type hkey htype
        rw [hname]
        exact .index hkey htype
      rw [Flow.courseParts_cons rfl, Phrase.partCourse, Course.andThen_assoc]
      refine (follows_convert answers hk).bind fun key hkey => ?_
      refine (follows_convert answers hv).bind fun type htype => ?_
      refine (follows_lift (index key type hkey htype)).quiet_bind fun member hm => ?_
      refine (follows_indexers answers hrest hirest).then_pure fun others hs => ?_
      exact List.forall_mem_cons.2 ⟨hm, hs⟩
    | _ => exact absurd hip Bool.false_ne_true

theorem follows_params (answers : names.Answers) {ps : List Phrase} {roles : List (Role Bool)}
    {used : List Json}
    (hps : ∀ p ∈ ps, p.Kinded From) (his : ∀ p ∈ ps, p.isParameter = true)
    (hlen : roles.length = ps.length) (hused : ∀ j ∈ used, j.Textual) :
    Follows (convertParams names ps roles used) (Flow.courseParts names Phrase.isParameter ps)
      fun ns => (∀ n ∈ ns, Formed From .parameter n) ∧ ns.map Node.given = ps.map Phrase.given := by
  match ps, roles with
  | [], _ => exact follows_pure ⟨nofun, rfl⟩
  | p :: rest, [] => nomatch hlen
  | p :: rest, role :: roles =>
    have ⟨hp, hrest⟩ := List.forall_mem_cons.1 hps
    have ⟨hip, hirest⟩ := List.forall_mem_cons.1 his
    cases p with
    | parameter s f n a o =>
      have ha := (Phrase.everywhere_parameter.1 hp).2
      rw [Flow.courseParts_cons rfl]
      have named := follows_nameFor answers hp.here.1 hused
      refine named.quiet_bind fun ⟨name, used⟩ ⟨hname, hused⟩ => ?_
      obtain ⟨text, rfl⟩ := hname
      refine (follows_maybe answers ha).bind fun type ⟨htype, hgiven⟩ => ?_
      have param : Yields (Node.parameter? (.str text) type o)
          (fun n => Formed From .parameter n ∧ n.given = [a.isSome]) fun _ => False :=
        ⟨.parameter htype, congrArg ([·]) hgiven⟩
      refine (follows_lift param).quiet_bind fun param ⟨h, hg⟩ => ?_
      have rest := follows_params answers hrest hirest (Nat.succ.inj hlen) hused
      refine rest.then_pure fun others ⟨hs, hgs⟩ => ?_
      refine ⟨List.forall_mem_cons.2 ⟨h, hs⟩, ?_⟩
      rw [List.map_cons, List.map_cons, hg, hgs]
      rfl
    | _ => exact absurd hip Bool.false_ne_true

theorem follows_rest (answers : names.Answers) {o : Option Phrase} (ho : ∀ p ∈ o, p.Kinded From)
    (hio : ∀ p ∈ o, p.isParameter = true) :
    Follows (convertRest names o) (Flow.courseRest names o) fun ns =>
      ns.length ≤ 1 ∧ (∀ n ∈ ns, Formed From .rest n) ∧
        ns.map Node.given = (o.toList.filter Phrase.named).map Phrase.given := by
  match o with
  | none => exact follows_pure ⟨Nat.zero_le _, nofun, rfl⟩
  | some p =>
    have hp := ho p rfl
    cases p with
    | parameter s f n a o =>
      have ha := (Phrase.everywhere_parameter.1 hp).2
      rw [convertRest_parameter]
      unfold Flow.courseRest
      -- Without a name the parameter is dropped, and its type is not looked at.
      rcases hp.here.1 with rfl | ⟨text, rfl⟩
      · exact follows_pure ⟨Nat.zero_le _, nofun, rfl⟩
      · have single : ∀ type, (∀ n ∈ type, Formed From .type n) ∧ type.isSome = a.isSome →
            Follows (do return [← Node.rest? (.str text) type]) .quiet fun ns => ns.length ≤ 1 ∧
              (∀ n ∈ ns, Formed From .rest n) ∧ ns.map Node.given = [[a.isSome]] :=
          fun type ⟨htype, hgiven⟩ => follows_pure
            ⟨Nat.le_refl 1, List.forall_mem_singleton.2 (.rest htype), congrArg ([[·]]) hgiven⟩
        have type : Follows (convertMaybe names a .other) (Flow.courseMaybe names a) _ :=
          follows_maybe answers ha
        have named := type.bind single
        rw [Course.andThen_quiet] at named
        exact named
    | _ => exact absurd (hio _ rfl) Bool.false_ne_true

theorem follows_typeParams (answers : names.Answers) {o : Option (List Phrase)}
    (ho : ∀ ps ∈ o, ∀ p ∈ ps, p.Kinded From) (hio : ∀ ps ∈ o, ∀ p ∈ ps, p.isTypeParameter = true) :
    Follows (convertTypeParams names o) (Flow.courseTypeParams names o) fun t =>
      (∀ ns ∈ t, ∀ n ∈ ns, Formed From .typeParameter n) ∧
        t.map (List.map Node.given) = o.map (List.map Phrase.given) := by
  match o with
  | none => exact follows_pure ⟨nofun, rfl⟩
  | some ps =>
    have each := follows_eachTypeParam answers (ho ps rfl) (hio ps rfl)
    refine each.then_pure fun nodes ⟨h, hg⟩ => ⟨?_, ?_⟩
    · intro _ same
      cases same
      exact h
    · exact congrArg some hg

theorem follows_eachTypeParam (answers : names.Answers) {ps : List Phrase}
    (hps : ∀ p ∈ ps, p.Kinded From) (his : ∀ p ∈ ps, p.isTypeParameter = true) :
    Follows (convertEachTypeParam names ps) (Flow.courseParts names Phrase.isTypeParameter ps)
      fun ns => (∀ n ∈ ns, Formed From .typeParameter n) ∧
        ns.map Node.given = ps.map Phrase.given := by
  match ps with
  | [] => exact follows_pure ⟨nofun, rfl⟩
  | p :: rest =>
    have ⟨hp, hrest⟩ := List.forall_mem_cons.1 hps
    have ⟨hip, hirest⟩ := List.forall_mem_cons.1 his
    cases p with
    | typeParameter s n b d w =>
      have ⟨hb, hd⟩ := (Phrase.everywhere_typeParameter.1 hp).2
      obtain ⟨text, rfl⟩ := hp.here.1
      rw [Flow.courseParts_cons rfl, Phrase.partCourse, Course.andThen_assoc]
      refine (follows_maybe answers hb).bind fun bound ⟨hbound, hbg⟩ => ?_
      refine (follows_maybe answers hd).bind fun default ⟨hdefault, hdg⟩ => ?_
      have param : Yields (Node.typeParameter? (.str text) bound default)
          (fun n => Formed From .typeParameter n ∧ n.given = [b.isSome, d.isSome]) fun _ => False :=
        ⟨.typeParameter hbound hdefault, congrArg₂ ([·, ·]) hbg hdg⟩
      refine (follows_lift param).quiet_bind fun param ⟨h, hg⟩ => ?_
      refine (follows_eachTypeParam answers hrest hirest).then_pure fun others ⟨hs, hgs⟩ => ?_
      refine ⟨List.forall_mem_cons.2 ⟨h, hs⟩, ?_⟩
      rw [List.map_cons, List.map_cons, hg, hgs]
      rfl
    | _ => exact absurd hip Bool.false_ne_true

end

end

theorem yields_signatureRoles {ps : List Phrase} (h : ∀ p ∈ ps, p.isParameter = true) :
    Yields (signatureRoles ps) (fun roles => roles.length = ps.length) fun _ => False := by
  unfold signatureRoles
  have length : ∀ flags : List Bool, flags = (ps.map fun p => p.optional?.getD false) →
      (Flow.parameterRoles flags).length = ps.length := by
    rintro _ rfl
    rw [Flow.length_parameterRoles, List.length_map]
  refine (Yields.mapM_eq fun p hp => ?_).bind length
  cases p with
  | parameter s f n a o => exact yields_ok.2 rfl
  | _ => exact absurd (h _ hp) Bool.false_ne_true

end

end Converting

/-! ## Results -/

/-- A type whose signatures are outlined by phrases of the tree, and which can be written and
shown. -/
structure Presentable (root : Phrase) (node : Node) : Prop where
  formed : Formed (fun p => ∃ place ∈ root.places [], place.phrase = p) .type node
  emits : node.Emits
  shows : ∃ text, node.text = .ok text

theorem Flow.Phrase.WellKinded.kinded {p : Phrase} (h : p.WellKinded) :
    p.Kinded fun q => ∃ place ∈ p.places [], place.phrase = q :=
  fun place hplace => ⟨h place hplace, place, hplace, rfl⟩

theorem Formed.presentable {root : Phrase} {node : Node}
    (h : Formed (fun p => ∃ place ∈ root.places [], place.phrase = p) .type node) :
    Presentable root node :=
  ⟨h, h.emits, h.exists_text⟩

theorem Flow.Phrase.WellKinded.follows {names : Names} (answers : names.Answers) {p : Phrase}
    (hp : p.WellKinded) (role : Role Bool) :
    Converting.Follows (Converting.convert names p role) (p.course names) (Presentable p) :=
  (Converting.follows_convert answers hp.kinded).mono fun _ h => h.presentable

end Reannotate
