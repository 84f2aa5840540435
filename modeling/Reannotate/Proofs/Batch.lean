import Reannotate.Command.Run
import Reannotate.Proofs.Emission
import Reannotate.Proofs.Fields
import Reannotate.Proofs.Files
import Reannotate.Proofs.Reporting

/-!
# Entries of a document

The entries of a document share a report, but what becomes of one does not depend on the others: a
run comes to the results that the entries have on their own, in order, and to the issues of those
that are refused, until there are too many (`run_isolates`).
-/

namespace Reannotate.Command

open Report
open Reannotate.Flow (Phrase)
open Reannotate.TypeScript (Node)

/-! ## One entry -/

/-- What an entry comes to on its own, with a fresh report. -/
def alone (entry : Json) : Except Fault (Option Node) :=
  (outcome (convertDocument entry) (Report.start false (some usualLimit) none)).1

theorem chats_convertDocument (entry : Json) (r : Report) :
    Chats (convertDocument entry) r (do
      let p ← Flow.read entry
      ((Converting.convertEntry .usual p).outcome .empty).1) := by
  unfold convertDocument
  cases hread : Flow.read entry with
  | ok p => exact chats_converting _ _
  | error e => exact ⟨_, _, _, rfl⟩

theorem alone_eq (entry : Json) : alone entry = (do
    let p ← Flow.read entry
    ((Converting.convertEntry .usual p).outcome .empty).1) := by
  obtain ⟨warnings, given, console, h⟩ :=
    chats_convertDocument entry (Report.start false (some usualLimit) none)
  rw [alone, h]

/-- The entry comes to a result or is refused, and the keys in it are texts. -/
structure Orderly (entry : Json) : Prop where
  settled : (∃ node, alone entry = .ok node) ∨ ∃ r, alone entry = .error (.refused r)
  keys : ∀ p, Flow.read entry = .ok p → p.Everywhere Phrase.KeyText

theorem Orderly.yields {entry : Json} (h : Orderly entry) :
    Yields (alone entry) (fun o => ∀ node ∈ o, node.Emits) Fault.Showable := by
  have keys := h.keys
  have read := Flow.yields_read entry
  rw [alone_eq]
  cases hread : Flow.read entry with
  | ok p => exact Converting.emits_entry (keys p hread) _
  | error e =>
    rw [hread] at read
    exact read.showable

def refusal? (entry : Json) : Option Refusal :=
  match alone entry with
  | .error (.refused r) => some r
  | _ => none

theorem refusal?_eq_some {entry : Json} {r : Refusal} :
    refusal? entry = some r ↔ alone entry = .error (.refused r) := by
  unfold refusal?
  split
  · rename_i r' h
    rw [h, Option.some.injEq, Except.error.injEq, Fault.refused.injEq]
  · rename_i h
    exact ⟨fun hr => (nomatch hr), fun hr => absurd hr (h r)⟩

def refusals (entries : List Json) : List Refusal :=
  entries.filterMap refusal?

def resultOf (entry : Json) : Json :=
  match alone entry with
  | .ok (some node) => node.toJson.toOption.getD .null
  | _ => .null

/-- What a run writes for an entry is the document of the node that the entry comes to on its own,
and null exactly if it is refused or a declared name without a type. -/
structure Represents (entry result : Json) : Prop where
  node : ∀ node, alone entry = .ok (some node) → node.toJson = .ok result
  null_iff : result = .null ↔ (∃ r, alone entry = .error (.refused r)) ∨
    ∃ s n o, Flow.read entry = .ok (.parameter s .declared n none o)

theorem refusals_cons_none {entry : Json} {entries : List Json} (h : refusal? entry = none) :
    refusals (entry :: entries) = refusals entries :=
  List.filterMap_cons_none h

theorem refusals_cons_some {entry : Json} {entries : List Json} {r : Refusal}
    (h : refusal? entry = some r) : refusals (entry :: entries) = r :: refusals entries :=
  List.filterMap_cons_some h

def issueOf (r : Refusal) : Issue where
  intro := "Could not translate " ++ r.kind.plain ++ ". " ++ r.message.plain
  subject := r.subject
  caption := usualCaption

theorem exists_text {r : Refusal} (h : r.Shown) (source : Option Text) :
    ∃ text, textOf source (issueOf r) = .ok text := by
  unfold textOf issueOf
  cases hr : r.subject with
  | none => exact ⟨_, rfl⟩
  | some part =>
    obtain ⟨p, shown, rfl, hp⟩ := h part hr
    simp only [depict]
    split
    · exact ⟨_, rfl⟩
    · rw [hp]
      exact ⟨_, rfl⟩

theorem tellable_issues {entries : List Json} (h : ∀ entry ∈ entries, Orderly entry)
    (source : Option Text) : Tellable source ((refusals entries).map issueOf) := by
  intro i hi
  obtain ⟨r, hr, rfl⟩ := List.mem_map.1 hi
  obtain ⟨entry, hentry, hrefusal⟩ := List.mem_filterMap.1 hr
  have yields := (h entry hentry).yields
  rw [refusal?_eq_some.1 hrefusal] at yields
  exact exists_text (yields r rfl) source

theorem alone_none_iff {entry : Json} : alone entry = .ok none ↔
    ∃ s n o, Flow.read entry = .ok (.parameter s .declared n none o) := by
  rw [alone_eq]
  constructor
  · intro h
    cases hread : Flow.read entry with
    | error e =>
      rw [hread] at h
      nomatch h
    | ok p =>
      rw [hread] at h
      have some_ne : ∀ c : Converting Node,
          (Converting.outcome (do return some (← c)) .empty).1 ≠ .ok none := fun c => by
        rw [Converting.outcome_bind]
        rcases c.outcome .empty with ⟨x, log⟩
        cases x <;> exact nofun
      cases p with
      | parameter s form n t o =>
        cases form with
        | declared =>
          cases t with
          | none => exact ⟨s, n, o, rfl⟩
          | some q => exact absurd h (some_ne _)
        | ofType => exact absurd h (some_ne _)
      | callable s form ps r rest ts =>
        cases form with
        | declared n => exact absurd h (some_ne _)
        | ofType => exact absurd h (some_ne _)
      | _ => exact absurd h (some_ne _)
  · intro ⟨s, n, o, hread⟩
    rw [hread]
    rfl

theorem Orderly.represents {entry : Json} (h : Orderly entry) : Represents entry (resultOf entry) := by
  have yields := h.yields
  have settled := h.settled
  have none_iff := @alone_none_iff entry
  unfold resultOf
  cases halone : alone entry with
  | error e =>
    rw [halone] at settled
    rcases settled with ⟨node, hnode⟩ | ⟨r, hr⟩
    · nomatch hnode
    · refine ⟨fun node hnode => ?_, fun _ => .inl ⟨r, halone.trans hr⟩, fun _ => rfl⟩
      nomatch halone.symm.trans hnode
  | ok o =>
    rw [halone] at yields none_iff
    cases o with
    | none =>
      refine ⟨fun node hnode => ?_, fun _ => .inr (none_iff.1 rfl), fun _ => rfl⟩
      nomatch halone.symm.trans hnode
    | some node =>
      obtain ⟨fields, hnode⟩ := yields node rfl
      simp only [hnode]
      refine ⟨?_, fun h => (nomatch h), ?_⟩
      · intro node' hnode'
        cases halone.symm.trans hnode'
        exact hnode
      · rintro (⟨r, hr⟩ | hread)
        · nomatch halone.symm.trans hr
        · nomatch none_iff.2 hread

/-! ## All entries -/

theorem Report.Adds.convertOne {entry : Json} {r : Report} {x : Except Fault Json} {is : List Issue}
    (h : ∀ warnings given console, Adds (match alone entry with
      | .ok node => liftM (documentOf node)
      | .error (.refused refusal) => do
        issue (issueOf refusal)
        return .null
      | .error e => throw e) { r with warnings := warnings, given := given, console := console } x is) :
    Adds (convertOne entry) r x is := by
  obtain ⟨warnings, given, console, hc⟩ := chats_convertDocument entry r
  obtain ⟨warnings', given', console', hm⟩ := h warnings given console
  have unfolded : outcome (Command.convertOne entry) r =
      outcome (match (outcome (convertDocument entry) r).1 with
        | .ok node => liftM (documentOf node)
        | .error (.refused refusal) => do
          recordRefusal refusal usualCaption
          return .null
        | .error e => throw e) (outcome (convertDocument entry) r).2 := rfl
  rw [hc, ← alone_eq] at unfolded
  exact ⟨warnings', given', console', unfolded.trans hm⟩

theorem adds_convertOne {entry : Json} (h : Orderly entry) (hr : refusal? entry = none)
    (r : Report) : Adds (convertOne entry) r (.ok (resultOf entry)) [] := by
  rcases h.settled with ⟨o, halone⟩ | ⟨refusal, halone⟩
  · have document : documentOf o = .ok (resultOf entry) := by
      cases o with
      | none => simp [documentOf, resultOf, halone]
      | some node => exact h.represents.node node halone
    refine Report.Adds.convertOne fun _ _ _ => ?_
    simp only [halone, document]
    exact (chats_lift _ _).adds
  · nomatch hr.symm.trans (refusal?_eq_some.2 halone)

theorem adds_convertOne_refused {entry : Json} {refusal : Refusal}
    (hr : refusal? entry = some refusal) {r : Report}
    (hlimit : r.limit ≠ some ((r.issues.length + 1 : Nat) : Int)) :
    Adds (convertOne entry) r (.ok (resultOf entry)) [issueOf refusal] := by
  have halone := refusal?_eq_some.1 hr
  have null : resultOf entry = .null := by simp [resultOf, halone]
  refine Report.Adds.convertOne fun _ _ _ => ?_
  simp only [halone, null]
  refine Adds.then_pure (adds_issue ?_) fun _ => Json.null
  exact hlimit

theorem adds_convertOne_tooMany {entry : Json} {refusal : Refusal}
    (hr : refusal? entry = some refusal) {r : Report}
    (hlimit : r.limit = some ((r.issues.length + 1 : Nat) : Int)) :
    Adds (convertOne entry) r (.error .tooManyIssues) [issueOf refusal] := by
  refine Report.Adds.convertOne fun _ _ _ => ?_
  simp only [refusal?_eq_some.1 hr]
  refine Adds.bind_error (adds_issue_tooMany ?_)
  exact hlimit

theorem adds_convertAll {m : Int} {total : Nat} {entries : List Json} {number : Nat} {r : Report}
    (h : ∀ entry ∈ entries, Orderly entry) (hlimit : r.limit = some m)
    (hm : m ≤ r.issues.length ∨ r.issues.length + (refusals entries).length < m) :
    Adds (convertAll total number entries) r (.ok (entries.map resultOf))
      ((refusals entries).map issueOf) := by
  induction entries generalizing number r with
  | nil => exact (chats_pure _ _).adds
  | cons entry entries ih =>
    have ⟨hentry, hrest⟩ := List.forall_mem_cons.1 h
    refine (chats_info _ _).adds.bind_nil fun _ _ _ => ?_
    cases hr : refusal? entry with
    | none =>
      rw [refusals_cons_none hr] at hm ⊢
      refine (adds_convertOne hentry hr _).bind_nil fun _ _ _ => ?_
      refine Adds.then_pure (ih hrest ?_ ?_) _
      · exact hlimit
      · exact hm
    | some refusal =>
      rw [refusals_cons_some hr] at hm ⊢
      rw [List.length_cons] at hm
      refine (adds_convertOne_refused hr ?_).bind fun _ _ _ => ?_
      · intro limit
        have met : m = r.issues.length + 1 := Option.some.inj (hlimit.symm.trans limit)
        omega
      · refine Adds.then_pure (ih hrest ?_ ?_) _
        · exact hlimit
        · simp only [List.length_append, List.length_singleton]
          omega

theorem adds_convertAll_tooMany {m : Int} {total : Nat} {entries : List Json} {number : Nat}
    {r : Report} (h : ∀ entry ∈ entries, Orderly entry) (hlimit : r.limit = some m)
    (hlow : r.issues.length < m) (hhigh : m ≤ r.issues.length + (refusals entries).length) :
    Adds (convertAll total number entries) r (.error .tooManyIssues)
      (((refusals entries).take (m - r.issues.length).toNat).map issueOf) := by
  induction entries generalizing number r with
  | nil =>
    simp [refusals] at hhigh
    omega
  | cons entry entries ih =>
    have ⟨hentry, hrest⟩ := List.forall_mem_cons.1 h
    refine (chats_info _ _).adds.bind_nil fun _ _ _ => ?_
    cases hr : refusal? entry with
    | none =>
      rw [refusals_cons_none hr] at hhigh ⊢
      refine (adds_convertOne hentry hr _).bind_nil fun _ _ _ => ?_
      refine Adds.bind_error (ih hrest ?_ ?_ ?_)
      · exact hlimit
      · exact hlow
      · exact hhigh
    | some refusal =>
      rw [refusals_cons_some hr] at hhigh ⊢
      rw [List.length_cons] at hhigh
      -- Either this refusal meets the limit or a later one does.
      by_cases hm : m = r.issues.length + 1
      · have one : (m - r.issues.length).toNat = 1 := by omega
        rw [one, List.take_succ_cons, List.take_zero]
        refine Adds.bind_error (adds_convertOne_tooMany hr ?_)
        rw [hlimit, hm]
        rfl
      · have more : (m - r.issues.length).toNat = (m - (r.issues.length + 1)).toNat + 1 := by omega
        have counted : ((r.issues ++ [issueOf refusal]).length : Int) = r.issues.length + 1 := by
          rw [List.length_append, List.length_singleton]
          rfl
        rw [more, List.take_succ_cons]
        refine (adds_convertOne_refused hr ?_).bind fun _ _ _ => ?_
        · intro limit
          exact hm (Option.some.inj (hlimit.symm.trans limit))
        · rw [← counted]
          refine Adds.bind_error (ih hrest ?_ ?_ ?_)
          · exact hlimit
          · simp only [counted]
            omega
          · simp only [counted]
            omega

theorem convertAll_append (total : Nat) (done rest : List Json) (number : Nat) :
    convertAll total number (done ++ rest) = (do
      let results ← convertAll total number done
      return results ++ (← convertAll total (number + done.length) rest)) := by
  induction done generalizing number with
  | nil => simp [convertAll]
  | cons entry done ih =>
    have number_eq : number + (entry :: done).length = number + 1 + done.length := by
      rw [List.length_cons, Nat.add_assoc, Nat.add_comm 1]
    simp only [List.cons_append, convertAll, ih, bind_assoc, pure_bind, number_eq]

/-! ## A run -/

variable {s : Settings} {source : Option Text} {entries : List Json} {folder : Folder} {m : Int}

def attempt (s : Settings) (source : Option Text) (entries : List Json) :
    Except Fault (List Json) × Report :=
  outcome (convertAll entries.length 1 entries) (.start (s.verbose != 0) s.maxIssues source)

def runIn (folder : Folder) (draw : Nat) (s : Settings) : Effect :=
  let run := run folder.read draw s
  perform folder run.status run.actions

theorem effect_eq_runIn {args : List Text} (h : parse usualLimit args = .ok (.convert s))
    (folder : Folder) (draw : Nat) : effect folder draw args = runIn folder draw s := by
  cases args with
  | nil => nomatch h
  | cons arg args =>
    have invoked : invoke folder.read draw (arg :: args) = run folder.read draw s := by
      rw [invoke, h]
      rfl
    simp only [effect, runIn, invoked]

/-- The run finds a list of entries, and where its output goes can be written. -/
structure Ready (folder : Folder) (s : Settings) (source : Option Text) (entries : List Json) :
    Prop where
  input : readInput folder.read s = some ⟨source, .array entries⟩
  writable : ∀ name ∈ named s.output, ∀ text, ∃ changed, folder.write name text = .ok changed

def listing (results : List Json) : Text :=
  Text.ofString ((Json.array results).pretty ++ "\n")

/-- The file of that name, unless it is the null device, holds the text, and the others are as they
were. -/
structure Stores (folder : Folder) (name text : Text) (after : Folder) : Prop where
  written : folder.write name text = .ok after
  holds : ∀ path, folder.target name = .ok (.file path) → after.read name = some text
  others : ∀ other, (folder.target other).toOption ≠ (folder.target name).toOption →
    after.read other = folder.read other

/-- The text is all that is written, to the output file or else to the standard output. -/
def Writes (folder : Folder) (s : Settings) (text : Text) (effect : Effect) : Prop :=
  match named s.output with
  | none => effect.stdout = text ∧ effect.folder = folder
  | some name => effect.stdout = [] ∧ Stores folder name text effect.folder

/-- The text is one list of the results, with a line for each and none for anything else; and if
their scalars can be told by their texts, it is read as that list again. -/
structure Lists (results : List Json) (text : Text) : Prop where
  empty : results = [] → text = "[]\n"
  items : results ≠ [] → text =
    Text.ofString ("[\n  " ++ ",\n  ".intercalate (results.map (Json.prettyAt 1)) ++ "\n]\n")
  reads : (∀ result ∈ results, result.Legible) → Json.read text = some (.array results)

/-- All entries come to the results that they have on their own. -/
structure Completes (folder : Folder) (s : Settings) (source : Option Text) (entries : List Json)
    (effect : Effect) : Prop where
  writes : Writes folder s (listing (entries.map resultOf)) effect
  lists : Lists (entries.map resultOf) (listing (entries.map resultOf))
  represents : ∀ entry ∈ entries, Represents entry (resultOf entry)
  status : effect.status = .ok (some (if refusals entries = [] then 0 else 1))
  issues : (attempt s source entries).2.issues = (refusals entries).map issueOf

/-- The run ends with issue number `m`, and what follows the entry refused then is not looked at. -/
structure GivesUp (m : Int) (folder : Folder) (draw : Nat) (s : Settings) (source : Option Text)
    (entries : List Json) (effect : Effect) : Prop where
  silent : effect.stdout = []
  untouched : effect.folder = folder
  status : effect.status = .ok (some 1)
  issues : (attempt s source entries).2.issues = ((refusals entries).take m.toNat).map issueOf
  stops : ∀ done rest, entries = done ++ rest → m ≤ (refusals done).length →
    attempt s source entries =
      outcome (convertAll entries.length 1 done) (.start (s.verbose != 0) s.maxIssues source)
  ignores : ∀ done rest rest' files, entries = done ++ rest → m ≤ (refusals done).length →
    rest'.length = rest.length → readInput files s = some ⟨source, .array (done ++ rest')⟩ →
    run files draw s = run folder.read draw s

theorem readInput_eq {files : Files} {text : Text} {document : Json}
    (unnamed : named s.source = none) (htext : readText files s.annotations = some text)
    (hdocument : Json.read text = some document) :
    readInput files s = some ⟨none, document⟩ := by
  simp [readInput, unnamed, htext, hdocument]

theorem run_eq_deliver {files : Files} {results : List Json} {r : Report} (draw : Nat)
    (input : readInput files s = some ⟨source, .array entries⟩)
    (h : attempt s source entries = (.ok results, r)) :
    run files draw s = deliver draw s (.array entries) results r := by
  have converted : outcome (convertAll (entriesOf (.array entries)).length 1
      (entriesOf (.array entries))) (.start (s.verbose != 0) s.maxIssues source) =
      (.ok results, r) := h
  rw [run, input]
  simp only [convertInput, converted]

theorem run_eq_giveUp {files : Files} {r : Report} (draw : Nat)
    (input : readInput files s = some ⟨source, .array entries⟩)
    (h : attempt s source entries = (.error .tooManyIssues, r)) :
    run files draw s = ⟨[.note (consoleText (outcome (giveUp draw) r).2)],
      (outcome (giveUp draw) r).1.map fun _ => some 1⟩ := by
  have converted : outcome (convertAll (entriesOf (.array entries)).length 1
      (entriesOf (.array entries))) (.start (s.verbose != 0) s.maxIssues source) =
      (.error .tooManyIssues, r) := h
  rw [run, input]
  simp only [convertInput, converted]

theorem attempt_completes (orderly : ∀ entry ∈ entries, Orderly entry)
    (limit : s.maxIssues = some m) (few : m ≤ 0 ∨ (refusals entries).length < m)
    (source : Option Text) : ∃ r, attempt s source entries = (.ok (entries.map resultOf), r) ∧
      r.issues = (refusals entries).map issueOf ∧ r.source = source := by
  have h : Adds (convertAll entries.length 1 entries) (.start (s.verbose != 0) s.maxIssues source)
      (.ok (entries.map resultOf)) ((refusals entries).map issueOf) := by
    refine adds_convertAll orderly limit ?_
    simpa [start] using few
  obtain ⟨_, _, _, h⟩ := h
  exact ⟨_, h, rfl, rfl⟩

theorem attempt_tooMany (orderly : ∀ entry ∈ entries, Orderly entry)
    (limit : s.maxIssues = some m) (low : 1 ≤ m) (high : m ≤ (refusals entries).length)
    (total : Nat) (source : Option Text) : ∃ r,
      outcome (convertAll total 1 entries) (.start (s.verbose != 0) s.maxIssues source) =
        (.error .tooManyIssues, r) ∧
      r.issues = ((refusals entries).take m.toNat).map issueOf ∧ r.source = source := by
  have h : Adds (convertAll total 1 entries) (.start (s.verbose != 0) s.maxIssues source)
      (.error .tooManyIssues) (((refusals entries).take (m - (0 : Nat)).toNat).map issueOf) := by
    refine adds_convertAll_tooMany orderly limit ?_ ?_
    · simp only [start, List.length_nil]
      omega
    · simpa [start] using high
  obtain ⟨_, _, _, h⟩ := h
  exact ⟨_, h, by simp [start], rfl⟩

theorem stores_of_write {name text : Text} {after : Folder} (h : folder.write name text = .ok after) :
    Stores folder name text after :=
  ⟨h, fun _ file => Folder.read_write h file, fun _ apart => Folder.read_write_other h apart⟩

theorem distinct_resultOf (entry : Json) : (resultOf entry).Distinct := by
  unfold resultOf
  split
  · next node _ =>
    have distinct := node.distinct_toJson
    cases h : node.toJson with
    | ok j =>
      rw [h] at distinct
      exact distinct
    | error e => exact .scalar trivial
  · exact .scalar trivial

theorem lists_listing {results : List Json} (distinct : ∀ result ∈ results, result.Distinct) :
    Lists results (listing results) where
  empty := by
    rintro rfl
    rfl
  items h := by
    rw [listing, Json.pretty_array h, String.append_assoc]
    rfl
  reads legible := Json.read_pretty (.array legible) (.array distinct)

theorem deliver_writes {results : List Json} {r : Report} {draw : Nat}
    (writable : ∀ name ∈ named s.output, ∀ text, ∃ changed, folder.write name text = .ok changed)
    (complains : Chats (sayAll draw) { r with console := [] } (.ok ())) {run : Run}
    (h : run = deliver draw s (.array entries) results r) :
    Writes folder s (listing results) (perform folder run.status run.actions) ∧
    (perform folder run.status run.actions).status = .ok (some (if r.hasIssues then 1 else 0)) := by
  obtain ⟨_, _, _, complained⟩ := complains
  subst h
  unfold Writes deliver
  cases hname : named s.output with
  | none =>
    simp only [complained]
    exact ⟨⟨List.append_nil (listing results), rfl⟩, rfl⟩
  | some name =>
    obtain ⟨changed, written⟩ := writable name hname (listing results)
    unfold listing at written ⊢
    simp only [complained, perform, assemble, written]
    exact ⟨⟨trivial, stores_of_write written⟩, rfl⟩

theorem Ready.completes (ready : Ready folder s source entries)
    (orderly : ∀ entry ∈ entries, Orderly entry) (limit : s.maxIssues = some m)
    (few : m ≤ 0 ∨ (refusals entries).length < m) (draw : Nat) :
    Completes folder s source entries (runIn folder draw s) := by
  obtain ⟨r, hattempt, hissues, hsource⟩ := attempt_completes orderly limit few source
  have delivered := run_eq_deliver draw ready.input hattempt
  have tellable := tellable_issues orderly source
  rw [← hissues, ← hsource] at tellable
  obtain ⟨writes, status⟩ :=
    deliver_writes ready.writable (chats_sayAll draw { r with console := [] } tellable) delivered
  have distinct : ∀ result ∈ entries.map resultOf, result.Distinct := by
    simp only [List.forall_mem_map]
    exact fun entry _ => distinct_resultOf entry
  refine ⟨writes, lists_listing distinct, fun entry hentry => (orderly entry hentry).represents,
    status.trans ?_, ?_⟩
  · rw [hasIssues, hissues]
    cases refusals entries <;> rfl
  · rw [hattempt, hissues]

theorem chats_giveUp (draw : Nat) (r : Report) (h : Tellable r.source r.issues) :
    Chats (giveUp draw) r (.ok ()) := by
  refine (chats_sayAll draw r h).bind fun _ _ _ => ?_
  exact (chats_say _ _).bind fun _ _ _ => chats_say _ _

theorem attempt_append {done rest : List Json} (orderly : ∀ entry ∈ done, Orderly entry)
    (limit : s.maxIssues = some m) (low : 1 ≤ m) (high : m ≤ (refusals done).length)
    (source : Option Text) : attempt s source (done ++ rest) =
      outcome (convertAll (done ++ rest).length 1 done)
        (.start (s.verbose != 0) s.maxIssues source) := by
  obtain ⟨r, failed, -⟩ :=
    attempt_tooMany orderly limit low high (done ++ rest).length source
  rw [attempt, convertAll_append, outcome_bind, failed]

theorem Ready.givesUp (ready : Ready folder s source entries)
    (orderly : ∀ entry ∈ entries, Orderly entry) (limit : s.maxIssues = some m) (low : 1 ≤ m)
    (high : m ≤ (refusals entries).length) (draw : Nat) :
    GivesUp m folder draw s source entries (runIn folder draw s) := by
  obtain ⟨r, hattempt, hissues, hsource⟩ :=
    attempt_tooMany orderly limit low high entries.length source
  -- The complaints must not fail themselves, or the run would end without a status.
  have tellable : Tellable r.source r.issues := by
    rw [hissues, hsource, List.map_take]
    exact fun i hi => tellable_issues orderly source i (List.mem_of_mem_take hi)
  obtain ⟨_, _, _, complained⟩ := chats_giveUp draw r tellable
  have gaveUp := run_eq_giveUp draw ready.input hattempt
  rw [complained] at gaveUp
  have stops : ∀ done rest, entries = done ++ rest → m ≤ (refusals done).length → ∀ rest',
      attempt s source (done ++ rest') = outcome (convertAll (done ++ rest').length 1 done)
        (.start (s.verbose != 0) s.maxIssues source) := by
    intro done rest h enough rest'
    refine attempt_append (m := m) (fun entry hentry => orderly entry ?_) limit low enough source
    exact h ▸ List.mem_append_left _ hentry
  refine ⟨?_, ?_, ?_, ?_, ?_, ?_⟩
  · rw [runIn, gaveUp]
    rfl
  · rw [runIn, gaveUp]
    rfl
  · rw [runIn, gaveUp]
    rfl
  · rw [attempt, hattempt, hissues]
  · intro done rest h enough
    have stopped := stops done rest h enough rest
    rwa [← h] at stopped
  · intro done rest rest' files h enough same input
    have length_eq : (done ++ rest').length = (done ++ rest).length := by
      rw [List.length_append, List.length_append, same]
    have stopped := stops done rest h enough
    have attempt_eq : attempt s source (done ++ rest') = attempt s source entries := by
      rw [stopped, length_eq, ← stopped, ← h]
    rw [run_eq_giveUp draw ready.input hattempt]
    exact run_eq_giveUp draw input (attempt_eq.trans hattempt)

/-- A run isolates the entries of a document, and gives up at issue number `m`. -/
theorem run_isolates (ready : Ready folder s source entries)
    (orderly : ∀ entry ∈ entries, Orderly entry) (limit : s.maxIssues = some m) (draw : Nat) :
    (m ≤ 0 ∨ (refusals entries).length < m →
      Completes folder s source entries (runIn folder draw s) ∧
      ∀ permuted folder', permuted.Perm entries → Ready folder' s source permuted →
        Completes folder' s source permuted (runIn folder' draw s) ∧
        (permuted.map resultOf).Perm (entries.map resultOf)) ∧
    (1 ≤ m → m ≤ (refusals entries).length →
      GivesUp m folder draw s source entries (runIn folder draw s)) := by
  refine ⟨fun few => ⟨ready.completes orderly limit few draw, ?_⟩, fun low high =>
    ready.givesUp orderly limit low high draw⟩
  intro permuted folder' perm ready'
  refine ⟨ready'.completes (fun entry h => orderly entry (perm.mem_iff.1 h)) limit ?_ draw,
    perm.map resultOf⟩
  have refusals_perm : (refusals permuted).Perm (refusals entries) := perm.filterMap refusal?
  rwa [refusals_perm.length_eq]

def mixed : List Json :=
  [.int 0, .object [("type", .str "AnyTypeAnnotation")]]

def mixedText : Text :=
  "[0, \x7b\"type\": \"AnyTypeAnnotation\"\x7d]"

def mixedFolder : Folder :=
  ⟨[(["in"], some mixedText)]⟩

def mixedSettings (output : Option Text) (limit : Int) : Settings :=
  ⟨"in", none, output, 0, some limit⟩

def mixedResults : Text :=
  "[\n  null,\n  \x7b\n    \"type\": \"TSAnyKeyword\"\n  \x7d\n]\n"

theorem ready_mixed {output : Option Text} (h : output ∈ [none, some ("out" : Text)]) (limit : Int) :
    Ready mixedFolder (mixedSettings output limit) none mixed := by
  have text : readText mixedFolder.read "in" = some mixedText := by decide +kernel
  have document : Json.read mixedText = some (.array mixed) := by decide +kernel
  refine ⟨readInput_eq rfl text document, fun name hname text => ?_⟩
  simp only [List.mem_cons, List.not_mem_nil, or_false] at h
  rcases h with rfl | rfl
  · nomatch hname
  · cases hname
    exact ⟨_, rfl⟩

theorem orderly_mixed : ∀ entry ∈ mixed, Orderly entry := by
  have ⟨refusal, refused⟩ : ∃ r, Flow.read (.int 0) = .error (.refused r) :=
    ⟨_, by with_unfolding_all rfl⟩
  have read : Flow.read (.object [("type", .str "AnyTypeAnnotation")]) =
    .ok (.primitive none .any) := by with_unfolding_all rfl
  simp only [mixed, List.forall_mem_cons]
  refine ⟨⟨.inr ⟨refusal, ?_⟩, ?_⟩, ⟨.inl ⟨some (.keyword (.str "any")), ?_⟩, ?_⟩, nofun⟩
  · rw [alone_eq, refused]
    rfl
  · intro p h
    rw [refused] at h
    nomatch h
  · rw [alone_eq, read]
    rfl
  · intro p h
    rw [read, Except.ok.injEq] at h
    rw [← h, Phrase.everywhere_primitive]
    trivial

theorem run_isolates_mixed :
    (∀ limit, Ready mixedFolder (mixedSettings (some "out") limit) none mixed) ∧
    (∀ entry ∈ mixed, Orderly entry) ∧ (refusals mixed).length = 1 ∧
    Completes mixedFolder (mixedSettings none 2) none mixed
      (runIn mixedFolder 0 (mixedSettings none 2)) ∧
    (runIn mixedFolder 0 (mixedSettings (some "out") 2)).folder.read "out" = some mixedResults ∧
    Json.read mixedResults =
      some (.array [.null, .object [("type", .str "TSAnyKeyword")]]) ∧
    GivesUp 1 mixedFolder 0 (mixedSettings (some "out") 1) none mixed
      (runIn mixedFolder 0 (mixedSettings (some "out") 1)) := by
  have ⟨refusal, refused⟩ : ∃ r, refusal? (.int 0) = some r := ⟨_, by with_unfolding_all rfl⟩
  have kept : refusal? (.object [("type", .str "AnyTypeAnnotation")]) = none := by
    with_unfolding_all rfl
  have one : (refusals mixed).length = 1 := by
    rw [mixed, refusals_cons_some refused, refusals_cons_none kept]
    rfl
  have results : mixed.map resultOf = [.null, .object [("type", .str "TSAnyKeyword")]] := by
    with_unfolding_all rfl
  have completes : ∀ output ∈ [none, some ("out" : Text)],
      Completes mixedFolder (mixedSettings output 2) none mixed
        (runIn mixedFolder 0 (mixedSettings output 2)) := by
    intro output h
    have completes := (run_isolates (ready_mixed h 2) orderly_mixed rfl 0).1
    rw [one] at completes
    exact (completes (.inr (by decide))).1
  have text : listing [.null, .object [("type", .str "TSAnyKeyword")]] = mixedResults := by
    decide +kernel
  obtain ⟨writes, lists, -⟩ := completes (some "out") (.tail _ (.head _))
  rw [results, text] at writes lists
  refine ⟨ready_mixed (.tail _ (.head _)), orderly_mixed, one, completes none (.head _), ?_, ?_, ?_⟩
  · exact writes.2.holds ["out"] rfl
  · refine lists.reads ?_
    have written : Json.Legible (.object [("type", .str "TSAnyKeyword")]) := by
      refine .object ?_ (List.forall_mem_singleton.2 (.scalar (Json.unpaired_ofString _)))
      exact List.forall_mem_singleton.2 (Json.unpaired_ofString _)
    exact List.forall_mem_cons.2 ⟨.scalar trivial, List.forall_mem_singleton.2 written⟩
  · have givesUp := (run_isolates (ready_mixed (.tail _ (.head _)) 1) orderly_mixed rfl 0).2
    rw [one] at givesUp
    exact givesUp (by decide) (by decide)

end Reannotate.Command
