import Reannotate.Proofs.Batch
import Reannotate.Proofs.Bookkeeping
import Reannotate.Proofs.Breaks

/-!
# Complaints about entries

What a run says on the standard error is settled by the report at the end of the conversion, and the
issues in it are those of the entries that are refused, in order (`stderr_complains`). The source is
read with line feeds for all breaks, while spans are offsets in the source as it is. So the picture
of a refused entry is in the right place just if no pair of a carriage return and a line feed comes
before (`complaint_pictures_iff`).
-/

namespace Reannotate

namespace Report

def told (source : Option Text) : List Issue → List Text
  | [] => []
  | i :: is => rule "  -" 20 :: match textOf source i with
    | .ok text => text :: told source is
    | .error _ => []

theorem told_cons {source : Option Text} {i : Issue} {text : Text}
    (h : textOf source i = .ok text) (is : List Issue) :
    told source (i :: is) = rule "  -" 20 :: text :: told source is := by
  simp only [told, h]

theorem told_append {source : Option Text} {is : List Issue} (h : Tellable source is)
    (js : List Issue) : told source (is ++ js) = told source is ++ told source js := by
  induction is with
  | nil => rfl
  | cons i is ih =>
    have ⟨⟨text, htext⟩, hrest⟩ := List.forall_mem_cons.1 h
    rw [List.cons_append, told_cons htext, told_cons htext, ih hrest]
    rfl

def cautions (ws : List Scalar) : List Text :=
  ws.map fun w => Text.ofString "Warning: " ++ w.plain

def opening (draw : Nat) (r : Report) : List Text :=
  cautions r.warnings ++ if r.hasIssues then [rule "*" 60, exclamation draw] else []

theorem outcome_say (line : Text) (r : Report) :
    outcome (say line) r = (.ok (), { r with console := r.console ++ [line] }) := rfl

theorem outcome_sayIssues (is : List Issue) (r : Report) :
    (outcome (sayIssues is) r).2 = { r with console := r.console ++ told r.source is } := by
  induction is generalizing r with
  | nil => simp only [told, List.append_nil]; rfl
  | cons i is ih =>
    have ruled : outcome (sayIssues (i :: is)) r = outcome (do
        say (← textOf r.source i)
        sayIssues is) { r with console := r.console ++ [rule "  -" 20] } := rfl
    rw [ruled, outcome_bind, outcome_lift]
    cases htext : textOf r.source i with
    | error e => simp only [told, htext]
    | ok text =>
      simp only [outcome_bind, outcome_say, ih, told_cons htext, List.append_assoc,
        List.cons_append, List.nil_append]

theorem outcome_sayWarnings (ws : List Scalar) (r : Report) : outcome (forIn ws () fun w _ => do
      say ("Warning: " ++ w.plain)
      return .yield ()) r = (.ok (), { r with console := r.console ++ cautions ws }) := by
  induction ws generalizing r with
  | nil =>
    rw [cautions, List.map_nil, List.append_nil]
    rfl
  | cons w ws ih =>
    rw [List.forIn_cons, outcome_bind, outcome_bind, outcome_say]
    refine (ih _).trans ?_
    simp only [cautions, List.map_cons, List.append_assoc, List.cons_append, List.nil_append]

theorem outcome_sayAll (draw : Nat) (r : Report) : (outcome (sayAll draw) r).2 =
    { r with console := r.console ++ opening draw r ++ told r.source r.issues } := by
  have got : outcome (sayAll draw) r = outcome (do
      for w in r.warnings do
        say ("Warning: " ++ w.plain)
      if r.hasIssues then
        say (rule "*" 60)
        say (exclamation draw)
      sayIssues r.issues) r := rfl
  rw [got, outcome_bind, outcome_sayWarnings, opening]
  by_cases h : r.hasIssues = true
  · simp only [h, if_true, outcome_bind, outcome_say, outcome_sayIssues, List.append_assoc,
      List.cons_append, List.nil_append]
  · simp only [h, Bool.false_eq_true, if_false, outcome_sayIssues, List.append_nil]

end Report

namespace Command

open Reannotate.Report
open Reannotate.Text (Line unifyBreaks pair)

/-! ## The issues of a run -/

structure Gains (r : Report) (is : List Issue) (after : Report) : Prop where
  issues : after.issues = r.issues ++ is
  source : after.source = r.source

theorem Gains.trans {r mid after : Report} {is js : List Issue} (h : Gains r is mid)
    (h' : Gains mid js after) : Gains r (is ++ js) after :=
  ⟨by rw [h'.issues, h.issues, List.append_assoc], h'.source.trans h.source⟩

theorem gains_of_adds {α : Type} {c : Reporting α} {r : Report} {x : Except Fault α}
    {is : List Issue} (h : Adds c r x is) : Gains r is (outcome c r).2 := by
  obtain ⟨warnings, given, console, ended⟩ := h
  rw [ended]
  exact ⟨rfl, rfl⟩

theorem gains_convertOne (entry : Json) (r : Report) :
    Gains r ((refusal? entry).toList.map issueOf) (outcome (convertOne entry) r).2 := by
  cases hr : refusal? entry with
  | some refusal =>
    by_cases limit : r.limit = some ((r.issues.length + 1 : Nat) : Int)
    · exact gains_of_adds (adds_convertOne_tooMany hr limit)
    · exact gains_of_adds (adds_convertOne_refused hr limit)
  | none =>
    cases halone : alone entry with
    | ok node =>
      refine gains_of_adds (x := documentOf node) (Report.Adds.convertOne fun _ _ _ => ?_)
      simp only [halone]
      exact (chats_lift _ _).adds
    | error e =>
      refine gains_of_adds (x := .error e) (Report.Adds.convertOne fun _ _ _ => ?_)
      cases e with
      | refused refusal => nomatch hr.symm.trans (refusal?_eq_some.2 halone)
      | _ =>
        simp only [halone]
        exact (chats_lift (.error _) _).adds

theorem refusals_cons (entry : Json) (entries : List Json) :
    refusals (entry :: entries) = (refusal? entry).toList ++ refusals entries := by
  cases hr : refusal? entry with
  | none => exact refusals_cons_none hr
  | some refusal => exact refusals_cons_some hr

theorem refusals_append (before after : List Json) :
    refusals (before ++ after) = refusals before ++ refusals after :=
  List.filterMap_append

/-- How the conversion of entries ends, and up to where it has come then: to the first one at least,
and to all of them if there are results. -/
structure Stops (entries : List Json) (x : Except Fault (List Json)) (done : List Json) : Prop where
  isPrefix : done <+: entries
  first : entries ≠ [] → done ≠ []
  all : ∀ results, x = .ok results → done = entries

theorem Stops.error (entry : Json) (entries : List Json) (e : Fault) :
    Stops (entry :: entries) (.error e) [entry] :=
  ⟨List.prefix_append [entry] entries, fun _ => nofun, nofun⟩

theorem Stops.cons {entries done : List Json} {x : Except Fault (List Json)}
    (h : Stops entries x done) (entry result : Json) :
    Stops (entry :: entries) (x.map (result :: ·)) (entry :: done) := by
  refine ⟨List.cons_prefix_cons.2 ⟨rfl, h.isPrefix⟩, fun _ => nofun, fun results hresults => ?_⟩
  cases x with
  | ok rest => rw [h.all rest rfl]
  | error e => cases hresults

theorem stops_convertAll (total : Nat) (entries : List Json) (number : Nat) (r : Report) :
    ∃ done, Stops entries (outcome (convertAll total number entries) r).1 done ∧
      Gains r ((refusals done).map issueOf) (outcome (convertAll total number entries) r).2 := by
  induction entries generalizing number r with
  | nil => exact ⟨[], ⟨List.prefix_rfl, id, fun _ _ => rfl⟩, gains_of_adds (chats_pure _ _).adds⟩
  | cons entry entries ih =>
    obtain ⟨warnings, given, console, informed⟩ :=
      chats_info [.str ("Entry " ++ number.repr ++ " of " ++ total.repr)] r
    have one := gains_convertOne entry { r with warnings := warnings, given := given, console := console }
    rw [convertAll, outcome_bind, informed]
    simp only [outcome_bind]
    generalize outcome (convertOne entry) _ = ended at one ⊢
    obtain ⟨x, mid⟩ := ended
    have gained : Gains r ((refusal? entry).toList.map issueOf) mid := ⟨one.issues, one.source⟩
    cases x with
    | error e =>
      refine ⟨[entry], .error entry entries e, ?_⟩
      rw [refusals_cons, refusals, List.filterMap_nil, List.append_nil]
      exact gained
    | ok result =>
      obtain ⟨done, stops, rest⟩ := ih (number + 1) mid
      refine ⟨entry :: done, ?_, ?_⟩
      · rw [← outcome_bind, outcome_return]
        exact stops.cons entry result
      · rw [← outcome_bind, outcome_return, refusals_cons, List.map_append]
        exact gained.trans rest

variable {folder : Folder} {s : Settings} {source : Option Text} {before after : List Json}
  {entry : Json}

/-- A run with `total` entries comes past the first ones: each of them has a result or is refused,
and the limit is not met. -/
def Passes (s : Settings) (source : Option Text) (total : Nat) (before : List Json) : Prop :=
  ∃ results r, outcome (convertAll total 1 before) (.start (s.verbose != 0) s.maxIssues source) =
    (.ok results, r)

theorem gains_attempt (passes : Passes s source (before ++ entry :: after).length before) :
    ∃ done, Gains (.start (s.verbose != 0) s.maxIssues source)
      ((refusals (before ++ entry :: done)).map issueOf)
      (attempt s source (before ++ entry :: after)).2 := by
  obtain ⟨results, r, passed⟩ := passes
  obtain ⟨done, stops, first⟩ := stops_convertAll (before ++ entry :: after).length before 1
    (.start (s.verbose != 0) s.maxIssues source)
  rw [passed] at stops first
  obtain rfl := stops.all results rfl
  obtain ⟨later, stops', rest⟩ := stops_convertAll (done ++ entry :: after).length
    (entry :: after) (1 + done.length) r
  obtain ⟨next, more, rfl⟩ := List.exists_cons_of_ne_nil (stops'.first nofun)
  rw [(List.cons_prefix_cons.1 stops'.isPrefix).1] at rest
  refine ⟨more, ?_⟩
  rw [attempt, convertAll_append, outcome_bind, passed]
  simp only [outcome_return]
  rw [refusals_append, List.map_append]
  exact first.trans rest

/-! ## What is said -/

def printed (lines : List Text) : Text :=
  lines.flatMap (· ++ [.char '\n'])

def Concludes (folder : Folder) (s : Settings) : Except Fault (List Json) → Prop
  | .ok _ => ∀ name ∈ named s.output, ∀ text, ∃ changed, folder.write name text = .ok changed
  | .error e => e = .tooManyIssues

theorem printed_append (lines lines' : List Text) :
    printed (lines ++ lines') = printed lines ++ printed lines' :=
  List.flatMap_append

theorem outcome_giveUp (draw : Nat) (r : Report) : ∃ ending, (outcome (giveUp draw) r).2 =
    { r with console := r.console ++ opening draw r ++ told r.source r.issues ++ ending } := by
  have said := outcome_sayAll draw r
  rw [giveUp, outcome_bind]
  generalize outcome (sayAll draw) r = ended at said ⊢
  obtain ⟨x, r'⟩ := ended
  obtain rfl : r' = _ := said
  cases x with
  | error e => exact ⟨[], by rw [List.append_nil]⟩
  | ok _ =>
    refine ⟨[rule " *" 35, "Giving up after a few issues. One crisis at a time, eh?"], ?_⟩
    simp only [outcome_bind, outcome_say, List.append_assoc, List.cons_append, List.nil_append]

theorem stderr_deliver (draw : Nat) (document : Json) (results : List Json) (r : Report)
    (writable : ∀ name ∈ named s.output, ∀ text, ∃ changed, folder.write name text = .ok changed)
    {run : Run} (h : run = deliver draw s document results r) :
    (perform folder run.status run.actions).stderr =
      printed (r.console ++ (opening draw r ++ told r.source r.issues)) := by
  have said := outcome_sayAll draw { r with console := [] }
  subst h
  unfold deliver
  generalize outcome (sayAll draw) { r with console := [] } = ended at said ⊢
  obtain ⟨x, after⟩ := ended
  obtain rfl : after = _ := said
  rw [printed_append]
  cases hname : named s.output with
  | none => exact congrArg (printed r.console ++ ·) (List.append_nil _)
  | some name =>
    obtain ⟨changed, written⟩ :=
      writable name hname (Text.ofString ((assemble document results).pretty ++ "\n"))
    simp only [perform, written]
    exact congrArg (printed r.console ++ ·) (List.append_nil _)

theorem stderr_complains {input : Input} {x : Except Fault (List Json)} {r : Report}
    (h : readInput folder.read s = some input)
    (attempted : attempt s input.source (entriesOf input.document) = (x, r))
    (concludes : Concludes folder s x) (draw : Nat) : ∃ ending, (runIn folder draw s).stderr =
      printed (r.console ++ opening draw r ++ told r.source r.issues ++ ending) := by
  have converted : outcome (convertAll (entriesOf input.document).length 1
      (entriesOf input.document)) (.start (s.verbose != 0) s.maxIssues input.source) = (x, r) :=
    attempted
  have run_eq : run folder.read draw s = convertInput draw s input := by rw [run, h]
  cases x with
  | error e =>
    obtain rfl : e = .tooManyIssues := concludes
    obtain ⟨ending, gaveUp⟩ := outcome_giveUp draw r
    refine ⟨ending, ?_⟩
    simp only [runIn, run_eq, convertInput, converted, gaveUp]
    exact List.append_nil _
  | ok results =>
    have delivered : run folder.read draw s = deliver draw s input.document results r := by
      simp only [run_eq, convertInput, converted]
    refine ⟨[], ?_⟩
    rw [List.append_nil, List.append_assoc]
    exact stderr_deliver draw input.document results r concludes delivered

/-! ## The picture of an entry -/

theorem source_of_readInput {files : Files} {input : Input} {name source : Text}
    (h : readInput files s = some input) (hname : named s.source = some name)
    (hsource : files name = some source) : input.source = some (unifyBreaks source) := by
  simp only [readInput, hname, readText, hsource, Option.map_some, Option.bind_eq_bind,
    Option.bind_some, Option.bind_eq_some_iff, Option.pure_def, Option.some.injEq] at h
  obtain ⟨_, -, _, -, rfl⟩ := h
  rfl

theorem readInput_named {files : Files} {name source text : Text} {document : Json}
    (hname : named s.source = some name) (hsource : readText files name = some source)
    (htext : readText files s.annotations = some text)
    (hdocument : Json.read text = some document) :
    readInput files s = some ⟨some source, document⟩ := by
  simp [readInput, hname, hsource, htext, hdocument]

/-- The entry is refused at a phrase with a span that covers part of the source, from the offset
on. -/
structure RefusedAt (entry : Json) (refusal : Refusal) (p : Flow.Phrase) (span : Flow.Span)
    (offset : Nat) (source : Text) : Prop where
  refused : alone entry = .error (.refused refusal)
  subject : refusal.subject = some (.phrase p)
  place : p.span = some span
  start : span.start.offset = offset
  wide : span.start.offset < span.stop.offset
  inside : span.stop.offset ≤ source.length

/-- A run comes to an entry, later it comes to its complaints, and it can tell those about the
entries before. -/
structure Complains (folder : Folder) (s : Settings) (input : Input) (before : List Json) :
    Prop where
  reads : readInput folder.read s = some input
  passes : Passes s input.source (entriesOf input.document).length before
  concludes : Concludes folder s (attempt s input.source (entriesOf input.document)).1
  tellable : Tellable input.source ((refusals before).map issueOf)

def saidBefore (draw : Nat) (r : Report) (before : List Json) (refusal : Refusal) : Text :=
  printed (r.console ++ opening draw r ++ told r.source ((refusals before).map issueOf) ++
    [rule "  -" 20]) ++ ((issueOf refusal).intro ++ "\n\n")

theorem Complains.stderr {input : Input} {refusal : Refusal} (h : Complains folder s input before)
    (entries : entriesOf input.document = before ++ entry :: after)
    (refused : refusal? entry = some refusal) {p : Flow.Phrase}
    (subject : refusal.subject = some (.phrase p)) {picture : Text}
    (depicted : depict input.source (.phrase p) usualCaption = .ok picture) (draw : Nat) :
    ∃ ending, (runIn folder draw s).stderr =
      saidBefore draw (attempt s input.source (entriesOf input.document)).2 before refusal ++
        picture ++ .char '\n' :: ending := by
  have passes := h.passes
  rw [entries] at passes
  obtain ⟨done, gained⟩ := gains_attempt passes
  rw [← entries] at gained
  have text : textOf input.source (issueOf refusal) =
      .ok ((issueOf refusal).intro ++ "\n\n" ++ picture) := by
    simp only [textOf, issueOf, subject]
    exact bind_of_eq depicted rfl
  have concludes := h.concludes
  cases attempted : attempt s input.source (entriesOf input.document) with
  | mk x r =>
    rw [attempted] at gained concludes
    obtain ⟨ending, said⟩ := stderr_complains h.reads attempted concludes draw
    have source : r.source = input.source := gained.source
    have issues : r.issues =
        (refusals before).map issueOf ++ issueOf refusal :: (refusals done).map issueOf := by
      rw [gained.issues, refusals_append, refusals_cons, refused, List.map_append]
      rfl
    refine ⟨printed (told input.source ((refusals done).map issueOf) ++ ending), ?_⟩
    rw [said, issues, source, told_append h.tellable, told_cons text, saidBefore]
    simp only [printed, List.flatMap_append, List.flatMap_cons, List.flatMap_nil, List.append_assoc,
      List.cons_append, List.nil_append, List.append_nil, source]

/-- A run shows a refused entry in the right place, which is the line that holds its first point,
just if no carriage return with a line feed ends there or before. -/
theorem complaint_pictures_iff {args : List Text} {input : Input} {name source : Text}
    {refusal : Refusal} {p : Flow.Phrase} {span : Flow.Span} {offset : Nat}
    (parsed : parse usualLimit args = .ok (.convert s)) (hname : named s.source = some name)
    (hsource : folder.read name = some source) (complains : Complains folder s input before)
    (entries : entriesOf input.document = before ++ entry :: after)
    (refused : RefusedAt entry refusal p span offset source) (draw : Nat) :
    ∃ l : Line, l.In source ∧ l.Holds source offset ∧
      (∀ l' : Line, l'.In source → l'.Holds source offset → l' = l) ∧
      ∃ picture ending, depict input.source (.phrase p) usualCaption = .ok picture ∧
        (effect folder draw args).stderr =
          saidBefore draw (attempt s input.source (entriesOf input.document)).2 before refusal ++
            picture ++ .char '\n' :: ending ∧
        ((∃ carets, 0 < carets ∧ Pictures source l offset carets usualCaption picture) ↔
          ¬pair <:+: source.take (offset + 1)) := by
  have inside : offset < source.length := by
    have start := refused.start
    have stop := Int.lt_of_lt_of_le refused.wide refused.inside
    omega
  have unified := source_of_readInput complains.reads hname hsource
  have depicted : depict input.source (.phrase p) usualCaption =
      .ok (pointed (unifyBreaks source) span usualCaption) := by
    simp only [depict, unified, refused.place]
  obtain ⟨ending, said⟩ := complains.stderr entries (refusal?_eq_some.2 refused.refused)
    refused.subject depicted draw
  obtain ⟨l, hl, last⟩ := Line.exists_last source offset
  have holds := (hl.holds_iff (Nat.le_of_lt inside)).2 last
  refine ⟨l, hl, holds, fun l' hl' holds' => hl'.eq_of_holds hl (Nat.le_of_lt inside) holds' holds,
    _, ending, depicted, ?_, ?_⟩
  · rw [effect_eq_runIn parsed]
    exact said
  · exact pictures_unified_iff hl holds inside refused.start usualCaption

def paired : Text :=
  "// @flow\r\ntype F = \x7b\r\n  (\r\n  ): void\r\n\x7d;\r\n"

def pairedPhrase : Flow.Phrase :=
  .callProperty (some ⟨.int 24, .int 36⟩)
    (.callable none .ofType [] (some (.primitive none .void)) none none) false

def pairedEntry : Json :=
  .object [("type", .str "ObjectTypeAnnotation"), ("callProperties", .array [
    .object [("type", .str "ObjectTypeCallProperty"), ("start", .int 24), ("end", .int 36),
      ("value", .object [("type", .str "FunctionTypeAnnotation"), ("params", .array []),
        ("returnType", .object [("type", .str "VoidTypeAnnotation")])])]])]

def pairedText : Text :=
  "\x7b\"type\": \"ObjectTypeAnnotation\", \"callProperties\": " ++
  "[\x7b\"type\": \"ObjectTypeCallProperty\", \"start\": 24, \"end\": 36, " ++
  "\"value\": \x7b\"type\": \"FunctionTypeAnnotation\", \"params\": [], " ++
  "\"returnType\": \x7b\"type\": \"VoidTypeAnnotation\"\x7d\x7d\x7d]\x7d"

def pairedFolder : Folder :=
  ⟨[(["in"], some pairedText), (["a"], some paired)]⟩

def pairedSettings : Settings :=
  ⟨"in", some "a", none, 0, some usualLimit⟩

theorem parse_paired : parse usualLimit ["-s", "a", "in"] = .ok (.convert pairedSettings) := by
  with_unfolding_all rfl

theorem readInput_paired :
    readInput pairedFolder.read pairedSettings = some ⟨some (unifyBreaks paired), pairedEntry⟩ := by
  have source : readText pairedFolder.read "a" = some (unifyBreaks paired) := by decide +kernel
  have text : readText pairedFolder.read "in" = some pairedText := by decide +kernel
  have document : Json.read pairedText = some pairedEntry := by decide +kernel
  exact readInput_named (by decide +kernel) source text document

def pairedRefusal : Refusal where
  kind := .str "ObjectTypeCallProperty"
  message :=
    .str "Call properties would become TSCallSignatureDeclaration, which is not supported yet."
  subject := some (.phrase pairedPhrase)

theorem refused_paired :
    RefusedAt pairedEntry pairedRefusal pairedPhrase ⟨.int 24, .int 36⟩ 24 paired := by
  have read : Flow.read pairedEntry = .ok (.object none [] [] [pairedPhrase] false) := by
    with_unfolding_all rfl
  refine ⟨?_, rfl, rfl, rfl, by decide, by decide⟩
  rw [alone_eq, read]
  rfl

theorem complains_paired : Complains pairedFolder pairedSettings
    ⟨some (unifyBreaks paired), pairedEntry⟩ [] := by
  have refused := refusal?_eq_some.2 refused_paired.refused
  have one : Adds (convertAll 1 1 [pairedEntry])
      (.start false (some usualLimit) (some (unifyBreaks paired)))
      (.ok [resultOf pairedEntry]) ([issueOf pairedRefusal] ++ []) := by
    refine (chats_info _ _).adds.bind_nil fun _ _ _ => ?_
    refine (adds_convertOne_refused refused ?_).bind fun _ _ _ => (chats_pure _ _).adds
    exact (by decide : some usualLimit ≠ some 1)
  obtain ⟨_, _, _, attempted⟩ := one
  refine ⟨readInput_paired, ⟨[], _, rfl⟩, ?_, nofun⟩
  have ended : (attempt pairedSettings (some (unifyBreaks paired)) (entriesOf pairedEntry)).1 =
    .ok [resultOf pairedEntry] := congrArg Prod.fst attempted
  rw [ended]
  exact nofun

theorem complaint_pictures_iff_paired :
    parse usualLimit ["-s", "a", "in"] = .ok (.convert pairedSettings) ∧
    named pairedSettings.source = some (Text.ofString "a") ∧
    pairedFolder.read "a" = some paired ∧
    Complains pairedFolder pairedSettings ⟨some (unifyBreaks paired), pairedEntry⟩ [] ∧
    RefusedAt pairedEntry pairedRefusal pairedPhrase ⟨.int 24, .int 36⟩ 24 paired ∧
    ∃ l : Line, l.In paired ∧ l.Holds paired 24 ∧ ∃ picture ending,
      (effect pairedFolder 0 ["-s", "a", "in"]).stderr =
        saidBefore 0 (attempt pairedSettings (some (unifyBreaks paired)) [pairedEntry]).2 []
          pairedRefusal ++ picture ++ .char '\n' :: ending ∧
      ¬∃ carets, 0 < carets ∧ Pictures paired l 24 carets usualCaption picture := by
  have name : named pairedSettings.source = some (Text.ofString "a") := by decide +kernel
  have source : pairedFolder.read "a" = some paired := by decide +kernel
  have entries : entriesOf pairedEntry = [] ++ pairedEntry :: [] := rfl
  obtain ⟨l, hl, holds, -, picture, ending, -, said, right⟩ := complaint_pictures_iff parse_paired
    name source complains_paired entries refused_paired 0
  have early : pair <:+: paired.take (24 + 1) := by decide
  exact ⟨parse_paired, name, source, complains_paired, refused_paired, l, hl, holds, picture,
    ending, said, fun shown => right.1 shown early⟩

def pairedPicture : Text :=
  "     4 |  ): void\n        ^^^^^^^^^^ this part"

theorem depict_paired :
    depict (some (unifyBreaks paired)) (.phrase pairedPhrase) usualCaption = .ok pairedPicture := by
  have shown : pointed (unifyBreaks paired) ⟨.int 24, .int 36⟩ usualCaption = pairedPicture := by
    decide +kernel
  exact congrArg Except.ok shown

theorem complaint_misplaced :
    (∃ before after, (effect pairedFolder 0 ["-s", "a", "in"]).stderr =
      before ++ pairedPicture ++ .char '\n' :: after) ∧
    RefusedAt pairedEntry pairedRefusal pairedPhrase ⟨.int 24, .int 36⟩ 24 paired ∧
    Line.In ⟨3, 22, 27⟩ paired ∧ Line.Holds ⟨3, 22, 27⟩ paired 24 ∧
    ¬∃ carets, Pictures paired ⟨3, 22, 27⟩ 24 carets usualCaption pairedPicture := by
  refine ⟨?_, refused_paired, ?_, ?_, ?_⟩
  · have entries : entriesOf pairedEntry = [] ++ pairedEntry :: [] := rfl
    obtain ⟨ending, said⟩ := complains_paired.stderr entries
      (refusal?_eq_some.2 refused_paired.refused) rfl depict_paired 0
    rw [effect_eq_runIn parse_paired]
    exact ⟨_, ending, said⟩
  · exact Line.in_of_between (by decide +kernel) (by decide +kernel)
  · exact ⟨by decide, .inl (by decide)⟩
  · -- The number shown is another one.
    intro ⟨carets, shown⟩
    have number := shown.number
    revert number
    decide +kernel

end Command

end Reannotate
