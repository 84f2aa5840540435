import Reannotate.Proofs.Formation
import Reannotate.Proofs.Reporting

/-!
# Warnings in a report

A report takes over the warnings of a conversion: those that it has not given yet, each once and in
order (`Report.news`). What it holds already has no influence on the result, and a second conversion
of the same tree changes nothing (`converting_warns`).
-/

namespace Reannotate

open Reannotate.Flow (Phrase Role)
open Reannotate.TypeScript (Node)

namespace Report

/-- The warnings that the report has not given yet, each once, in order of first mention. -/
def news (r : Report) (ws : List Warning) : List Warning :=
  (ws.filter fun w => Scalar.str w.text ∉ r.given).eraseDups

def warned (r : Report) (ws : List Warning) : Report :=
  { r with
    warnings := r.warnings ++ ws.map fun w => .str w.text
    given := (ws.map fun w => .str w.text).reverse ++ r.given
    console := if r.verbose then r.console ++ ws.map fun w => Text.join " " ["Warning:", w.text]
      else r.console }

theorem text_inj {v w : Warning} : Text.ofString v.text = Text.ofString w.text ↔ v = w := by
  rw [Text.ofString_inj]
  cases v <;> cases w <;> decide

theorem warned_nil (r : Report) : r.warned [] = r := by
  simp [warned]

theorem warned_append (r : Report) (vs ws : List Warning) :
    (r.warned vs).warned ws = r.warned (vs ++ ws) := by
  cases hv : r.verbose <;> simp [warned, hv]

theorem outcome_warn_old {w : Warning} {r : Report} (h : Scalar.str w.text ∈ r.given) :
    outcome (warn (.str w.text)) r = (.ok false, r) := by
  rw [outcome_warn, if_pos h]

theorem outcome_warn_new {w : Warning} {r : Report} (h : Scalar.str w.text ∉ r.given) :
    outcome (warn (.str w.text)) r = (.ok true, r.warned [w]) := by
  rw [outcome_warn, if_neg h]
  rfl

theorem news_cons_old {w : Warning} {r : Report} (h : Scalar.str w.text ∈ r.given)
    (ws : List Warning) : r.news (w :: ws) = r.news ws := by
  simp [news, h]

theorem news_cons_new {w : Warning} {r : Report} (h : Scalar.str w.text ∉ r.given)
    (ws : List Warning) : r.news (w :: ws) = w :: (r.warned [w]).news ws := by
  -- Whether `w` is dropped for being in the report or for having been met comes to the same.
  have rest : (ws.filter fun v => Scalar.str v.text ∉ r.given).filter (fun v => !v == w) =
      ws.filter fun v => Scalar.str v.text ∉ (r.warned [w]).given := by
    rw [List.filter_filter]
    refine List.filter_congr fun v _ => ?_
    by_cases same : v = w
    · simp [same, warned]
    · simp [same, warned, text_inj]
  rw [news, List.filter_cons_of_pos (by simpa using h), List.eraseDups_cons, rest]
  rfl

theorem outcome_warnEach (ws : List Warning) (r : Report) :
    outcome (forIn ws () fun w _ => do
      let _ ← warn (.str w.text)
      return .yield ()) r = (.ok (), r.warned (r.news ws)) := by
  induction ws generalizing r with
  | nil =>
    rw [news, List.filter_nil, List.eraseDups_nil, warned_nil]
    rfl
  | cons w ws ih =>
    rw [List.forIn_cons, outcome_bind]
    by_cases h : Scalar.str w.text ∈ r.given
    · rw [outcome_bind, outcome_warn_old h, news_cons_old h]
      exact ih r
    · have split : r.warned (w :: (r.warned [w]).news ws) =
          (r.warned [w]).warned ((r.warned [w]).news ws) := (warned_append r [w] _).symm
      rw [outcome_bind, outcome_warn_new h, news_cons_new h, split]
      exact ih (r.warned [w])

theorem news_warned (r : Report) (ws : List Warning) : (r.warned (r.news ws)).news ws = [] := by
  have known : ∀ w ∈ ws, Scalar.str w.text ∈ (r.warned (r.news ws)).given := by
    intro w hw
    rw [warned, List.mem_append, List.mem_reverse]
    by_cases h : Scalar.str w.text ∈ r.given
    · exact .inr h
    · refine .inl (List.mem_map.2 ⟨w, ?_, rfl⟩)
      exact List.mem_eraseDups.2 (List.mem_filter.2 ⟨hw, by simpa using h⟩)
  have nothing : (ws.filter fun w => Scalar.str w.text ∉ (r.warned (r.news ws)).given) = [] := by
    rw [List.filter_eq_nil_iff]
    intro w hw
    simpa using known w hw
  rw [news, nothing, List.eraseDups_nil]

theorem outcome_converting {α : Type} (c : Converting α) (r : Report) :
    outcome (converting c) r = ((c.outcome .empty).1,
      r.warned (r.news (c.outcome .empty).2.warnings)) := by
  unfold converting
  rcases c.outcome .empty with ⟨result, log⟩
  rw [outcome_bind, outcome_warnEach]
  exact outcome_lift result _

end Report

/-- Whatever a report holds, the conversion of a well-kinded tree ends as it does with an empty one.
The warnings of the tree's course are added that the report has not given yet, and nothing else
changes but the console. A second conversion ends alike and changes nothing. -/
theorem converting_warns {names : Names} (answers : names.Answers) {p : Phrase} (hp : p.WellKinded)
    (role : Role Bool) (r : Report) :
    ∃ x after, Report.outcome (Report.converting (Converting.convert names p role)) r = (x, after) ∧
      Yields x (fun _ => (p.course names).stopped = false)
        (fun e => (p.course names).stopped = true ∧ e.IsRefusal) ∧
      (∀ other,
        (Report.outcome (Report.converting (Converting.convert names p role)) other).1 = x) ∧
      after = r.warned (r.news (p.course names).warnings) ∧ after.issues = r.issues ∧
      Report.outcome (Report.converting (Converting.convert names p role)) after = (x, after) := by
  have ⟨warnings, ends⟩ := hp.follows answers role .empty
  have runs : ∀ r : Report, Report.outcome (Report.converting (Converting.convert names p role)) r =
      (((Converting.convert names p role).outcome .empty).1,
        r.warned (r.news (p.course names).warnings)) := by
    intro r
    rw [Report.outcome_converting, warnings]
    rfl
  refine ⟨_, _, runs r, ?_, ?_, rfl, rfl, ?_⟩
  · exact ends.mono (fun _ h => h.1) fun _ h => h
  · intro other
    rw [runs other]
  · rw [runs, Report.news_warned, Report.warned_nil]

/-- `Array<*> | $Exact<{| a: * |}> | Object<$Keys<*>, $Keys>`. -/
def lossy : Phrase :=
  let star := Phrase.primitive none .exists
  .group none .union [
    .generic none (.plain none "Array") (some [star]),
    .generic none (.plain none "$Exact") (some [
      .object none [.property none ⟨.str "a", false⟩ star false none ⟨[], [], []⟩] [] [] true]),
    .generic none (.plain none "Object") (some [
      .generic none (.plain none "$Keys") (some [star]), .generic none (.plain none "$Keys") none])]

theorem converting_warns_lossy : lossy.WellKinded ∧
    ∃ e after, Report.outcome (Report.converting (Converting.convert .usual lossy .other))
      { Report.start false none none with
        warnings := [.str Warning.exactObject.text], given := [.str Warning.exactObject.text] } =
        (.error (.refused e), after) ∧
      after.warnings = [Warning.exactObject, .existential].map fun w => .str w.text := by
  have kinded : lossy.WellKinded := by
    simp [lossy, Phrase.Fits, Json.Textual, Flow.Comments.Textual]
  obtain ⟨x, after, run, ends, -, grown, -⟩ := converting_warns Names.usual_answers kinded .other
    { Report.start false none none with
      warnings := [.str Warning.exactObject.text], given := [.str Warning.exactObject.text] }
  have events : lossy.course .usual =
      ⟨[.existential, .exactObject, .existential, .exactObject, .existential], true⟩ := by
    decide +kernel
  rw [events] at ends grown
  cases x with
  | ok node => cases ends
  | error e =>
    obtain ⟨-, refusal, rfl⟩ := ends
    refine ⟨kinded, refusal, after, run, ?_⟩
    rw [grown]
    decide +kernel

end Reannotate
