import Mathlib
import Reannotate.Proofs.Sameness
import Reannotate.TypeScript.Rendering

/-!
# Spelled literals

The spelling of a text can be read back: between its double quotes, a backslash announces a
backslash or a double quote, and neither of them stands there unannounced. What a spelling starts
with tells texts, numbers and truth values apart. So literals that are spelled alike are one literal
(`literals_unambiguous`).
-/

namespace Reannotate

def Text.replaced (s : Text) (old : Point) (new : Text) : Text :=
  s.flatMap fun p => if p = old then new else [p]

namespace TypeScript

/-! ## Texts -/

def isSpecial (p : Point) : Bool :=
  p = .char '\\' || p = .char '"'

def escapedPoint (p : Point) : Text :=
  if isSpecial p then [.char '\\', p] else [p]

/-- Reads what is between the double quotes, from left to right. It gives up at a double quote that
no backslash announces, and at a backslash that announces nothing. -/
def unescaped? : Text → Option Text
  | [] => some []
  | .char '\\' :: .char '\\' :: rest => (unescaped? rest).map (.char '\\' :: ·)
  | .char '\\' :: .char '"' :: rest => (unescaped? rest).map (.char '"' :: ·)
  | p :: rest => if isSpecial p then none else (unescaped? rest).map (p :: ·)

theorem doubleQuoted_eq (s : Text) :
    doubleQuoted s = .char '"' :: (s.flatMap escapedPoint ++ [.char '"']) :=
  rfl

theorem isSpecial_iff {p : Point} : isSpecial p = true ↔ p = .char '\\' ∨ p = .char '"' := by
  simp [isSpecial]

/-- The two replacements come to one that goes point by point. Backslashes have to be first, since
those that come with the double quotes are not to be doubled. -/
theorem replaced_replaced (s : Text) :
    (s.replaced (.char '\\') [.char '\\', .char '\\']).replaced (.char '"')
      [.char '\\', .char '"'] = s.flatMap escapedPoint := by
  rw [Text.replaced, Text.replaced, List.flatMap_assoc]
  apply List.flatMap_congr
  intro p _
  by_cases backslash : p = .char '\\'
  · subst backslash
    rfl
  · by_cases quote : p = .char '"'
    · subst quote
      rfl
    · simp [escapedPoint, isSpecial, backslash, quote]

theorem unescaped?_cons {p : Point} (h : ¬isSpecial p) (rest : Text) :
    unescaped? (p :: rest) = (unescaped? rest).map (p :: ·) := by
  have notBackslash : p ≠ .char '\\' := fun backslash => h (isSpecial_iff.2 (.inl backslash))
  -- The two equations that come before this one start with a backslash.
  rw [unescaped?, if_neg h]
  · exact fun _ backslash => absurd backslash notBackslash
  · exact fun _ backslash => absurd backslash notBackslash

theorem unescaped?_escapedPoint (p : Point) (rest : Text) :
    unescaped? (escapedPoint p ++ rest) = (unescaped? rest).map (p :: ·) := by
  by_cases special : isSpecial p
  · rcases isSpecial_iff.1 special with rfl | rfl <;> rfl
  · have alone : escapedPoint p = [p] := if_neg special
    rw [alone, List.singleton_append, unescaped?_cons special]

theorem unescaped?_escaped (s : Text) : unescaped? (s.flatMap escapedPoint) = some s := by
  induction s with
  | nil => rfl
  | cons p s ih => rw [List.flatMap_cons, unescaped?_escapedPoint, ih, Option.map_some]

theorem doubleQuoted_inj {s t : Text} (h : doubleQuoted s = doubleQuoted t) : s = t := by
  rw [doubleQuoted_eq, doubleQuoted_eq, List.cons_inj_right, List.append_cancel_right_eq] at h
  apply Option.some.inj
  rw [← unescaped?_escaped s, h, unescaped?_escaped]

/-! ## What spellings start with -/

def Opens (p : Point) : Scalar → Prop
  | .bool _ => p = .char 't' ∨ p = .char 'f'
  | .int _ => p = .char '-' ∨ p.satisfies Char.isDigit = true
  | .str _ => p = .char '"'
  | .null | .float _ => False

theorem exists_opens_int (n : Int) :
    ∃ p rest, literalSpelling (.int n) = p :: rest ∧ Opens p (.int n) := by
  cases n with
  | negSucc m =>
    have spelled : literalSpelling (.int (.negSucc m)) =
        .char '-' :: Text.ofString (m + 1).repr := by
      simp [literalSpelling, Scalar.spelled, Int.repr, Text.ofString, Text.ofChars]
    exact ⟨_, _, spelled, .inl rfl⟩
  | ofNat m =>
    cases digits : Text.ofString m.repr with
    | nil => simp [Text.ofString, Text.ofChars] at digits
    | cons p rest =>
      have digit : p ∈ Text.ofString m.repr := by simp [digits]
      exact ⟨p, rest, digits, .inr (Text.satisfies_of_mem_repr digit)⟩

theorem exists_opens {v : Scalar} (h : v.Whole) :
    ∃ p rest, literalSpelling v = p :: rest ∧ Opens p v := by
  cases v with
  | null | float => exact h.elim
  | bool b =>
    cases b with
    | true => exact ⟨_, _, rfl, .inl rfl⟩
    | false => exact ⟨_, _, rfl, .inr rfl⟩
  | int n => exact exists_opens_int n
  | str s => exact ⟨_, _, doubleQuoted_eq s, rfl⟩

theorem sameKind_of_opens {p : Point} {v w : Scalar} (hv : Opens p v) (hw : Opens p w) :
    v.sameKind w = true := by
  cases v with
  | null | float => exact hv.elim
  | bool =>
    cases w with
    | bool => rfl
    | _ => rcases hv with rfl | rfl <;> simp [Opens, Point.satisfies] at hw
  | int =>
    cases w with
    | int => rfl
    | null | float => exact hw.elim
    | bool => rcases hw with rfl | rfl <;> simp [Opens, Point.satisfies] at hv
    | str =>
      obtain rfl : p = .char '"' := hw
      simp [Opens, Point.satisfies] at hv
  | str =>
    obtain rfl : p = .char '"' := hv
    cases w with
    | str => rfl
    | _ => simp [Opens, Point.satisfies] at hw

/-! ## Literals -/

theorem eq_of_literalSpelling {v w : Scalar} (hv : v.Whole) (hw : w.Whole)
    (h : literalSpelling v = literalSpelling w) : v = w := by
  obtain ⟨p, rest, spelled, opens⟩ := exists_opens hv
  obtain ⟨q, rest', spelled', opens'⟩ := exists_opens hw
  obtain rfl : p = q := by
    rw [spelled, spelled'] at h
    exact (List.cons.inj h).1
  have kind := sameKind_of_opens opens opens'
  cases v with
  | null | float => exact hv.elim
  | bool b =>
    cases w with
    | bool c => cases b <;> cases c <;> first | rfl | cases h
    | _ => cases kind
  | int m =>
    cases w with
    | int n => rw [Int.repr_inj.1 (Text.ofString_inj.1 h)]
    | _ => cases kind
  | str s =>
    cases w with
    | str t => rw [doubleQuoted_inj h]
    | _ => cases kind

/-- A text is spelled between double quotes, once its backslashes are doubled and then its double
quotes given a backslash each. What stands between can be read without giving up, and is the text
again. Truth values, whole numbers and texts are spelled alike only if they are equal and of one
kind, so that they are the same literal. -/
theorem literals_unambiguous :
    (∀ s : Text, ∃ body,
      literalSpelling (.str s) = .char '"' :: (body ++ [.char '"']) ∧
      body = (s.replaced (.char '\\') [.char '\\', .char '\\']).replaced (.char '"')
        [.char '\\', .char '"'] ∧
      unescaped? body = some s) ∧
    ∀ v w : Scalar, v.Whole → w.Whole →
      (literalSpelling v = literalSpelling w ↔ v = w) ∧
      (v = w ↔ (Node.literal v).same (.literal w) = true) := by
  constructor
  · intro s
    exact ⟨s.flatMap escapedPoint, doubleQuoted_eq s, (replaced_replaced s).symm,
      unescaped?_escaped s⟩
  · intro v w hv hw
    refine ⟨⟨eq_of_literalSpelling hv hw, congrArg _⟩, ?_⟩
    rw [Node.same]
    constructor
    · rintro rfl
      exact v.sameLiteral_refl
    · exact hv.eq_of_sameLiteral

theorem literals_unambiguous_one :
    (Scalar.int 1).Whole ∧ (Scalar.bool true).Whole ∧ (Scalar.int 1).alike (.bool true) = true ∧
      literalSpelling (.int 1) ≠ literalSpelling (.bool true) ∧
      ¬(Node.literal (.int 1)).same (.literal (.bool true)) = true := by
  have ⟨spelling, same⟩ := literals_unambiguous.2 (.int 1) (.bool true) trivial trivial
  have differ : Scalar.int 1 ≠ .bool true := nofun
  exact ⟨trivial, trivial, rfl, mt spelling.1 differ, mt same.2 differ⟩

end TypeScript

end Reannotate
