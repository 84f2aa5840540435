import Reannotate.Proofs.Escapes
import Reannotate.Proofs.Numerals

/-!
# Documents read back

A document that was written is read as the same document (`read_pretty`), provided that its scalars
can be told by their texts (`Json.Legible`) and that no object has two fields of one name
(`Json.Distinct`).
-/

namespace Reannotate

open Text (ofChars ofString)

/-! ## Scalars -/

/-- What is written for the scalar tells which scalar it is. -/
def Scalar.Legible : Scalar → Prop
  | .int n => (Nat.toDigits 10 n.natAbs).length ≤ Text.digitLimit
  | .float (.finite _ m e) => Binary64.Canonical m e
  | .str s => Json.Unpaired s
  | _ => True

namespace Json

theorem readWord_digit {c : Char} (h : c.isDigit = true) (s : Text) :
    readWord (.char c :: s) = none ∧ readWord (.char '-' :: .char c :: s) = none := by
  have differs : ∀ d : Char, d.isDigit = false → d ≠ c := fun _ hd => (ne_of_isDigit h hd).symm
  constructor
  · simp [readWord, words, expect, Text.ofString, ofChars, List.isPrefixOf?, differs]
  · simp [readWord, words, expect, Text.ofString, ofChars, List.isPrefixOf?, differs]

theorem readScalar_digit {c : Char} (h : c.isDigit = true) (s : Text) :
    readScalar (.char c :: s) = readUnsigned false (.char c :: s) ∧
      readScalar (.char '-' :: .char c :: s) = readUnsigned true (.char c :: s) := by
  obtain ⟨plain, signed⟩ := readWord_digit h s
  constructor
  · have quote : c ≠ '"' := ne_of_isDigit h rfl
    have minus : c ≠ '-' := ne_of_isDigit h rfl
    simp [readScalar, plain, quote, minus]
  · simp [readScalar, signed]

theorem readScalar_signed (negative : Bool) {digits : List Char}
    (h : ∃ c t, digits = c :: t ∧ c.isDigit = true) (rest : Text) :
    readScalar (ofChars ((if negative then ['-'] else []) ++ digits) ++ rest) =
      readUnsigned negative (ofChars digits ++ rest) := by
  obtain ⟨c, t, rfl, digit⟩ := h
  have ⟨plain, signed⟩ := readScalar_digit digit (ofChars t ++ rest)
  cases negative
  · exact plain
  · exact signed

theorem ofString_repr (n : Int) : ofString n.repr =
    ofChars ((if decide (n < 0) then ['-'] else []) ++ Nat.toDigits 10 n.natAbs) := by
  cases n with
  | ofNat n =>
    have nonneg : ¬(n : Int) < 0 := by omega
    simp [Int.repr, ofString, nonneg]
  | negSucc n => simp [Int.repr, ofString]

theorem ofString_append (s t : String) : ofString (s ++ t) = ofString s ++ ofString t := by
  simp [ofString, ofChars]

theorem exists_toDigits (n : Nat) : ∃ c t, Nat.toDigits 10 n = c :: t ∧ c.isDigit = true := by
  obtain ⟨c, t, text⟩ := List.exists_cons_of_ne_nil (Nat.toDigits_ne_nil (n := n) (b := 10))
  exact ⟨c, t, text, isDigits_toDigits n c (text ▸ List.mem_cons_self)⟩

theorem ofString_finite (negative : Bool) (m : Nat) (e : Int) :
    ofString (scalarLiteral (.float (.finite negative m e))) =
      ofChars ((if negative then ['-'] else []) ++ Binary64.unsigned m e) := by
  simp [scalarLiteral, Binary64.textWith, ofString]

theorem ofString_textLiteral (s rest : Text) :
    ofString (textLiteral s) ++ rest = .char '"' :: quoted s rest := by
  simp [textLiteral, ofString, ofChars, quoted]

theorem readScalar_quote {s t after : Text} (h : readText (s.length + 1) [] s = some (t, after)) :
    readScalar (.char '"' :: s) = some (.str t, after) := by
  have no_word : readWord (.char '"' :: s) = none := rfl
  simp [readScalar, no_word, h]

theorem readScalar_literal {s : Scalar} (h : s.Legible) {rest : Text} (stops : Stops rest) :
    readScalar (ofString (scalarLiteral s) ++ rest) = some (s, rest) := by
  cases s with
  | null => rfl
  | bool b => cases b <;> rfl
  | int n =>
    have signed : (if decide (n < 0) = true then -(n.natAbs : Int) else n.natAbs) = n := by
      split
      · next neg =>
        have := of_decide_eq_true neg
        omega
      · next nonneg =>
        have := of_decide_eq_false (Bool.eq_false_iff.2 nonneg)
        omega
    rw [scalarLiteral, ofString_repr, readScalar_signed _ (exists_toDigits n.natAbs),
      readUnsigned_repr _ h stops, signed]
  | float x =>
    cases x with
    | finite negative m e =>
      obtain ⟨n, proper, text, double⟩ := exists_numeral h
      rw [ofString_finite, ← text, readScalar_signed _ proper.exists_cons,
        readUnsigned_numeral _ proper stops, double]
    | infinite negative => cases negative <;> rfl
    | nan => rfl
  | str s =>
    rw [scalarLiteral, ofString_textLiteral]
    exact readScalar_quote (readText_name h rest)

/-! ## Documents -/

/-- All scalars in the document are as `S` says, and the fields' names of each object as `N` says. -/
inductive Everywhere (S : Scalar → Prop) (N : List Text → Prop) : Json → Prop
  | scalar {s : Scalar} (h : S s) : Everywhere S N (.scalar s)
  | array {items : List Json} (h : ∀ j ∈ items, Everywhere S N j) : Everywhere S N (.array items)
  | object {fields : List (Text × Json)} (names : N (fields.map Prod.fst))
      (h : ∀ f ∈ fields, Everywhere S N f.2) : Everywhere S N (.object fields)

section
variable {S : Scalar → Prop} {N : List Text → Prop} {s : Scalar} {js : List Json}
  {fs : List (Text × Json)}

theorem Everywhere.literal (h : (Json.scalar s).Everywhere S N) : S s := by
  cases h with
  | scalar h => exact h

theorem Everywhere.items (h : (Json.array js).Everywhere S N) :
    ∀ j ∈ js, j.Everywhere S N := by
  cases h with
  | array h => exact h

theorem Everywhere.names (h : (Json.object fs).Everywhere S N) : N (fs.map Prod.fst) := by
  cases h with
  | object names h => exact names

theorem Everywhere.values (h : (Json.object fs).Everywhere S N) :
    ∀ f ∈ fs, f.2.Everywhere S N := by
  cases h with
  | object names h => exact h

end

def Legible (j : Json) : Prop :=
  j.Everywhere Scalar.Legible fun names => ∀ name ∈ names, Unpaired name

/-- No object has two fields of one name. -/
def Distinct (j : Json) : Prop :=
  j.Everywhere (fun _ => True) List.Nodup

/-! ## Gaps -/

def Solid (s : Text) : Prop :=
  ∀ p ∈ s.head?, p.satisfies isGap = false

theorem skipGap_solid {s : Text} (h : Solid s) : skipGap s = s := by
  cases s with
  | nil => rfl
  | cons p s => exact List.dropWhile_cons_of_neg (by simp [h p rfl])

theorem skipGap_newline (depth : Nat) {s : Text} (h : Solid s) :
    skipGap (ofString (newline depth) ++ s) = s := by
  rw [skipGap, List.dropWhile_append_of_pos]
  · exact skipGap_solid h
  · intro p hp
    simp only [newline, ofString, String.toList_ofList, ofChars, List.map_cons,
      List.map_replicate] at hp
    rcases List.mem_cons.1 hp with rfl | hp
    · rfl
    · rw [List.eq_of_mem_replicate hp]
      rfl

theorem solid_cons {c : Char} (h : isGap c = false) (s : Text) : Solid (.char c :: s) := by
  rintro _ ⟨⟩
  exact h

/-- What a scalar starts with is no white space and no bracket. -/
structure Marks (c : Char) : Prop where
  solid : isGap c = false
  bracket : c ∉ ['[', ']', '\x7b', '\x7d']

theorem marks_of_isDigit {c : Char} (h : c.isDigit = true) : Marks c := by
  have differs : ∀ d : Char, d.isDigit = false → c ≠ d := fun _ hd => ne_of_isDigit h hd
  constructor
  · simp [isGap, differs]
  · simp [differs]

theorem marks_of_signed (negative : Bool) {digits : List Char}
    (h : ∃ c t, digits = c :: t ∧ c.isDigit = true) :
    ∃ c t, ofChars ((if negative then ['-'] else []) ++ digits) = .char c :: t ∧ Marks c := by
  obtain ⟨c, t, rfl, digit⟩ := h
  cases negative
  · exact ⟨c, ofChars t, rfl, marks_of_isDigit digit⟩
  · exact ⟨'-', ofChars (c :: t), rfl, rfl, by decide⟩

theorem marks_scalarLiteral {s : Scalar} (h : s.Legible) :
    ∃ c t, ofString (scalarLiteral s) = .char c :: t ∧ Marks c := by
  cases s with
  | null => exact ⟨'n', ofString "ull", rfl, rfl, by decide⟩
  | bool b =>
    cases b
    · exact ⟨'f', ofString "alse", rfl, rfl, by decide⟩
    · exact ⟨'t', ofString "rue", rfl, rfl, by decide⟩
  | int n =>
    rw [scalarLiteral, ofString_repr]
    exact marks_of_signed _ (exists_toDigits n.natAbs)
  | float x =>
    cases x with
    | finite negative m e =>
      obtain ⟨n, proper, text, -⟩ := exists_numeral h
      rw [ofString_finite, ← text]
      exact marks_of_signed negative proper.exists_cons
    | infinite negative =>
      cases negative
      · exact ⟨'I', ofString "nfinity", rfl, rfl, by decide⟩
      · exact ⟨'-', ofString "Infinity", rfl, rfl, by decide⟩
    | nan => exact ⟨'N', ofString "aN", rfl, rfl, by decide⟩
  | str s =>
    rw [scalarLiteral, ← List.append_nil (ofString _), ofString_textLiteral]
    exact ⟨'"', quoted s [], rfl, rfl, by decide⟩

def Begins (s : Text) : Prop :=
  ∃ c t, s = .char c :: t ∧ isGap c = false ∧ c ≠ ']' ∧ c ≠ '\x7d'

theorem Begins.append {s : Text} (h : Begins s) (t : Text) : Begins (s ++ t) := by
  obtain ⟨c, u, rfl, hc⟩ := h
  exact ⟨c, u ++ t, rfl, hc⟩

theorem Begins.solid {s : Text} (h : Begins s) : Solid s := by
  obtain ⟨c, u, rfl, hc, -⟩ := h
  exact solid_cons hc u

theorem ofString_newline (depth : Nat) :
    ofString (newline depth) = .char '\n' :: List.replicate (2 * depth) (.char ' ') := by
  simp [newline, ofString, ofChars]

section
variable {j : Json} {items : List Json} {fields done : List (Text × Json)} {name : Text}
  {s rest more after : Text} {fuel : Nat}

theorem readValue_scalar {c : Char} {value : Scalar} (mark : Marks c)
    (h : readScalar (.char c :: s) = some (value, rest)) :
    readValue (fuel + 1) (.char c :: s) = some (.scalar value, rest) := by
  have bracket := mark.bracket
  simp only [List.mem_cons, List.not_mem_nil, or_false, not_or] at bracket
  obtain ⟨square, -, brace, -⟩ := bracket
  simp [readValue, square, brace, h]

theorem readValue_array (begins : Begins (skipGap s))
    (h : readItems fuel (skipGap s) = some (items, rest)) :
    readValue (fuel + 1) (.char '[' :: s) = some (.array items, rest) := by
  obtain ⟨c, t, text, -, square, -⟩ := begins
  rw [text] at h
  simp [readValue, text, square, h]

theorem readValue_object (begins : Begins (skipGap s))
    (h : readFields fuel [] (skipGap s) = some (fields, rest)) :
    readValue (fuel + 1) (.char '\x7b' :: s) = some (.object fields, rest) := by
  obtain ⟨c, t, text, -, -, brace⟩ := begins
  rw [text] at h
  simp [readValue, text, brace, h]

theorem readItems_last (hj : readValue fuel s = some (j, rest))
    (h : skipGap rest = .char ']' :: after) : readItems (fuel + 1) s = some ([j], after) := by
  simp [readItems, hj, h]

theorem readItems_more (hj : readValue fuel s = some (j, rest))
    (h : skipGap rest = .char ',' :: more) (hrest : readItems fuel (skipGap more) = some (items, after)) :
    readItems (fuel + 1) s = some (j :: items, after) := by
  simp [readItems, hj, h, hrest]

theorem readFields_last {value : Text} (hname : readText (s.length + 1) [] s = some (name, rest))
    (colon : skipGap rest = .char ':' :: value)
    (hj : readValue fuel (skipGap value) = some (j, more))
    (h : skipGap more = .char '\x7d' :: after) :
    readFields (fuel + 1) done (.char '"' :: s) = some (setField name j done, after) := by
  simp [readFields, hname, colon, hj, h]

theorem readFields_more {value next : Text}
    (hname : readText (s.length + 1) [] s = some (name, rest))
    (colon : skipGap rest = .char ':' :: value)
    (hj : readValue fuel (skipGap value) = some (j, more)) (h : skipGap more = .char ',' :: next) :
    readFields (fuel + 1) done (.char '"' :: s) =
      readFields fuel (setField name j done) (skipGap next) := by
  simp [readFields, hname, colon, hj, h]

theorem setField_new (h : name ∉ done.map Prod.fst) : setField name j done = done ++ [(name, j)] := by
  induction done with
  | nil => rfl
  | cons field done ih =>
    obtain ⟨other, rest⟩ := not_or.1 (List.mem_cons.not.1 h)
    rw [setField, if_neg (Ne.symm other), ih rest]
    rfl

end

/-! ## Values -/

theorem exists_intercalate (separator t : String) (ts : List String) :
    ∃ u, ofString (separator.intercalate (t :: ts)) = ofString t ++ u := by
  cases ts with
  | nil => exact ⟨[], by rw [String.intercalate_singleton, List.append_nil]⟩
  | cons u ts =>
    rw [String.intercalate_cons_cons, String.append_assoc, ofString_append]
    exact ⟨_, rfl⟩

theorem Marks.begins {c : Char} (mark : Marks c) (s : Text) : Begins (.char c :: s) := by
  have bracket := mark.bracket
  simp only [List.mem_cons, List.not_mem_nil, or_false, not_or] at bracket
  exact ⟨c, s, rfl, mark.solid, bracket.2.1, bracket.2.2.2⟩

theorem begins_array (depth : Nat) (items : List Json) :
    ∃ s, ofString (prettyAt depth (.array items)) = .char '[' :: s := by
  cases items with
  | nil => exact ⟨ofString "]", by rw [prettyAt]; rfl⟩
  | cons j items =>
    simp only [prettyAt, String.append_assoc, ofString_append]
    exact ⟨_, rfl⟩

theorem begins_object (depth : Nat) (fields : List (Text × Json)) :
    ∃ s, ofString (prettyAt depth (.object fields)) = .char '\x7b' :: s := by
  cases fields with
  | nil => exact ⟨ofString "\x7d", by rw [prettyAt]; rfl⟩
  | cons j items =>
    simp only [prettyAt, String.append_assoc, ofString_append]
    exact ⟨_, rfl⟩

theorem begins_prettyAt (depth : Nat) {j : Json} (h : j.Legible) :
    Begins (ofString (prettyAt depth j)) := by
  cases h with
  | scalar legible =>
    obtain ⟨c, t, text, mark⟩ := marks_scalarLiteral legible
    rw [prettyAt, text]
    exact mark.begins t
  | array =>
    obtain ⟨s, text⟩ := begins_array depth _
    exact ⟨'[', s, text, rfl, by decide, by decide⟩
  | object =>
    obtain ⟨s, text⟩ := begins_object depth _
    exact ⟨'\x7b', s, text, rfl, by decide, by decide⟩

def lines (depth : Nat) (texts : List String) : Text :=
  ofString (("," ++ newline depth).intercalate texts)

theorem lines_singleton (depth : Nat) (t : String) : lines depth [t] = ofString t := by
  rw [lines, String.intercalate_singleton]

theorem lines_cons_cons (depth : Nat) (t u : String) (ts : List String) :
    lines depth (t :: u :: ts) =
      ofString t ++ .char ',' :: (ofString (newline depth) ++ lines depth (u :: ts)) := by
  rw [lines, String.intercalate_cons_cons]
  simp only [ofString_append, List.append_assoc]
  rfl

theorem begins_lines (depth : Nat) {t : String} (h : Begins (ofString t)) (ts : List String)
    (rest : Text) : Begins (lines depth (t :: ts) ++ rest) := by
  obtain ⟨u, text⟩ := exists_intercalate ("," ++ newline depth) t ts
  rw [lines, text]
  exact (h.append u).append rest

def closing (depth : Nat) (bracket : Char) (rest : Text) : Text :=
  ofString (newline depth) ++ .char bracket :: rest

theorem skipGap_closing (depth : Nat) {bracket : Char} (h : isGap bracket = false) (rest : Text) :
    skipGap (closing depth bracket rest) = .char bracket :: rest :=
  skipGap_newline depth (solid_cons h rest)

theorem stops_cons {c : Char} (h : c = ',' ∨ c = '\n') (rest : Text) : Stops (.char c :: rest) := by
  rintro _ ⟨⟩
  rcases h with rfl | rfl
  all_goals exact ⟨rfl, by decide, by decide, by decide⟩

theorem stops_closing (depth : Nat) (bracket : Char) (rest : Text) :
    Stops (closing depth bracket rest) := by
  rw [closing, ofString_newline]
  exact stops_cons (.inr rfl) _

theorem ofString_array (depth : Nat) (j : Json) (items : List Json) (rest : Text) :
    ofString (prettyAt depth (.array (j :: items))) ++ rest =
      .char '[' :: (ofString (newline (depth + 1)) ++
        (lines (depth + 1) (prettyItems (depth + 1) (j :: items)) ++ closing depth ']' rest)) := by
  rw [prettyAt]
  · simp only [ofString_append, List.append_assoc]
    rfl
  · exact List.cons_ne_nil j items

theorem ofString_object (depth : Nat) (field : Text × Json) (fields : List (Text × Json))
    (rest : Text) : ofString (prettyAt depth (.object (field :: fields))) ++ rest =
      .char '\x7b' :: (ofString (newline (depth + 1)) ++
        (lines (depth + 1) (prettyFields (depth + 1) (field :: fields)) ++
          closing depth '\x7d' rest)) := by
  rw [prettyAt]
  · simp only [ofString_append, List.append_assoc]
    rfl
  · exact List.cons_ne_nil field fields

theorem ofString_field (depth : Nat) (name : Text) (j : Json) (rest : Text) :
    ofString (textLiteral name ++ ": " ++ prettyAt depth j) ++ rest =
      .char '"' :: quoted name
        (.char ':' :: .char ' ' :: (ofString (prettyAt depth j) ++ rest)) := by
  rw [ofString_append, ofString_append, List.append_assoc, List.append_assoc, ofString_textLiteral]
  rfl

theorem begins_field (depth : Nat) (name : Text) (j : Json) :
    Begins (ofString (textLiteral name ++ ": " ++ prettyAt depth j)) := by
  rw [← List.append_nil (ofString _), ofString_field]
  exact ⟨'"', _, rfl, rfl, by decide, by decide⟩

theorem skipGap_space {s : Text} (h : Begins s) : skipGap (.char ' ' :: s) = s :=
  skipGap_solid h.solid

def ReadsBack (depth : Nat) (j : Json) : Prop :=
  ∀ (fuel : Nat) (rest : Text), Stops rest → 2 * (ofString (prettyAt depth j)).length ≤ fuel →
    readValue fuel (ofString (prettyAt depth j) ++ rest) = some (j, rest)

theorem readItems_lines {depth : Nat} (outer : Nat) (rest : Text) {items : List Json}
    (nonempty : items ≠ []) (legible : ∀ j ∈ items, j.Legible)
    (reads : ∀ j ∈ items, ReadsBack depth j) (fuel : Nat)
    (enough : 2 * (lines depth (prettyItems depth items)).length + 1 ≤ fuel) :
    readItems fuel (lines depth (prettyItems depth items) ++ closing outer ']' rest) =
      some (items, rest) := by
  induction items generalizing fuel with
  | nil => exact absurd rfl nonempty
  | cons j items ih =>
    obtain ⟨fuel, rfl⟩ : ∃ k, fuel = k + 1 := ⟨fuel - 1, by omega⟩
    have ⟨hj, hreads⟩ := List.forall_mem_cons.1 reads
    have ⟨_, hlegible⟩ := List.forall_mem_cons.1 legible
    cases items with
    | nil =>
      rw [prettyItems, prettyItems, lines_singleton] at enough ⊢
      exact readItems_last (hj _ _ (stops_closing outer ']' rest) (by omega))
        (skipGap_closing outer rfl rest)
    | cons k items =>
      have begins := begins_lines depth (begins_prettyAt depth (hlegible k List.mem_cons_self))
        (prettyItems depth items) (closing outer ']' rest)
      rw [prettyItems, prettyItems, lines_cons_cons] at enough ⊢
      rw [List.length_append, List.length_cons, List.length_append] at enough
      have later := ih (List.cons_ne_nil k items) hlegible hreads fuel (by
        rw [prettyItems]
        omega)
      rw [List.append_assoc, List.cons_append, List.append_assoc]
      refine readItems_more (hj _ _ (stops_cons (.inl rfl) _) (by omega))
        (skipGap_solid (solid_cons rfl _)) ?_
      rw [skipGap_newline depth begins.solid]
      exact later

theorem readFields_lines {depth : Nat} (outer : Nat) (rest : Text) {fields : List (Text × Json)}
    (nonempty : fields ≠ []) (names : ∀ name ∈ fields.map Prod.fst, Unpaired name)
    (legible : ∀ f ∈ fields, f.2.Legible) (reads : ∀ f ∈ fields, ReadsBack depth f.2) (fuel : Nat)
    (done : List (Text × Json)) (nodup : ((done ++ fields).map Prod.fst).Nodup)
    (enough : 2 * (lines depth (prettyFields depth fields)).length + 1 ≤ fuel) :
    readFields fuel done (lines depth (prettyFields depth fields) ++ closing outer '\x7d' rest) =
      some (done ++ fields, rest) := by
  induction fields generalizing fuel done with
  | nil => exact absurd rfl nonempty
  | cons field fields ih =>
    obtain ⟨name, j⟩ := field
    obtain ⟨fuel, rfl⟩ : ∃ k, fuel = k + 1 := ⟨fuel - 1, by omega⟩
    have hj : ReadsBack depth j := reads (name, j) List.mem_cons_self
    have jlegible : j.Legible := legible (name, j) List.mem_cons_self
    have ⟨_, hreads⟩ := List.forall_mem_cons.1 reads
    have ⟨_, hlegible⟩ := List.forall_mem_cons.1 legible
    have ⟨hname, hnames⟩ := List.forall_mem_cons.1 names
    rw [List.map_append, List.map_cons] at nodup
    have new : setField name j done = done ++ [(name, j)] :=
      setField_new fun old => List.disjoint_of_nodup_append nodup old List.mem_cons_self
    have longer : (ofString (prettyAt depth j)).length ≤
        (ofString (textLiteral name ++ ": " ++ prettyAt depth j)).length := by
      rw [ofString_append _ (prettyAt depth j), List.length_append]
      omega
    have space (rest : Text) : skipGap (.char ' ' :: (ofString (prettyAt depth j) ++ rest)) =
        ofString (prettyAt depth j) ++ rest :=
      skipGap_space ((begins_prettyAt depth jlegible).append rest)
    cases fields with
    | nil =>
      rw [prettyFields, prettyFields, lines_singleton] at enough ⊢
      have value := hj fuel _ (stops_closing outer '\x7d' rest) (by omega)
      rw [← space] at value
      rw [ofString_field, ← new]
      exact readFields_last (readText_name hname _) (skipGap_solid (solid_cons rfl _)) value
        (skipGap_closing outer rfl rest)
    | cons field fields =>
      obtain ⟨name', k⟩ := field
      have begins := begins_lines depth (begins_field depth name' k) (prettyFields depth fields)
        (closing outer '\x7d' rest)
      rw [prettyFields, prettyFields, lines_cons_cons] at enough ⊢
      rw [List.length_append, List.length_cons, List.length_append] at enough
      have later := ih (List.cons_ne_nil _ fields) hnames hlegible hreads fuel (done ++ [(name, j)])
        (by simpa using nodup) (by rw [prettyFields]; omega)
      rw [List.append_assoc, List.cons_append, List.append_assoc, ofString_field]
      have value := hj fuel _ (stops_cons (.inl rfl) (ofString (newline depth) ++
        (lines depth (prettyFields depth ((name', k) :: fields)) ++ closing outer '\x7d' rest)))
        (by omega)
      rw [← space] at value
      rw [prettyFields] at value
      rw [readFields_more (readText_name hname _) (skipGap_solid (solid_cons rfl _)) value
        (skipGap_solid (solid_cons rfl _)), skipGap_newline depth begins.solid, new]
      rw [prettyFields] at later
      rw [later, List.append_assoc]
      rfl

theorem length_array (depth : Nat) (j : Json) (items : List Json) :
    (lines (depth + 1) (prettyItems (depth + 1) (j :: items))).length + 2 ≤
      (ofString (prettyAt depth (.array (j :: items)))).length := by
  rw [← List.append_nil (ofString (prettyAt _ _)), ofString_array, List.length_cons,
    List.length_append, List.length_append, closing, List.length_append, List.length_cons]
  omega

theorem length_object (depth : Nat) (field : Text × Json) (fields : List (Text × Json)) :
    (lines (depth + 1) (prettyFields (depth + 1) (field :: fields))).length + 2 ≤
      (ofString (prettyAt depth (.object (field :: fields)))).length := by
  rw [← List.append_nil (ofString (prettyAt _ _)), ofString_object, List.length_cons,
    List.length_append, List.length_append, closing, List.length_append, List.length_cons]
  omega

theorem reads_scalar {s : Scalar} (h : s.Legible) (depth : Nat) : ReadsBack depth (.scalar s) := by
  intro fuel rest stops enough
  obtain ⟨c, t, text, mark⟩ := marks_scalarLiteral h
  have read := readScalar_literal h stops
  rw [prettyAt, text] at enough ⊢
  rw [List.length_cons] at enough
  obtain ⟨fuel, rfl⟩ : ∃ k, fuel = k + 1 := ⟨fuel - 1, by omega⟩
  rw [text, List.cons_append] at read
  exact readValue_scalar mark read

theorem reads_array {depth : Nat} {items : List Json} (legible : ∀ j ∈ items, j.Legible)
    (reads : ∀ j ∈ items, ReadsBack (depth + 1) j) : ReadsBack depth (.array items) := by
  intro fuel rest stops enough
  cases items with
  | nil =>
    have text : ofString (prettyAt depth (.array [])) = [.char '[', .char ']'] := by
      rw [prettyAt]
      rfl
    rw [text] at enough ⊢
    obtain ⟨fuel, rfl⟩ : ∃ k, fuel = k + 1 := ⟨fuel - 1, by simp at enough; omega⟩
    rfl
  | cons j items =>
    have shorter := length_array depth j items
    obtain ⟨fuel, rfl⟩ : ∃ k, fuel = k + 1 := ⟨fuel - 1, by omega⟩
    have inside := readItems_lines depth rest (List.cons_ne_nil j items) legible reads fuel
      (by omega)
    have begins := begins_lines (depth + 1)
      (begins_prettyAt (depth + 1) (legible j List.mem_cons_self))
      (prettyItems (depth + 1) items) (closing depth ']' rest)
    have skipped := skipGap_newline (depth + 1) begins.solid
    rw [← prettyItems] at begins skipped
    rw [ofString_array]
    refine readValue_array ?_ ?_
    · rw [skipped]
      exact begins
    · rw [skipped]
      exact inside

theorem reads_object {depth : Nat} {fields : List (Text × Json)}
    (names : ∀ name ∈ fields.map Prod.fst, Unpaired name) (nodup : (fields.map Prod.fst).Nodup)
    (legible : ∀ f ∈ fields, f.2.Legible) (reads : ∀ f ∈ fields, ReadsBack (depth + 1) f.2) :
    ReadsBack depth (.object fields) := by
  intro fuel rest stops enough
  cases fields with
  | nil =>
    have text : ofString (prettyAt depth (.object [])) = [.char '\x7b', .char '\x7d'] := by
      rw [prettyAt]
      rfl
    rw [text] at enough ⊢
    obtain ⟨fuel, rfl⟩ : ∃ k, fuel = k + 1 := ⟨fuel - 1, by simp at enough; omega⟩
    rfl
  | cons field fields =>
    have shorter := length_object depth field fields
    obtain ⟨fuel, rfl⟩ : ∃ k, fuel = k + 1 := ⟨fuel - 1, by omega⟩
    have inside := readFields_lines depth rest (List.cons_ne_nil field fields) names legible reads
      fuel [] nodup (by omega)
    have begins := begins_lines (depth + 1) (begins_field (depth + 1) field.1 field.2)
      (prettyFields (depth + 1) fields) (closing depth '\x7d' rest)
    have skipped := skipGap_newline (depth + 1) begins.solid
    rw [← prettyFields] at begins skipped
    rw [ofString_object]
    refine readValue_object ?_ ?_
    · rw [skipped]
      exact begins
    · rw [skipped]
      exact inside

theorem reads_prettyAt {j : Json} (legible : j.Legible) (distinct : j.Distinct) (depth : Nat) :
    ReadsBack depth j := by
  induction legible generalizing depth with
  | scalar h => exact reads_scalar h depth
  | array h ih =>
    exact reads_array h fun j hj => ih j hj (distinct.items j hj) (depth + 1)
  | object names h ih =>
    exact reads_object names distinct.names h fun f hf =>
      ih f hf (distinct.values f hf) (depth + 1)

/-- A document that was written, with a line break after it, is read as the same document. -/
theorem read_pretty {j : Json} (legible : j.Legible) (distinct : j.Distinct) :
    read (ofString (j.pretty ++ "\n")) = some j := by
  have text : ofString (j.pretty ++ "\n") = ofString (prettyAt 0 j) ++ [.char '\n'] :=
    ofString_append _ _
  have value := reads_prettyAt legible distinct 0
    (2 * (ofString (prettyAt 0 j) ++ [Point.char '\n']).length + 2) _ (stops_cons (.inr rfl) []) (by
      rw [List.length_append]
      omega)
  simp only [text, read, skipGap_solid ((begins_prettyAt 0 legible).append [.char '\n']).solid,
    value]
  rfl

/-! ## Form -/

theorem prettyItems_eq_map (depth : Nat) (items : List Json) :
    prettyItems depth items = items.map (prettyAt depth) := by
  induction items with
  | nil => rfl
  | cons j items ih => rw [prettyItems, ih, List.map_cons]

theorem pretty_array {items : List Json} (h : items ≠ []) : (array items).pretty =
    "[\n  " ++ ",\n  ".intercalate (items.map (prettyAt 1)) ++ "\n]" := by
  obtain ⟨j, items, rfl⟩ := List.exists_cons_of_ne_nil h
  have opening : "[" ++ newline 1 = "[\n  " := by decide +kernel
  have separator : "," ++ newline 1 = ",\n  " := by decide +kernel
  have ending : newline 0 ++ "]" = "\n]" := by decide +kernel
  rw [pretty, prettyAt, prettyItems_eq_map, String.append_assoc, ending, opening, separator]
  exact List.cons_ne_nil j items

end Json

end Reannotate
