/-!
# Texts

A text is a list of points. A point is a character, or a half: one of the 2048 units that make up a
character only in twos, found on its own. A document can name such a unit in an escape, so texts
have to hold it, though no file and no `String` can.
-/

namespace Reannotate

/-- The first 1024 halves come first in a character, the others second. -/
inductive Point
  | char (c : Char)
  | half (index : Fin 2048)
  deriving DecidableEq

abbrev Text := List Point

namespace Point

def code : Point → Nat
  | .char c => c.toNat
  | .half i => 0xd800 + i

def ofCode (n : Nat) : Point :=
  if h : 0xd800 ≤ n ∧ n < 0xe000 then .half ⟨n - 0xd800, by omega⟩ else .char (Char.ofNat n)

def satisfies (p : Char → Bool) : Point → Bool
  | .char c => p c
  | .half _ => false

def char? : Point → Option Char
  | .char c => some c
  | .half _ => none

end Point

namespace Text

def ofChars (cs : List Char) : Text :=
  cs.map .char

def ofString (s : String) : Text :=
  ofChars s.toList

instance : Coe String Text := ⟨ofString⟩

def string? (t : Text) : Option String :=
  (t.mapM Point.char?).map String.ofList

def join (separator : Text) (ts : List Text) : Text :=
  separator.intercalate ts

def slice {α : Type} (s : List α) (start stop : Nat) : List α :=
  (s.take stop).drop start

def dropEnd {α : Type} (p : α → Bool) (s : List α) : List α :=
  (s.reverse.dropWhile p).reverse

def dropEnds {α : Type} (p : α → Bool) (s : List α) : List α :=
  dropEnd p (s.dropWhile p)

theorem ofString_inj {s t : String} : ofString s = ofString t ↔ s = t := by
  constructor
  · intro h
    have : s.toList = t.toList := (List.map_inj_right fun _ _ => Point.char.inj).1 h
    rw [← String.ofList_toList (s := s), this, String.ofList_toList]
  · rintro rfl
    rfl

theorem mapM_char?_ofChars (cs : List Char) : (ofChars cs).mapM Point.char? = some cs := by
  induction cs with
  | nil => rfl
  | cons c cs ih =>
    rw [ofChars] at ih
    simp [ofChars, Point.char?, ih]

theorem string?_ofString (s : String) : (ofString s).string? = some s := by
  rw [string?, ofString, mapM_char?_ofChars, Option.map_some, String.ofList_toList]

theorem satisfies_of_mem_repr {n : Nat} {p : Point} (h : p ∈ ofString (Nat.repr n)) :
    p.satisfies Char.isDigit = true := by
  simp only [ofString, ofChars, Nat.toList_repr, List.mem_map] at h
  obtain ⟨c, hc, rfl⟩ := h
  exact Nat.isDigit_of_mem_toDigits (by decide) (by decide) hc

end Text

end Reannotate
