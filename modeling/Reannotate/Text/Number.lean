import Reannotate.Text.Blank

/-!
# Whole numbers as people type them

A whole number is a sign, if any, and decimal digits of any script, with single underscores between
digits if that helps; white space around it does not count.
-/

namespace Reannotate.Text

/-- The zeros of the scripts that have decimal digits; the other nine digits follow each. -/
def zeros : List Nat := [
  0x30, 0x660, 0x6f0, 0x7c0, 0x966, 0x9e6, 0xa66, 0xae6, 0xb66, 0xbe6, 0xc66, 0xce6, 0xd66, 0xde6,
  0xe50, 0xed0, 0xf20, 0x1040, 0x1090, 0x17e0, 0x1810, 0x1946, 0x19d0, 0x1a80, 0x1a90, 0x1b50,
  0x1bb0, 0x1c40, 0x1c50, 0xa620, 0xa8d0, 0xa900, 0xa9d0, 0xa9f0, 0xaa50, 0xabf0, 0xff10, 0x104a0,
  0x10d30, 0x11066, 0x110f0, 0x11136, 0x111d0, 0x112f0, 0x11450, 0x114d0, 0x11650, 0x116c0,
  0x11730, 0x118e0, 0x11950, 0x11c50, 0x11d50, 0x11da0, 0x16a60, 0x16ac0, 0x16b50, 0x1d7ce,
  0x1d7d8, 0x1d7e2, 0x1d7ec, 0x1d7f6, 0x1e140, 0x1e2f0, 0x1e950, 0x1fbf0]

def digitValue (p : Point) : Option Nat :=
  (zeros.find? fun z => z ≤ p.code && p.code < z + 10).map (p.code - ·)

def digitLimit : Nat := 4300

def digitValues : Text → Option (List Nat)
  | [] => none
  | [p] => (digitValue p).map ([·])
  | p :: .char '_' :: rest => do
    let d ← digitValue p
    return d :: (← digitValues rest)
  | p :: rest => do
    let d ← digitValue p
    return d :: (← digitValues rest)

def ofDigits (ds : List Nat) : Nat :=
  ds.foldl (10 * · + ·) 0

def natural? (s : Text) : Option Nat := do
  let ds ← digitValues s
  if ds.length ≤ digitLimit then some (ofDigits ds) else none

def whole? (s : Text) : Option Int :=
  match dropEnds (Point.satisfies isWhiteSpace) s with
  | .char '-' :: ds => (natural? ds).map fun n => -(n : Int)
  | .char '+' :: ds => (natural? ds).map fun n => (n : Int)
  | ds => (natural? ds).map fun n => (n : Int)

def looksNegative (s : Text) : Bool :=
  let isDigit := fun p => (digitValue p).isSome
  let body := fun (t : Text) => if t.getLast? = some (.char '\n') then t.dropLast else t
  match s with
  | .char '-' :: t =>
    match (body t).dropWhile isDigit with
    | [] => !(body t).isEmpty
    | .char '.' :: fraction => !fraction.isEmpty && fraction.all isDigit
    | _ => false
  | _ => false

end Reannotate.Text
