import Reannotate.Json.Basic
import Reannotate.Text.Number

/-!
# Reading a document

`Json.read` takes the whole text or refuses it. A number with a point or an exponent is a double,
any other a whole number of any size; the words `NaN`, `Infinity` and `-Infinity` are taken too.
Texts hold no control characters. Of fields with the same name the last one counts, at the place of
the first. Every two steps of the reader use up a point, which bounds their number.
-/

namespace Reannotate.Json

def isGap (c : Char) : Bool :=
  c = ' ' || c = '\t' || c = '\n' || c = '\r'

def skipGap (s : Text) : Text :=
  s.dropWhile (Point.satisfies isGap)

def expect (word : String) (s : Text) : Option Text :=
  (Text.ofString word).isPrefixOf? s

def hexValue (c : Char) : Option Nat :=
  if '0' ≤ c ∧ c ≤ '9' then some (c.toNat - 48)
  else if 'a' ≤ c ∧ c ≤ 'f' then some (c.toNat - 87)
  else if 'A' ≤ c ∧ c ≤ 'F' then some (c.toNat - 55)
  else none

def hexUnit : Text → Option (Nat × Text)
  | .char a :: .char b :: .char c :: .char d :: rest => do
    let a ← hexValue a
    let b ← hexValue b
    let c ← hexValue c
    let d ← hexValue d
    return (4096 * a + 256 * b + 16 * c + d, rest)
  | _ => none

def joinUnits (high low : Nat) : Option Char :=
  if 0xd800 ≤ high ∧ high < 0xdc00 ∧ 0xdc00 ≤ low ∧ low < 0xe000 then
    some (Char.ofNat (0x10000 + 1024 * (high - 0xd800) + (low - 0xdc00)))
  else none

/-- The point that an escape stands for, from what follows its `\u`. -/
def escapedUnit (s : Text) : Option (Point × Text) := do
  let (unit, rest) ← hexUnit s
  match rest with
  | .char '\\' :: .char 'u' :: more =>
    match hexUnit more with
    | some (low, after) =>
      match joinUnits unit low with
      | some c => some (.char c, after)
      | none => some (.ofCode unit, rest)
    | none => none
  | _ => some (.ofCode unit, rest)

def shortEscape : Char → Option Char
  | '"' => some '"'
  | '\\' => some '\\'
  | '/' => some '/'
  | 'b' => some (Char.ofNat 8)
  | 'f' => some (Char.ofNat 12)
  | 'n' => some '\n'
  | 'r' => some '\r'
  | 't' => some '\t'
  | _ => none

/-- The points up to the closing quote, after those in `done`, which are in reverse. -/
def readText : Nat → Text → Text → Option (Text × Text)
  | 0, _, _ => none
  | _ + 1, _, [] => none
  | fuel + 1, done, .half i :: rest => readText fuel (.half i :: done) rest
  | fuel + 1, done, .char c :: rest =>
    if c = '"' then some (done.reverse, rest)
    else if c = '\\' then
      match rest with
      | .char 'u' :: more => do
        let (p, after) ← escapedUnit more
        readText fuel (p :: done) after
      | .char e :: more => do
        let c ← shortEscape e
        readText fuel (.char c :: done) more
      | _ => none
    else if c.toNat < 32 then none
    else readText fuel (.char c :: done) rest

def isDigit (p : Point) : Bool :=
  48 ≤ p.code && p.code ≤ 57

def digitsValue (ds : Text) : Nat :=
  ds.foldl (fun n p => 10 * n + (p.code - 48)) 0

def wholePart : Text → Option (Text × Text)
  | .char '0' :: rest => some ([.char '0'], rest)
  | s =>
    if (s.takeWhile isDigit).isEmpty then none
    else some (s.takeWhile isDigit, s.dropWhile isDigit)

def fractionPart : Text → Option (Text × Text)
  | .char '.' :: rest =>
    if (rest.takeWhile isDigit).isEmpty then none
    else some (rest.takeWhile isDigit, rest.dropWhile isDigit)
  | _ => none

def exponentDigits (negative : Bool) (s : Text) : Option (Int × Text) :=
  if (s.takeWhile isDigit).isEmpty then none
  else
    let n : Int := digitsValue (s.takeWhile isDigit)
    some (if negative then -n else n, s.dropWhile isDigit)

def exponentPart : Text → Option (Int × Text)
  | .char e :: rest =>
    if e = 'e' || e = 'E' then
      match rest with
      | .char '-' :: more => exponentDigits true more
      | .char '+' :: more => exponentDigits false more
      | _ => exponentDigits false rest
    else none
  | _ => none

def readUnsigned (negative : Bool) (s : Text) : Option (Scalar × Text) := do
  let (whole, afterWhole) ← wholePart s
  let fraction := fractionPart afterWhole
  let afterFraction := (fraction.map (·.2)).getD afterWhole
  let power := exponentPart afterFraction
  if fraction.isNone && power.isNone then
    if whole.length ≤ Text.digitLimit then
      let n : Int := digitsValue whole
      some (.int (if negative then -n else n), afterWhole)
    else none
  else
    let places := (fraction.map (·.1)).getD []
    let digits := whole ++ places
    let exponent := (power.map (·.1)).getD 0 - places.length
    some (.float (.ofDecimal negative (digitsValue digits) digits.length exponent),
      (power.map (·.2)).getD afterFraction)

def words : List (String × Scalar) := [
  ("null", .null), ("true", .bool true), ("false", .bool false), ("NaN", .float .nan),
  ("Infinity", .float (.infinite false)), ("-Infinity", .float (.infinite true))]

def readWord (s : Text) : Option (Scalar × Text) :=
  words.findSome? fun (word, value) => (expect word s).map fun rest => (value, rest)

def readScalar (s : Text) : Option (Scalar × Text) :=
  match readWord s with
  | some r => some r
  | none =>
    match s with
    | .char '"' :: rest => (readText (rest.length + 1) [] rest).map fun (t, rest) => (.str t, rest)
    | .char '-' :: rest => readUnsigned true rest
    | _ => readUnsigned false s

mutual

def readValue : Nat → Text → Option (Json × Text)
  | 0, _ => none
  | fuel + 1, s =>
    match s with
    | .char '[' :: rest =>
      match skipGap rest with
      | .char ']' :: after => some (.array [], after)
      | inside => (readItems fuel inside).map fun (items, rest) => (.array items, rest)
    | .char '{' :: rest =>
      match skipGap rest with
      | .char '}' :: after => some (.object [], after)
      | inside => (readFields fuel [] inside).map fun (fields, rest) => (.object fields, rest)
    | _ => (readScalar s).map fun (value, rest) => (.scalar value, rest)

def readItems : Nat → Text → Option (List Json × Text)
  | 0, _ => none
  | fuel + 1, s => do
    let (item, rest) ← readValue fuel s
    match skipGap rest with
    | .char ',' :: more =>
      let (items, after) ← readItems fuel (skipGap more)
      return (item :: items, after)
    | .char ']' :: after => return ([item], after)
    | _ => none

/-- The fields of an object from one of them on, after those in `done`. -/
def readFields : Nat → List (Text × Json) → Text → Option (List (Text × Json) × Text)
  | 0, _, _ => none
  | fuel + 1, done, .char '"' :: s => do
    let (name, rest) ← readText (s.length + 1) [] s
    match skipGap rest with
    | .char ':' :: rest =>
      let (value, rest) ← readValue fuel (skipGap rest)
      let fields := setField name value done
      match skipGap rest with
      | .char ',' :: more => readFields fuel fields (skipGap more)
      | .char '}' :: after => return (fields, after)
      | _ => none
    | _ => none
  | _ + 1, _, _ => none

end

def read (text : Text) : Option Json :=
  let s := skipGap text
  match readValue (2 * s.length + 2) s with
  | some (value, rest) => if (skipGap rest).isEmpty then some value else none
  | none => none

end Reannotate.Json
