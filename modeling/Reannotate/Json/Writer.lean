import Reannotate.Json.Basic
import Reannotate.Text.Quoted

/-!
# Writing a document

`pretty` puts every item and field on a line of its own, two spaces further in than its container;
`line` writes all on one line. Texts are plain ASCII: other characters are written by their code
units in base sixteen.
-/

namespace Reannotate.Json

def unitEscape (c : Char) : List Char :=
  let n := c.toNat
  if n < 0x10000 then '\\' :: 'u' :: Text.hex 4 n
  else '\\' :: 'u' :: Text.hex 4 (0xd800 + (n - 0x10000) / 1024) ++
    '\\' :: 'u' :: Text.hex 4 (0xdc00 + (n - 0x10000) % 1024)

def escaped (c : Char) : List Char :=
  if c = '"' then ['\\', '"']
  else if c = '\\' then ['\\', '\\']
  else if c = '\n' then ['\\', 'n']
  else if c = '\r' then ['\\', 'r']
  else if c = '\t' then ['\\', 't']
  else if c.toNat = 8 then ['\\', 'b']
  else if c.toNat = 12 then ['\\', 'f']
  else if 32 ≤ c.toNat ∧ c.toNat < 127 then [c]
  else unitEscape c

def escapedPoint : Point → List Char
  | .char c => escaped c
  | .half i => '\\' :: 'u' :: Text.hex 4 (Point.half i).code

def textLiteral (s : Text) : String :=
  String.ofList ('"' :: (s.flatMap escapedPoint ++ ['"']))

def scalarLiteral : Scalar → String
  | .null => "null"
  | .bool true => "true"
  | .bool false => "false"
  | .int n => n.repr
  | .float x => x.textWith "Infinity" "NaN"
  | .str s => textLiteral s

def newline (depth : Nat) : String :=
  String.ofList ('\n' :: List.replicate (2 * depth) ' ')

mutual

def prettyAt (depth : Nat) : Json → String
  | .scalar s => scalarLiteral s
  | .array [] => "[]"
  | .array items =>
    "[" ++ newline (depth + 1) ++
      ("," ++ newline (depth + 1)).intercalate (prettyItems (depth + 1) items) ++
      newline depth ++ "]"
  | .object [] => "\x7b\x7d"
  | .object fields =>
    "\x7b" ++ newline (depth + 1) ++
      ("," ++ newline (depth + 1)).intercalate (prettyFields (depth + 1) fields) ++
      newline depth ++ "\x7d"

def prettyItems (depth : Nat) : List Json → List String
  | [] => []
  | j :: rest => prettyAt depth j :: prettyItems depth rest

def prettyFields (depth : Nat) : List (Text × Json) → List String
  | [] => []
  | (name, j) :: rest => (textLiteral name ++ ": " ++ prettyAt depth j) :: prettyFields depth rest

end

def pretty (j : Json) : String :=
  prettyAt 0 j

mutual

def line : Json → String
  | .scalar s => scalarLiteral s
  | .array items => "[" ++ ",".intercalate (lineItems items) ++ "]"
  | .object fields => "\x7b" ++ ",".intercalate (lineFields fields) ++ "\x7d"

def lineItems : List Json → List String
  | [] => []
  | j :: rest => line j :: lineItems rest

def lineFields : List (Text × Json) → List String
  | [] => []
  | (name, j) :: rest => (textLiteral name ++ ":" ++ line j) :: lineFields rest

end

end Reannotate.Json
