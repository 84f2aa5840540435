import Reannotate.Text.Basic
import Reannotate.Text.Printable

/-!
# Quoted text

How a message shows a text: between single quotes, or between double quotes if that spares the
single quotes inside. A backslash, the quote in use and the three common control characters get a
backslash; what does not print is written by its code point.
-/

namespace Reannotate.Text

def hex (width n : Nat) : List Char :=
  (List.range width).reverse.map fun k =>
    "0123456789abcdef".toList.getD (n / Nat.pow 16 k % 16) '0'

/-- Single quotes, unless the text holds one and no double quote. -/
def quoteFor (s : Text) : Char :=
  if s.contains (.char '\x27') && !s.contains (.char '\x22') then '\x22' else '\x27'

def quotedChar (quote c : Char) : List Char :=
  if c = quote || c = '\\' then ['\\', c]
  else if c = '\n' then ['\\', 'n']
  else if c = '\r' then ['\\', 'r']
  else if c = '\t' then ['\\', 't']
  else if isPrintable c then [c]
  else if c.toNat < 0x100 then '\\' :: 'x' :: hex 2 c.toNat
  else if c.toNat < 0x10000 then '\\' :: 'u' :: hex 4 c.toNat
  else '\\' :: 'U' :: hex 8 c.toNat

def quotedPoint (quote : Char) : Point → List Char
  | .char c => quotedChar quote c
  | .half i => '\\' :: 'u' :: hex 4 (Point.half i).code

def quoted (s : Text) : Text :=
  let quote := quoteFor s
  ofChars (quote :: (s.flatMap (quotedPoint quote) ++ [quote]))

/-- The text as it is, but for halves, which are shown as in quotes. -/
def display (s : Text) : String :=
  String.ofList (s.flatMap fun p => match p with
    | .char c => [c]
    | .half i => quotedPoint '\x27' (.half i))

end Reannotate.Text
