import Reannotate.Text.Basic

/-!
# Blank characters

Two classes: the `White_Space` property of the Unicode standard, and the same with the four
information separators. Numbers may be surrounded by the first, lines end in the second.
-/

namespace Reannotate.Text

def isWhiteSpace (c : Char) : Bool :=
  let n := c.toNat
  (9 ≤ n && n ≤ 13) || n = 32 || n = 0x85 || n = 0xa0 || n = 0x1680 ||
  (0x2000 ≤ n && n ≤ 0x200a) || n = 0x2028 || n = 0x2029 || n = 0x202f || n = 0x205f || n = 0x3000

/-- White space or one of the information separators. -/
def isBlank (c : Char) : Bool :=
  isWhiteSpace c || (0x1c ≤ c.toNat && c.toNat ≤ 0x1f)

end Reannotate.Text
