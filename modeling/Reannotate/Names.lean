import Reannotate.Fault

/-!
# Names

Two questions have answers here: what a Flow type is called in TypeScript, and what a parameter
without a name can be called. A `Names` holds the answers in use; `Names.usual` gives those of this
module.
-/

namespace Reannotate

def respelledNames : List (Text × Text) := [
  ("React$Node", "React.ReactNode"), ("React$Element", "React.ReactElement"),
  ("React$Component", "React.Component"), ("React$ComponentType", "React.ComponentType"),
  ("React$Context", "React.Context"), ("React$Ref", "React.Ref"),
  ("React$ElementRef", "React.ElementRef"),
  ("React$StatelessFunctionalComponent", "React.FunctionComponent"),
  ("SyntheticEvent", "React.SyntheticEvent")]

def builtinTypes : List Text := [
  "any", "bigint", "boolean", "never", "null", "number", "object", "string", "symbol", "undefined",
  "unknown", "void", "keyof", "typeof", "infer", "is", "asserts", "unique",
  "readonly"].map Text.ofString

def forbiddenNames : List Text := [
  "break", "case", "catch", "class", "const", "continue", "debugger", "default", "delete", "do",
  "else", "enum", "export", "extends", "false", "finally", "for", "function", "if", "import", "in",
  "instanceof", "new", "null", "return", "super", "switch", "this", "throw", "true", "try",
  "typeof", "var", "void", "while", "with", "as", "implements", "interface", "let", "package",
  "private", "protected", "public", "static", "yield"].map Text.ofString

def resolveName (name : Text) : Text :=
  match respelledNames.lookup name with
  | some known => known
  | none => if builtinTypes.contains name then name ++ "_" else name

def resolveScalar : Scalar → Scalar
  | .str s => .str (resolveName s)
  | s => s

/-- The `n`-th of the words a, b, …, z, aa, ab, …, counted from one. -/
def letters (n : Nat) : List Char :=
  if n = 0 then [] else letters ((n - 1) / 26) ++ [Char.ofNat (97 + (n - 1) % 26)]
termination_by n
decreasing_by omega

def nthWord (n : Nat) : Text :=
  Text.ofChars (letters n)

/-- The first word from the `n`-th on that is not taken, or the last of `tries` more than that. -/
def firstFree (taken : Text → Bool) : (tries n : Nat) → Text
  | 0, n => nthWord n
  | tries + 1, n => if taken (nthWord n) then firstFree taken tries (n + 1) else nthWord n

/-- The first word that is neither in use nor reserved. At most as many words are taken as there are
names in use and reserved words. -/
def unusedName (used : List Scalar) : Text :=
  firstFree (fun name => used.contains (.str name) || forbiddenNames.contains name)
    (used.length + forbiddenNames.length) 1

def unusedAmong (used : List Json) : Except Fault Text := do
  return unusedName (← used.mapM Json.toScalar)

/-- How types and nameless parameters get their names. A generator is told all lists of names in use
that it was given before, and the present one. -/
structure Names where
  resolve : Text → Except Fault Text
  fresh : (earlier : List (List Json)) → (used : List Json) → Except Fault Text

namespace Names

def usual : Names where
  resolve name := .ok (resolveName name)
  fresh _ used := unusedAmong used

def resolveBy (table : List (Text × Json)) (name : Text) : Except Fault Text :=
  match table.lookup name with
  | none => .ok name
  | some (.scalar (.str s)) => .ok s
  | some _ => .error .noSuchPart

def numbered (word : Text) (earlier : List (List Json)) : Except Fault Text :=
  .ok (word ++ Nat.repr (earlier.length + 1))

end Names

end Reannotate
