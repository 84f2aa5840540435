import Reannotate.Fault

/-!
# A folder of files

Names of files and what they lead to in a working folder that is known as a whole. A name is a way
down from folder to folder. Empty parts of it and single dots say nothing, so `./a//b/` is `a/b`; a
double dot leads one folder up. Nothing is known of the world around the working folder, except that
there is a null device: it is empty, and what is written to it is gone.
-/

namespace Reannotate.Command

def slashed : Text → List Text
  | [] => [[]]
  | p :: rest =>
    if p = .char '/' then [] :: slashed rest
    else match slashed rest with
      | [] => [[p]]
      | part :: parts => (p :: part) :: parts

structure Way where
  rooted : Bool
  parts : List Text
  deriving DecidableEq

namespace Way

def ofName (name : Text) : Way where
  rooted := name.head? = some (.char '/')
  parts := (slashed name).filter fun part => !part.isEmpty && part != Text.ofString "."

def name (w : Way) : Text :=
  if w.rooted then .char '/' :: Text.join "/" w.parts
  else if w.parts.isEmpty then "."
  else Text.join "/" w.parts

def nullDevice : Way := ⟨true, ["dev", "null"]⟩

end Way

/-- The number of bytes that a point takes in a name. The halves from `dc80` to `dcff` stand for
single bytes that are no UTF-8; the others cannot be written. -/
def pointBytes : Point → Option Nat
  | .char c => some c.utf8Size
  | .half i => if 0x480 ≤ i.val ∧ i.val < 0x500 then some 1 else none

def byteCount (name : Text) : Option Nat := do
  return (← name.mapM pointBytes).foldl (· + ·) 0

def partLimit : Nat := 255

def nameLimit : Nat := 4095

def Way.flaw (w : Way) : Option Obstacle :=
  match byteCount w.name with
  | none => some .halfInName
  | some bytes =>
    if w.name.contains (.char (Char.ofNat 0)) then some .nullInName
    else if nameLimit < bytes then some .nameTooLong
    else none

/-- Files by the parts of the way to them; those that are no text have none. -/
structure Folder where
  files : List (List Text × Option Text)

/-- Where a way ends: at a file that is there or can be, or at the null device. -/
inductive Target
  | file (path : List Text)
  | nothing

namespace Folder

def isFile (f : Folder) (path : List Text) : Bool :=
  f.files.any fun file => file.1 = path

def isFolder (f : Folder) (path : List Text) : Bool :=
  path.isEmpty || f.files.any fun file => path.length < file.1.length && path.isPrefixOf file.1

def follow (f : Folder) (here : List Text) : List Text → Except Obstacle Target
  | [] => .error .isFolder
  | part :: rest =>
    if part = Text.ofString ".." then
      if here.isEmpty then .error (if rest.isEmpty then .isFolder else .missing)
      else follow f here.dropLast rest
    else if (byteCount part).any (partLimit < ·) then .error .nameTooLong
    else
      let path := here ++ [part]
      if f.isFolder path then follow f path rest
      else if rest.isEmpty then .ok (.file path)
      else .error (if f.isFile path then .notFolder else .missing)

def target (f : Folder) (name : Text) : Except Obstacle Target :=
  let w := Way.ofName name
  match w.flaw with
  | some obstacle => .error obstacle
  | none =>
    if w = Way.nullDevice then .ok .nothing
    else if w.rooted then .error (if w.parts.isEmpty then .isFolder else .missing)
    else f.follow [] w.parts

def read (f : Folder) (name : Text) : Option Text :=
  match f.target name with
  | .ok (.file path) => (f.files.lookup path).join
  | .ok .nothing => some []
  | .error _ => none

def put (path : List Text) (text : Text) : List (List Text × Option Text) →
    List (List Text × Option Text)
  | [] => [(path, some text)]
  | (p, old) :: rest =>
    if p = path then (p, some text) :: rest else (p, old) :: put path text rest

def write (f : Folder) (name text : Text) : Except Obstacle Folder :=
  match f.target name with
  | .ok (.file path) => .ok ⟨put path text f.files⟩
  | .ok .nothing => .ok f
  | .error obstacle => .error obstacle

def changes (before after : Folder) : List (List Text × Text) :=
  after.files.filterMap fun (path, text) =>
    if before.files.lookup path = some text then none else text.map fun t => (path, t)

end Folder

end Reannotate.Command
