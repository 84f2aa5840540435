import Reannotate.TypeScript.Basic

/-!
# Equal nodes

Two nodes are the same if they are of one sort and their parts are the same in turn. Names, keys
and flags need only be alike; literals have to be of one kind as well, so `1`, `1.0` and `true` are
three types.
-/

namespace Reannotate.TypeScript

def PropertyKey.same (k l : PropertyKey) : Bool :=
  k.text.alike l.text && k.quoted.alike l.quoted

def Comment.same (c d : Comment) : Bool :=
  c.value.alike d.value && c.block.alike d.block

def alikeLists {α : Type} (r : α → α → Bool) : List α → List α → Bool
  | [], [] => true
  | a :: as, b :: bs => r a b && alikeLists r as bs
  | _, _ => false

def Comments.same (c d : Comments) : Bool :=
  alikeLists Comment.same c.leading d.leading && alikeLists Comment.same c.inner d.inner &&
    alikeLists Comment.same c.trailing d.trailing

def EntityName.same : EntityName → EntityName → Bool
  | .plain m, .plain n => m = n
  | .qualified l r, .qualified l' r' => l.alike l' && r.alike r'
  | _, _ => false

mutual

def Node.same : Node → Node → Bool
  | .bare k, .bare k' => alikeLists Scalar.alike k k'
  | .hole, .hole => true
  | .keyword n, .keyword n' => n.alike n'
  | .this, .this => true
  | .literal v, .literal v' => v.sameLiteral v'
  | .reference n as, .reference n' as' => n.same n' && sameMaybeMany as as'
  | .operator o t, .operator o' t' => o = o' && t.same t'
  | .access o i, .access o' i' => o.same o' && i.same i'
  | .array e, .array e' => e.same e'
  | .group g ts, .group g' ts' => g = g' && sameEach ts ts'
  | .property k t o r c, .property k' t' o' r' c' =>
    k.same k' && sameMaybe t t' && o == o' && r == r' && c.same c'
  | .index n k t, .index n' k' t' => n.alike n' && sameMaybe k k' && sameMaybe t t'
  | .object ms, .object ms' => sameEach ms ms'
  | .typeParameter n c d, .typeParameter n' c' d' => n.alike n' && sameMaybe c c' && sameMaybe d d'
  | .parameter n t o, .parameter n' t' o' => n.alike n' && sameMaybe t t' && o == o'
  | .rest n t, .rest n' t' => n.alike n' && sameMaybe t t'
  | .function ts ps r, .function ts' ps' r' =>
    sameMaybeMany ts ts' && sameEach ps ps' && sameMaybe r r'
  | _, _ => false

def sameEach : List Node → List Node → Bool
  | [], [] => true
  | s :: ss, t :: ts => s.same t && sameEach ss ts
  | _, _ => false

def sameMaybe : Option Node → Option Node → Bool
  | none, none => true
  | some s, some t => s.same t
  | _, _ => false

def sameMaybeMany : Option (List Node) → Option (List Node) → Bool
  | none, none => true
  | some ss, some ts => sameEach ss ts
  | _, _ => false

end

end Reannotate.TypeScript
