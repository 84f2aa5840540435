import Reannotate.Proofs.Inheritance

/-!
# Keywords

The usual names of types avoid the keywords for types, so that no reference in a converted tree is a
keyword by accident. And they tell types apart: two names become one only where one of them is what
the other changes to. The main statement is `usual_names_safe`.
-/

namespace Reannotate

open Reannotate.Flow (Phrase TypeName Role)
open Reannotate.TypeScript (Node)

/-! ## Names that change -/

def Renamed (n m : Text) : Prop :=
  (n ∈ builtinTypes ∧ m = n ++ "_") ∨ (n, m) ∈ respelledNames

theorem renamed_or_resolveName_eq (n : Text) : Renamed n (resolveName n) ∨ resolveName n = n := by
  unfold resolveName
  split
  · next m hm =>
    obtain ⟨before, after, split, _⟩ := List.lookup_eq_some_iff.1 hm
    left
    right
    simp [split]
  · by_cases h : n ∈ builtinTypes
    · simp [h, Renamed]
    · simp [h]

/-! What is to be seen in the tables: no name changes twice, no two names change to the same, and
none to a keyword. -/

section
variable {n m k : Text}

theorem Renamed.resolveName_eq (h : Renamed n m) : resolveName n = m := by
  have keyword : ∀ n ∈ builtinTypes, resolveName n = n ++ "_" := by decide +kernel
  have respelled : ∀ e ∈ respelledNames, resolveName e.1 = e.2 := by decide +kernel
  rcases h with ⟨hn, rfl⟩ | h
  · exact keyword n hn
  · exact respelled _ h

theorem Renamed.resolveName_eq_self (h : Renamed n m) : resolveName m = m := by
  have keyword : ∀ n ∈ builtinTypes, resolveName (n ++ "_") = n ++ "_" := by decide +kernel
  have respelled : ∀ e ∈ respelledNames, resolveName e.2 = e.2 := by decide +kernel
  rcases h with ⟨hn, rfl⟩ | h
  · exact keyword n hn
  · exact respelled _ h

theorem Renamed.left_unique (hn : Renamed n k) (hm : Renamed m k) : n = m := by
  have apart : ∀ n ∈ builtinTypes, ∀ e ∈ respelledNames, n ++ "_" ≠ e.2 := by decide +kernel
  have respelled : ∀ e ∈ respelledNames, ∀ f ∈ respelledNames, e.2 = f.2 → e.1 = f.1 := by
    decide +kernel
  rcases hn with ⟨hn, rfl⟩ | hn <;> rcases hm with ⟨hm, hk⟩ | hm
  · exact List.append_cancel_right hk
  · exact absurd rfl (apart n hn _ hm)
  · exact absurd hk.symm (apart m hm _ hn)
  · exact respelled _ hn _ hm rfl

theorem Renamed.notMem_builtinTypes (h : Renamed n m) : m ∉ builtinTypes := by
  have keyword : ∀ n ∈ builtinTypes, n ++ "_" ∉ builtinTypes := by decide +kernel
  have respelled : ∀ e ∈ respelledNames, e.2 ∉ builtinTypes := by decide +kernel
  rcases h with ⟨hn, rfl⟩ | h
  · exact keyword n hn
  · exact respelled _ h

theorem resolveName_notMem_builtinTypes (n : Text) : resolveName n ∉ builtinTypes := by
  rcases renamed_or_resolveName_eq n with h | h
  · exact h.notMem_builtinTypes
  · rw [h]
    intro hn
    have changed : resolveName n = n ++ "_" := Renamed.resolveName_eq (.inl ⟨hn, rfl⟩)
    simp [h, Text.ofString, Text.ofChars] at changed

theorem resolveName_eq_iff (hne : n ≠ m) :
    resolveName n = resolveName m ↔ Renamed n m ∨ Renamed m n := by
  constructor
  · intro same
    rcases renamed_or_resolveName_eq n with hn | hn <;>
      rcases renamed_or_resolveName_eq m with hm | hm
    · rw [same] at hn
      exact absurd (hn.left_unique hm) hne
    · rw [same, hm] at hn
      exact .inl hn
    · rw [← same, hn] at hm
      exact .inr hm
    · rw [hn, hm] at same
      exact absurd same hne
  · rintro (h | h)
    · rw [h.resolveName_eq, h.resolveName_eq_self]
    · rw [h.resolveName_eq, h.resolveName_eq_self]

end

/-! ## Nodes in nodes -/

namespace TypeScript

def Node.parts : Node → List Node
  | .reference _ args => args.getD []
  | .operator _ n | .array n => [n]
  | .access n i => [n, i]
  | .group _ ns | .object ns => ns
  | .property _ t _ _ _ | .parameter _ t _ | .rest _ t => t.toList
  | .index _ k t => k.toList ++ t.toList
  | .typeParameter _ b d => b.toList ++ d.toList
  | .function ts ps r => ts.getD [] ++ ps ++ r.toList
  | .bare _ | .hole | .keyword _ | .this | .literal _ => []

inductive Node.Within (m : Node) : Node → Prop
  | self : Within m m
  | part {n c : Node} (hc : c ∈ n.parts) (h : Within m c) : Within m n

def Node.IsCapture : Node → Prop
  | .reference (.plain name) _ => name ∈ builtinTypes
  | _ => False

def Node.Clean (n : Node) : Prop :=
  ∀ m : Node, m.Within n → ¬ m.IsCapture

namespace Node

theorem clean_iff {n : Node} : n.Clean ↔ ¬ n.IsCapture ∧ ∀ c ∈ n.parts, c.Clean := by
  constructor
  · intro h
    exact ⟨h n .self, fun c hc m hm => h m (.part hc hm)⟩
  · rintro ⟨here, below⟩ m hm
    cases hm with
    | self => exact here
    | part hc h => exact below _ hc m h

theorem clean_of_parts {n : Node} (here : ¬ n.IsCapture) (below : ∀ c ∈ n.parts, c.Clean) :
    n.Clean :=
  clean_iff.2 ⟨here, below⟩

theorem clean_args {args : Option (List Node)} (h : ∀ ns ∈ args, ∀ n ∈ ns, n.Clean) :
    ∀ n ∈ args.getD [], n.Clean := by
  cases args with
  | none => simp
  | some ns => exact h ns rfl

theorem clean_named {name : Text} (hname : name ∉ builtinTypes) {args : Option (List Node)}
    (h : ∀ ns ∈ args, ∀ n ∈ ns, n.Clean) : (named name args).Clean :=
  clean_of_parts hname (clean_args h)

theorem clean_qualified (left right : Scalar) {args : Option (List Node)}
    (h : ∀ ns ∈ args, ∀ n ∈ ns, n.Clean) : (reference (.qualified left right) args).Clean :=
  clean_of_parts id (clean_args h)

theorem inherited_clean : Inherited Clean where
  word name := clean_of_parts id (by simp [word, parts])
  this := clean_of_parts id (by simp [parts])
  literal v := clean_of_parts id (by simp [parts])
  operator op n h := clean_of_parts id (by simp [parts, h])
  access hn hi := clean_of_parts id (by simp [parts, hn, hi])
  array h := clean_of_parts id (by simp [parts, h])
  group g ns h := clean_of_parts id h
  property key type o r cs h := clean_of_parts id (by simpa [parts] using h)
  index name key type hk ht := by
    apply clean_of_parts id
    simp only [parts, List.forall_mem_append, Option.mem_toList]
    exact ⟨hk, ht⟩
  object h := clean_of_parts id h
  typeParameter name bound default hb hd := by
    apply clean_of_parts id
    simp only [parts, List.forall_mem_append, Option.mem_toList]
    exact ⟨hb, hd⟩
  parameter name type o h := clean_of_parts id (by simpa [parts] using h)
  rest name type h := clean_of_parts id (by simpa [parts] using h)
  function ht hp hr := by
    apply clean_of_parts id
    simp only [parts, List.forall_mem_append, Option.mem_toList]
    exact ⟨⟨clean_args ht, hp⟩, hr⟩

end Node

end TypeScript

/-! ## References -/

/-- A reference to the one utility type whose form is named by a keyword. -/
def Flow.Phrase.IsFixMe : Phrase → Prop
  | .generic _ (.plain _ name) _ => name = Utility.fixMe.name
  | _ => False

namespace Converting

theorem introduced_notMem_builtinTypes {u : Utility} (hu : u ≠ .fixMe) :
    ∀ name ∈ u.introduced, name ∉ builtinTypes := by
  cases u with
  | fixMe => exact absurd rfl hu
  | _ => decide +kernel

theorem clean_referTo (p : Phrase) {name : Text} (hname : name ∉ builtinTypes)
    {args : Option (List Node)} (h : ∀ ns ∈ args, ∀ n ∈ ns, n.Clean) :
    Ends (referTo p name args) Node.Clean fun _ => True := by
  unfold referTo
  split
  · exact ends_pure (Node.clean_qualified _ _ h)
  · exact ends_pure (Node.clean_named hname h)
  · exact ends_pure (Node.clean_named hname h)
  · exact ends_throw trivial

theorem clean_reference {s : Option Flow.Span} {id : TypeName} {as : Option (List Phrase)}
    (hp : ¬ (Phrase.generic s id as).IsFixMe) {args : Option (List Node)}
    (h : ∀ ns ∈ args, ∀ n ∈ ns, n.Clean) :
    Ends (reference .usual (.generic s id as) id args) Node.Clean fun _ => True := by
  unfold reference
  split
  · next name =>
    split
    · next u hu =>
      have other : u ≠ .fixMe := by
        rintro rfl
        exact hp (Utility.eq_name_of_ofName? hu)
      apply inherited_apply Node.inherited_clean h
      · intro name hname args hargs
        exact Node.clean_named (introduced_notMem_builtinTypes other name hname) hargs
      · exact fun _ => trivial
    · exact clean_referTo _ (resolveName_notMem_builtinTypes name) h
  · exact ends_pure (Node.clean_qualified _ _ h)
  · exact ends_throw trivial
  · exact ends_throw trivial

theorem upholds_clean :
    Upholds .usual (fun p => ¬ p.IsFixMe) Node.Clean fun _ => True where
  inherited := Node.inherited_clean
  reference hp h := clean_reference hp.here h
  fresh _ _ := yields_fresh _ _ trivial
  refused _ _ _ := trivial
  notScalar := trivial
  noSuchPart := trivial

end Converting

open Converting

/-- With the usual names no reference in a converted tree is a keyword, except for the form of
`$FlowFixMe`, and different types get different names, except for a name and what it changes to. -/
theorem usual_names_safe :
    (∀ p : Phrase, p.Everywhere (fun q => ¬ q.IsFixMe) →
      ∀ (role : Role Bool) (log : Log) (node : Node),
      ((convert .usual p role).outcome log).1 = .ok node ∨
        ((convertSignature .usual p).outcome log).1 = .ok node →
      ∀ m : Node, m.Within node → ∀ name args, m = .reference (.plain name) args →
        name ∉ builtinTypes) ∧
    ∀ n m : Text, n ≠ m → (resolveName n = resolveName m ↔ Renamed n m ∨ Renamed m n) := by
  constructor
  · intro p hp role log node h
    have clean : node.Clean := by
      rcases h with h | h
      · exact (upholds_clean.ends_convert hp).result h
      · exact (upholds_clean.ends_convertSignature hp).result h
    rintro m hm name args rfl
    exact clean _ hm
  · intro n m hne
    exact resolveName_eq_iff hne

/-- `$Diff<any<React$Node>, $Shape<keyof>>`. -/
def keywordNames : Phrase :=
  let name (text : Text) (args : Option (List Phrase)) : Phrase :=
    .generic none (.plain none text) args
  name "$Diff" (some [name "any" (some [name "React$Node" none]),
    name "$Shape" (some [name "keyof" none])])

theorem usual_names_safe_diff : keywordNames.Everywhere (fun q => ¬ q.IsFixMe) ∧
    ∃ node, ((convert .usual keywordNames .other).outcome .empty).1 = .ok node ∧
      (∀ m : Node, m.Within node → ∀ name args, m = .reference (.plain name) args →
        name ∉ builtinTypes) ∧
      resolveName "any" = resolveName "any_" := by
  have other : keywordNames.Everywhere (fun q => ¬ q.IsFixMe) := by
    simp [keywordNames, Phrase.IsFixMe, Utility.name, Text.ofString_inj]
  obtain ⟨node, hnode⟩ : ∃ node,
      ((convert .usual keywordNames .other).outcome .empty).1 = .ok node := ⟨_, rfl⟩
  refine ⟨other, node, hnode, ?_, ?_⟩
  · exact usual_names_safe.1 keywordNames other .other .empty node (.inl hnode)
  · apply (usual_names_safe.2 "any" "any_" (by decide +kernel)).2
    exact .inl (.inl (by decide +kernel))

end Reannotate
