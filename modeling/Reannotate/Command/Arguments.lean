import Reannotate.Text.Number
import Reannotate.Text.Quoted

/-!
# The arguments of the command

Options may stand anywhere before a `--`. A long one can be cut short as long as it is the only one
that starts so, and can have its value after an equals sign. Short ones can share a dash, and the
last of them can have its value right after it. Two dashes in the place of such a value take back
what was set before. A word that looks like a negative number is no option, nor is an unknown one
with a blank in it.
-/

namespace Reannotate.Command

inductive Opt
  | help
  | source
  | output
  | verbose
  | maxIssues
  deriving DecidableEq

def spellings : List (Text × Opt) := [
  ("-h", .help), ("--help", .help), ("-s", .source), ("--source", .source), ("-o", .output),
  ("--output", .output), ("-v", .verbose), ("--verbose", .verbose), ("--max-issues", .maxIssues)]

def Opt.takesValue : Opt → Bool
  | .help | .verbose => false
  | .source | .output | .maxIssues => true

def Opt.name (o : Opt) : Text :=
  Text.join "/" ((spellings.filter fun s => s.2 = o).map (·.1))

structure Settings where
  annotations : Text
  source : Option Text
  output : Option Text
  verbose : Nat
  maxIssues : Option Int

inductive Complaint
  | annotationsMissing
  | unrecognized (words : List Text)
  | valueMissing (o : Opt)
  | notWhole (o : Opt) (text : Text)
  | valueIgnored (o : Opt) (text : Text)
  | ambiguous (word : Text) (matching : List Text)

def Complaint.message : Complaint → Text
  | .annotationsMissing => "the following arguments are required: annotations"
  | .unrecognized words => "unrecognized arguments: " ++ Text.join " " words
  | .valueMissing o => "argument " ++ o.name ++ ": expected one argument"
  | .notWhole o text => "argument " ++ o.name ++ ": invalid int value: " ++ Text.quoted text
  | .valueIgnored o text =>
    "argument " ++ o.name ++ ": ignored explicit argument " ++ Text.quoted text
  | .ambiguous word matching =>
    "ambiguous option: " ++ word ++ " could match " ++ Text.join ", " matching

/-! ## Words -/

inductive Word
  | plain (text : Text)
  /-- The word after which no word is an option. -/
  | stop
  | option (o : Opt) (short : Bool) (attached : Option Text)
  | unknown (text : Text)

def splitEquals (s : Text) : Text × Option Text :=
  match s.dropWhile (· != .char '=') with
  | [] => (s, none)
  | _ :: value => (s.takeWhile (· != .char '='), some value)

def longCandidates (s : Text) : List (Text × Opt × Option Text) :=
  let (name, attached) := splitEquals s
  (spellings.filter fun p => name.isPrefixOf p.1).map fun p => (p.1, p.2, attached)

/-- The short option that a word starts with; the rest of the word is attached to it. -/
def shortCandidates (s : Text) : List (Text × Opt × Option Text) :=
  (spellings.filter fun p => p.1 = s.take 2).map fun p => (p.1, p.2, some (s.drop 2))

def isShort (s : Text) : Bool :=
  match s with
  | _ :: p :: _ => p != .char '-'
  | _ => false

def classifyDashed (word : Text) : Except Complaint Word :=
  let (name, attached) := splitEquals word
  match spellings.lookup word, attached.bind fun _ => spellings.lookup name with
  | some o, _ => .ok (.option o (isShort word) none)
  | none, some o => .ok (.option o (isShort name) attached)
  | none, none =>
    if word.length = 1 then .ok (.plain word)
    else match if isShort word then shortCandidates word else longCandidates word with
      | [(_, o, attached)] => .ok (.option o (isShort word) attached)
      | [] =>
        if Text.looksNegative word || word.contains (.char ' ') then .ok (.plain word)
        else .ok (.unknown word)
      | many => .error (.ambiguous word (many.map (·.1)))

def classify (word : Text) : Except Complaint Word :=
  if word.head? = some (.char '-') then classifyDashed word else .ok (.plain word)

def classifyAll : List Text → Except Complaint (List Word)
  | [] => .ok []
  | word :: rest =>
    if word = Text.ofString "--" then .ok (.stop :: rest.map .plain)
    else do
      let w ← classify word
      return w :: (← classifyAll rest)

/-! ## Options and their values -/

/-- Options that share a dash: some without a value, and a last one with what is attached to it. -/
structure Bundle where
  flags : List Opt
  last : Opt
  attached : Option Text

/-- Takes apart an option and the text attached to it. If the option takes no value the text goes on
with the letter of another; only short options can do so. -/
def bundle (short : Bool) (o : Opt) : Text → Except Complaint Bundle
  | [] => if o.takesValue then .ok ⟨[], o, some []⟩ else .error (.valueIgnored o [])
  | p :: more =>
    if o.takesValue then .ok ⟨[], o, some (p :: more)⟩
    else match if short then spellings.lookup [.char '-', p] else none with
      | none => .error (.valueIgnored o (p :: more))
      | some next =>
        if more.isEmpty then .ok ⟨[o], next, none⟩
        else do
          let b ← bundle short next more
          return { b with flags := o :: b.flags }

/-- An option in use, and its value if it takes one and does not have just two dashes there. -/
structure Given where
  option : Opt
  value : Option Text

def attachedValue (text : Text) : Option Text :=
  if text = Text.ofString "--" then none else some text

/-- What an option gives, with the text attached to it or the word that follows it, and the words
after that. -/
def takeOption (o : Opt) (short : Bool) (attached : Option Text) (words : List Word) :
    Except Complaint (List Given × List Word) := do
  let b ← match attached with
    | none => .ok ⟨[], o, none⟩
    | some text => bundle short o text
  let flags := b.flags.map fun o => Given.mk o none
  if b.last.takesValue then
    match b.attached, words with
    | some text, _ => return (flags ++ [⟨b.last, attachedValue text⟩], words)
    | none, .plain text :: rest => return (flags ++ [⟨b.last, some text⟩], rest)
    | none, _ => throw (.valueMissing b.last)
  else return (flags ++ [⟨b.last, none⟩], words)

/-! ## All arguments -/

structure Found where
  annotations : Option Text
  source : Option Text
  output : Option Text
  verbose : Nat
  maxIssues : Option Int
  extra : List Text

def Found.start (maxIssues : Int) : Found :=
  ⟨none, none, none, 0, some maxIssues, []⟩

inductive Request
  | help
  | convert (s : Settings)

def limitOf : Option Text → Except Complaint (Option Int)
  | none => .ok none
  | some text =>
    match Text.whole? text with
    | some n => .ok (some n)
    | none => .error (.notWhole .maxIssues text)

/-- The effect of options in turn; a request for help ends it. -/
def applyAll (f : Found) : List Given → Except Complaint (Option Found)
  | [] => .ok (some f)
  | ⟨o, value⟩ :: rest =>
    match o with
    | .help => .ok none
    | .source => applyAll { f with source := value } rest
    | .output => applyAll { f with output := value } rest
    | .verbose => applyAll { f with verbose := f.verbose + 1 } rest
    | .maxIssues => do
      let limit ← limitOf value
      applyAll { f with maxIssues := limit } rest

def Word.text : Word → Text
  | .plain text | .unknown text => text
  | .stop => "--"
  | .option o _ _ => o.name

def Found.finish (f : Found) : Except Complaint Request :=
  match f.annotations with
  | none => .error .annotationsMissing
  | some annotations =>
    if f.extra.isEmpty then
      .ok (.convert ⟨annotations, f.source, f.output, f.verbose, f.maxIssues⟩)
    else .error (.unrecognized f.extra)

/-- Goes through the words, at most as many as the first argument. A stop next to the name of the
annotations file goes with it. -/
def parseWords : Nat → Found → List Word → Except Complaint Request
  | fuel + 1, f, word :: rest =>
    match word, f.annotations, rest with
    | .plain text, none, .stop :: more =>
      { f with annotations := some text, extra := f.extra ++ more.map Word.text }.finish
    | .plain text, none, _ => parseWords fuel { f with annotations := some text } rest
    | .stop, none, .plain text :: more =>
      { f with annotations := some text, extra := f.extra ++ more.map Word.text }.finish
    | .option o short attached, _, _ => do
      let (given, rest) ← takeOption o short attached rest
      match ← applyAll f given with
      | none => return .help
      | some f => parseWords fuel f rest
    | w, _, _ => parseWords fuel { f with extra := f.extra ++ [w.text] } rest
  | _, f, _ => f.finish

def parse (maxIssues : Int) (args : List Text) : Except Complaint Request := do
  let words ← classifyAll args
  parseWords words.length (.start maxIssues) words

end Reannotate.Command
