import Reannotate.Conversion.Visitor

/-!
# From Flow to TypeScript

The conversion itself makes nothing of its visits but their results.
-/

namespace Reannotate

open Reannotate.Flow (Phrase Role)
open Reannotate.TypeScript (Node)

/-- Visits a tree for the results alone. -/
abbrev Visitor.plain : Visitor Unit Converting where
  step c := c
  enter _ _ t := t
  visit _ _ _ c := c

namespace Converting

def convert (names : Names) : Phrase → Role Bool → Converting Node :=
  Visitor.plain.convert names ()

def convertEach (names : Names) : List Phrase → Role Bool → Converting (List Node) :=
  Visitor.plain.convertEach names fun _ => ()

def convertMaybe (names : Names) : Option Phrase → Role Bool → Converting (Option Node) :=
  Visitor.plain.convertMaybe names ()

def convertArgs (names : Names) : Option (List Phrase) → Converting (Option (List Node)) :=
  Visitor.plain.convertArgs names fun _ => ()

def convertMembers (names : Names) : List Phrase → Converting Members :=
  Visitor.plain.convertMembers names fun _ => ()

def convertIndexers (names : Names) : List Phrase → Converting (List Node) :=
  Visitor.plain.convertIndexers names fun _ => ()

def convertParams (names : Names) :
    List Phrase → List (Role Bool) → List Json → Converting (List Node) :=
  Visitor.plain.convertParams names fun _ => ()

def convertRest (names : Names) : Option Phrase → Converting (List Node) :=
  Visitor.plain.convertRest names ()

theorem convertRest_parameter (names : Names) (s : Option Flow.Span) (f : Flow.ParameterForm)
    (n : Json) (a : Option Phrase) (o : Bool) :
    convertRest names (some (.parameter s f n a o)) =
      if n.isNull then pure []
      else do
        let type ← convertMaybe names a .other
        return [← Node.rest? n type] := rfl

def convertTypeParams (names : Names) : Option (List Phrase) → Converting (Option (List Node)) :=
  Visitor.plain.convertTypeParams names fun _ => ()

def convertEachTypeParam (names : Names) : List Phrase → Converting (List Node) :=
  Visitor.plain.convertEachTypeParam names fun _ => ()

def convertSignature (names : Names) : Phrase → Converting Node :=
  Visitor.plain.convertSignature names ()

theorem convertSignature_callable (names : Names) (s : Option Flow.Span) (form : Flow.CallableForm)
    (ps : List Phrase) (r rest : Option Phrase) (ts : Option (List Phrase)) :
    convertSignature names (.callable s form ps r rest ts) = do
      let roles ← signatureRoles ps
      let typeParams ← convertTypeParams names ts
      let used ← namesInUse ps
      let params ← convertParams names ps roles used
      let last ← convertRest names rest
      let result ← convertMaybe names r .returnType
      return .function typeParams (params ++ last) result := rfl

def convertPart (names : Names) : Flow.Found → Option (Role Bool) → Converting Node :=
  Visitor.plain.convertPart names ()

def convertSignaturePart (names : Names) : Flow.Part → Converting Node :=
  Visitor.plain.convertSignaturePart names ()

/-- Converts an entry of a document: a declared function by its signature, a declared name by its
type, if it has one, and anything else as it is. -/
def convertEntry (names : Names) : Phrase → Converting (Option Node)
  | .callable s (.declared n) ps r rest ts => do
    return some (← convertSignature names (.callable s (.declared n) ps r rest ts))
  | .parameter _ .declared _ t _ => convertMaybe names t .other
  | p => do return some (← convert names p .other)

end Converting

end Reannotate
