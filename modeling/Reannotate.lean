import Reannotate.Main
import Reannotate.Proofs.Absence
import Reannotate.Proofs.Complaints
import Reannotate.Proofs.Distinct
import Reannotate.Proofs.Handing
import Reannotate.Proofs.Members
import Reannotate.Proofs.Parents
import Reannotate.Proofs.Preservation
import Reannotate.Proofs.Recovery
import Reannotate.Proofs.Rereading
import Reannotate.Proofs.Roles
import Reannotate.Proofs.Shortlex
import Reannotate.Proofs.Keywords
import Reannotate.Proofs.Renaming
import Reannotate.Proofs.Agreement
import Reannotate.Proofs.Spans
import Reannotate.Proofs.Wrappers
import Reannotate.Proofs.Literals
