import LetScript.Json.Token
import LetScript.Json.Tree
import LetScript.Main
import LetScript.Proofs.Evaluation.Plain
import LetScript.Proofs.Parser.Acceptance
import LetScript.Proofs.Parser.Canonical
import LetScript.Proofs.Tree.RoundTrip
import LetScript.Value.Outline
import LetScript.Proofs.Evaluation.Frame
import LetScript.Proofs.Evaluation.Resolution
import LetScript.Proofs.Parser.Parts
import LetScript.Proofs.Parser.Progress
import LetScript.Proofs.Evaluation.Continuation
import LetScript.Proofs.Evaluation.Lockstep
import LetScript.Proofs.Shell.Session
import LetScript.Proofs.Evaluation.Bindings
import LetScript.Proofs.Evaluation.Names
import LetScript.Proofs.Evaluation.Origin
import LetScript.Proofs.Value.Printing
import LetScript.Proofs.Json.Reshaping
import LetScript.Proofs.Json.RoundTrip
import LetScript.Proofs.Token.Cut
import LetScript.Proofs.Parser.Course
import LetScript.Proofs.Parser.Calls
import LetScript.Proofs.Parser.Places
import LetScript.Proofs.Parser.Recovery
import LetScript.Proofs.Evaluation.Context
import LetScript.Proofs.Value.Arithmetic
import LetScript.Proofs.Evaluation.Formula
import LetScript.Proofs.Evaluation.Links
import LetScript.Proofs.Evaluation.Errors
import LetScript.Proofs.Evaluation.Trail
import LetScript.Proofs.Evaluation.History
import LetScript.Proofs.Shell.Arguments
import LetScript.Proofs.Evaluation.Order
import LetScript.Proofs.Evaluation.Making
import LetScript.Proofs.Evaluation.Handing
import LetScript.Proofs.Evaluation.Identity
import LetScript.Proofs.Evaluation.Depth
