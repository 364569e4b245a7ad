import Vouch.Main
import Vouch.Files.Tree
import Vouch.Proofs.Graph.InStep
import Vouch.Proofs.Graph.Survival
import Vouch.Proofs.Graph.Texts
import Vouch.Proofs.Score.Bystander
import Vouch.Proofs.Score.Growth
import Vouch.Proofs.Score.Interior
import Vouch.Proofs.Score.Reproduced
import Vouch.Proofs.Score.Vouching
import Vouch.Proofs.Graph.Joined
import Vouch.Proofs.CommandLine.Asked
import Vouch.Proofs.Score.Entry
import Vouch.Proofs.Json.Limits
import Vouch.Proofs.Json.Writable
import Vouch.Proofs.Store.Legible
import Vouch.Proofs.Credential.Interrupted
import Vouch.Proofs.Credential.Shapes
import Vouch.Proofs.Graph.Latest
import Vouch.Proofs.Score.Ball
import Vouch.Proofs.Score.Canonical
import Vouch.Proofs.Score.Balance
import Vouch.Proofs.Score.Average
import Vouch.Proofs.Calendar.Clock
import Vouch.Proofs.Calendar.Date
import Vouch.Proofs.Score.Summary
import Vouch.Proofs.Calendar.Written
import Vouch.Proofs.Calendar.Spelling
import Vouch.Proofs.Graph.Faults
import Vouch.Proofs.Graph.Repeated
import Vouch.Proofs.Graph.Parts
import Vouch.Proofs.Graph.Identities
import Vouch.Proofs.Graph.Gathered
