import Lineage.Exchange.Policy
import Lineage.Exchange.Record
import Lineage.Main
import Lineage.Sample
import Lineage.Proofs.Pass
import Lineage.Proofs.Violations
import Lineage.Proofs.Stages
import Lineage.Proofs.Derivation
import Lineage.Proofs.Appending
import Lineage.Proofs.Certification
import Lineage.Proofs.Partition
import Lineage.Proofs.Location
import Lineage.Proofs.Interruption
import Lineage.Proofs.Gates
import Lineage.Proofs.Order
import Lineage.Proofs.Deletion
import Lineage.Proofs.Renaming
import Lineage.Proofs.Fields
import Lineage.Proofs.Json.Feed
import Lineage.Proofs.Json.Text
import Lineage.Proofs.Json.Integer
import Lineage.Proofs.Json.RoundTrip
import Lineage.Proofs.Json.Step
import Lineage.Proofs.Rereading
import Lineage.Proofs.Saving
import Lineage.Proofs.Complaints
import Lineage.Proofs.Json.Cut
import Lineage.Proofs.Json.Nesting
import Lineage.Proofs.Json.Balance
import Lineage.Proofs.Torn
import Lineage.Proofs.Exchange
import Lineage.Proofs.Payload
import Lineage.Proofs.NormalForm
import Lineage.Proofs.Json.Size
import Lineage.Proofs.Binding
import Lineage.Proofs.CommandLine.Spelling
import Lineage.Proofs.CommandLine.Agreement
import Lineage.Proofs.Gaps
import Lineage.Proofs.Trace
import Lineage.Proofs.Decimal
import Lineage.Proofs.Respelling
