import Lineage.Certificate
import Lineage.Exchange.Report

/-!
# The exchange form of certificates
-/

namespace Lineage.Certificate

def toJson (c : Certificate) : Json :=
  .object [
    ("schema_version", .integer c.schemaVersion),
    ("history_digest", .string c.historyDigest),
    ("record_count", .integer c.recordCount),
    ("verdict", c.verdict.toJson),
    ("verified_at", .string c.verifiedAt)]

/-- The fields that are looked at. -/
def shape : Json.Shape :=
  .fields [("schema_version", .any), ("history_digest", .any), ("record_count", .any), ("verdict", .any),
    ("verified_at", .any)]

/-- What a list of too few parts is no form of. -/
def form : String := "struct AuditCertificate with 5 elements"

def ofDocument (source : Source) (d : Document) : Typed Certificate := do
  let parts ← d.parts "struct AuditCertificate"
  let version := Document.count "u64"
  let size := Document.count "usize"
  parts.check [
    ("schema_version", fun d => discard (version d)),
    ("history_digest", fun d => discard d.text),
    ("record_count", fun d => discard (size d)),
    ("verdict", fun d => discard (Report.ofDocument d)),
    ("verified_at", fun d => discard d.text)]
  let schemaVersion ← parts.get 0 "schema_version" form version
  let historyDigest ← parts.get 1 "history_digest" form Document.text
  let recordCount ← parts.get 2 "record_count" form size
  let verdict ← parts.get 3 "verdict" form Report.ofDocument
  let verifiedAt ← parts.get 4 "verified_at" form Document.text
  parts.endStructure source 5
  return ⟨schemaVersion, historyDigest, recordCount, verdict, verifiedAt⟩

end Lineage.Certificate
