import Lineage.History.Entry
import Lineage.Json.Reader
import Lineage.Json.Writer
import Lineage.Verification

/-!
# History files

A history file is a JSON array of entries.  Entries that break a rule are kept beside the records, as
violations at their positions in the file, so that decoding loses nothing.
-/

namespace Lineage

/-- What a history file holds. -/
structure Decoded where
  records : History
  malformed : List Violation

namespace Decoded

/-- The number of entries, well-formed or not. -/
def recordCount (d : Decoded) : Nat :=
  d.records.length + d.malformed.length

def isWellFormed (d : Decoded) : Bool :=
  d.malformed.isEmpty

def ofEntries (entries : List Json.Value) : Decoded :=
  let read := entries.map Record.ofEntry
  { records := read.filterMap Except.toOption
    malformed := read.zipIdx.filterMap fun
      | (.error why, position) => some (.atPosition position (.malformedRecord why.reason))
      | (.ok _, _) => none }

/-- The report on what was decoded.  When entries are malformed the records are not looked at, since their
positions are not those of the file. -/
def verify (d : Decoded) (v : Verifier) : Except Interrupted Report :=
  if d.isWellFormed then v.run d.records
  else do
    v.checkpoint 0
    let kept := match v.policy with
      | .collect => d.malformed
      | .failFast => d.malformed.take 1
    return .ofViolations d.recordCount kept

end Decoded

/-- Why bytes are no history, or were not looked at to the end. -/
inductive DecodeError where
  | notJson (fault : Json.Fault)
  | notAnArray (found : Json.Kind)
  | interrupted (stop : Interrupted)
  deriving DecidableEq, Repr

namespace History

/-- Decodes the content of a history file.  The verifier's flag is asked before every entry. -/
def decodeWith (v : Verifier) (content : Bytes) : Except DecodeError Decoded := do
  let value ← (Json.Value.read content).mapError .notJson
  match value.items? with
  | none => .error (.notAnArray value.kind)
  | some entries =>
    ((List.range entries.length).forM v.checkpoint).mapError .interrupted
    return .ofEntries entries

def decode (content : Bytes) : Except DecodeError Decoded :=
  decodeWith (.of .collect) content

/-- The value that a history is written as. -/
def encode (h : History) : Json.Value :=
  .array (h.map Record.toEntry)

/-- The content of the file that a history is written to. -/
def content (h : History) : Bytes :=
  .ofString h.encode.json.pretty

end History

end Lineage
