import Lineage.Certificate
import Lineage.Files.Tree
import Lineage.History.File
import Lineage.Trace

/-!
# Audits

An audit reads the bytes of a history, hashes them, decodes them and verifies what they hold.  Malformed
entries and violations are part of its outcome; an audit only fails when there is no history to judge, or when
it is interrupted.
-/

namespace Lineage

structure Outcome where
  report : Report
  recordCount : Nat
  /-- The digest of the bytes that were verified. -/
  digest : Digest
  deriving DecidableEq

/-- The certificate for an outcome. -/
def Outcome.certificate (o : Outcome) (verifiedAt : String) : Certificate :=
  .ofDigest o.digest o.recordCount o.report verifiedAt

/-- Audits the content of a history file. -/
def History.audit (hash : Bytes → Digest) (v : Verifier) (content : Bytes) : Except DecodeError Outcome := do
  let decoded ← decodeWith v content
  let report ← (decoded.verify v).mapError .interrupted
  return ⟨report, decoded.recordCount, hash content⟩

/-- Why there is nothing to judge. -/
inductive HistoryError where
  | unreadable (path : String) (why : FileError)
  | undecodable (why : DecodeError)
  deriving DecidableEq, Repr

namespace HistoryError

def isUnreadable : HistoryError → Bool
  | .unreadable _ _ => true
  | .undecodable _ => false

def message : HistoryError → String
  | .unreadable path why => s!"Failed to read {path}: {why.message}"
  | .undecodable (.notJson fault) => s!"Invalid history format: {fault.message}"
  | .undecodable (.notAnArray found) => s!"History must be a JSON array of records, found {found.phrase}"
  | .undecodable (.interrupted stop) => stop.message

/-- The messages of an error and of what lies behind it, outermost first. -/
def chain (e : HistoryError) : List String :=
  match e with
  | .unreadable _ why => [e.message, why.message]
  | .undecodable (.notJson fault) => [e.message, fault.message]
  | .undecodable _ => [e.message]

end HistoryError

namespace FileTree

/-- Names the path in an error. -/
def naming {α : Type} (path : String) (answer : Except FileError α) : Except HistoryError α :=
  answer.mapError (.unreadable path)

def contentAt (t : FileTree) (path : String) : Except HistoryError Bytes :=
  naming path (t.read path)

def loadHistory (t : FileTree) (path : String) : Except HistoryError Decoded := do
  (History.decode (← t.contentAt path)).mapError .undecodable

def auditHistory (t : FileTree) (hash : Bytes → Digest) (v : Verifier) (path : String) :
    Except HistoryError Outcome := do
  (History.audit hash v (← t.contentAt path)).mapError .undecodable

def readTrace (t : FileTree) (path : String) : Except HistoryError (List Char) :=
  return Trace.text (← t.contentAt path)

/-- Makes the directory that a path lies in. -/
def makeParent (t : FileTree) (path : String) : Changes HistoryError :=
  match Path.parent? path with
  | none => t.after (.ok t)
  | some directory => (t.makeDirectories directory).mapError (.unreadable directory)

/-- Writes a history, and makes the directory it lies in. -/
def saveHistory (t : FileTree) (path : String) (h : History) : Changes HistoryError :=
  let made := t.makeParent path
  match made.result with
  | .ok () => made.files.after (naming path (made.files.write path h.content))
  | .error _ => made

end FileTree

end Lineage
