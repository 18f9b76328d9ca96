import Lineage.Audit
import Lineage.Text.Table
import Lineage.Text.Timestamp
import Lineage.Workspace

/-!
# Tables of violations and of the state of a workspace
-/

namespace Lineage

namespace Violation

def row (v : Violation) : List String :=
  [match v.position with
    | some p => toString p
    | none => "-",
    v.breach.name, v.breach.message]

/-- One row for each violation. -/
def table (violations : List Violation) : Table :=
  ⟨["Position", "Violation", "Detail"], violations.map row⟩

end Violation

namespace Workspace

/-- What is known of one of a workspace's files. -/
structure Finding where
  status : String
  details : String
  deriving DecidableEq, Repr

def missing : Finding :=
  ⟨"MISSING", ""⟩

/-- A history that cannot be read is an error; one that can, and is not sound, is corrupt. -/
def historyFinding (w : Workspace) (hash : Bytes → Digest) (t : FileTree) : Finding :=
  if t.has w.historyPath then
    match t.auditHistory hash (.of w.policy) w.historyPath with
    | .ok ⟨.verified n, _, _⟩ => ⟨"FOUND", s!"{n} nodes, verified"⟩
    | .ok ⟨.failed vs, count, _⟩ => ⟨"CORRUPT", s!"{count} records, {vs.length} violation(s)"⟩
    | .error e => ⟨if e.isUnreadable then "ERROR" else "CORRUPT", e.message⟩
  else missing

def traceFinding (w : Workspace) (t : FileTree) : Finding :=
  if t.has w.tracePath then
    match t.readTrace w.tracePath with
    | .ok text => ⟨"FOUND", s!"{Trace.lineCount text} lines"⟩
    | .error e => ⟨"ERROR", e.message⟩
  else missing

def outputFinding (w : Workspace) (t : FileTree) : Finding :=
  match t.metadata w.outputPath with
  | .ok (size, modified) => ⟨"FOUND", s!"{size} bytes, modified {Timestamp.text modified}"⟩
  | .error _ => missing

/-- One row for each of a workspace's files. -/
def statusTable (w : Workspace) (hash : Bytes → Digest) (t : FileTree) : Table :=
  let row (file : String) (f : Finding) := [file, f.status, f.details]
  ⟨["File", "Status", "Details"],
    [row "History" (w.historyFinding hash t), row "Trace" (w.traceFinding t),
      row "Atomized" (w.outputFinding t)]⟩

end Workspace

end Lineage
