/-!
# Violations and reports

What a history can break, where it does, and the verdict on the whole.
-/

namespace Lineage

/-- A broken rule, with the ids that show where. -/
inductive Breach where
  | rootHasParent (id parent : String)
  | missingParent (parent id : String)
  | selfReference (id : String)
  | duplicateId (id : String) (firstSeen : Nat)
  | multipleRoots (id root : String)
  | misplacedRoot (id : String)
  | emptyHistory
  | malformedRecord (reason : String)
  deriving DecidableEq, Repr

namespace Breach

/-- The name in tables. -/
def name : Breach → String
  | .rootHasParent _ _ => "RootHasParent"
  | .missingParent _ _ => "MissingParent"
  | .selfReference _ => "SelfReference"
  | .duplicateId _ _ => "DuplicateId"
  | .multipleRoots _ _ => "MultipleRoots"
  | .misplacedRoot _ => "MisplacedRoot"
  | .emptyHistory => "EmptyHistory"
  | .malformedRecord _ => "MalformedRecord"

def message : Breach → String
  | .rootHasParent id parent => s!"first record {id} must not have a parent, found {parent}"
  | .missingParent parent id => s!"missing parent {parent} for node {id}"
  | .selfReference id => s!"record {id} names itself as its parent"
  | .duplicateId id firstSeen => s!"duplicate id {id}, first recorded at position {firstSeen}"
  | .multipleRoots id root => s!"record {id} has no parent but {root} is already the root"
  | .misplacedRoot id => s!"record {id} has no parent but is not the first record"
  | .emptyHistory => "history contains no records"
  | .malformedRecord reason => s!"malformed record: {reason}"

end Breach

/-- A breach and the position of the record that commits it.  A breach of the history as a whole has none. -/
structure Violation where
  position : Option Nat
  breach : Breach
  deriving DecidableEq, Repr

namespace Violation

/-- A violation of the record at a position. -/
def atPosition (position : Nat) (breach : Breach) : Violation :=
  ⟨some position, breach⟩

def message (v : Violation) : String :=
  match v.position with
  | some p => s!"record {p}: {v.breach.message}"
  | none => v.breach.message

end Violation

inductive Report where
  | verified (nodeCount : Nat)
  | failed (violations : List Violation)
  deriving DecidableEq, Repr

namespace Report

/-- The verdict on a history of a given length: verified when it has no violations. -/
def ofViolations (nodeCount : Nat) : List Violation → Report
  | [] => .verified nodeCount
  | v :: vs => .failed (v :: vs)

def isVerified : Report → Bool
  | .verified _ => true
  | .failed _ => false

def nodeCount? : Report → Option Nat
  | .verified n => some n
  | .failed _ => none

def violations : Report → List Violation
  | .verified _ => []
  | .failed vs => vs

def first? (r : Report) : Option Violation :=
  r.violations.head?

def message : Report → String
  | .verified n => s!"verified: {n} nodes, no missing links"
  | .failed vs => s!"failed: {vs.length} violation(s)" ++ String.join (vs.map fun v => "\n  " ++ v.message)

end Report

end Lineage
