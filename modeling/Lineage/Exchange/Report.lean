import Lineage.Json.Typed
import Lineage.Report

/-!
# The exchange form of reports

A violation is written as one object: its position, then the kind of the breach and the parts of that kind.  A
report is an object that begins with its verdict.
-/

namespace Lineage

open Document (Parts)

/-- A number, or null for none. -/
def Json.ofCount? : Option Nat → Json
  | none => .null
  | some n => .integer n

namespace Breach

/-- The kinds of breaches, as the exchange form names them. -/
def kinds : List String :=
  ["root_has_parent", "missing_parent", "self_reference", "duplicate_id", "multiple_roots", "misplaced_root",
    "empty_history", "malformed_record"]

def kind : Breach → String
  | .rootHasParent _ _ => "root_has_parent"
  | .missingParent _ _ => "missing_parent"
  | .selfReference _ => "self_reference"
  | .duplicateId _ _ => "duplicate_id"
  | .multipleRoots _ _ => "multiple_roots"
  | .misplacedRoot _ => "misplaced_root"
  | .emptyHistory => "empty_history"
  | .malformedRecord _ => "malformed_record"

/-- The parts of a breach, in the order in which they are written. -/
def fields : Breach → Fields Json
  | .rootHasParent id parent => [("id", .string id), ("parent", .string parent)]
  | .missingParent parent id => [("parent", .string parent), ("id", .string id)]
  | .selfReference id => [("id", .string id)]
  | .duplicateId id firstSeen => [("id", .string id), ("first_seen", .integer firstSeen)]
  | .multipleRoots id root => [("id", .string id), ("root", .string root)]
  | .misplacedRoot id => [("id", .string id)]
  | .emptyHistory => []
  | .malformedRecord reason => [("reason", .string reason)]

def toFields (b : Breach) : Fields Json :=
  ("kind", .string b.kind) :: b.fields

def toJson (b : Breach) : Json :=
  .object b.toFields

/-- What a list of too few parts is no form of. -/
def form (variant : String) (size : Nat) : String :=
  s!"struct variant ViolationKind::{variant} with {Parts.elements size}"

/-- Reads the parts of a breach that names one text. -/
def one (variant a : String) (make : String → Breach) (p : Parts) : Typed Breach := do
  p.check [(a, fun d => discard d.text)]
  let x ← p.get 0 a (form variant 1) Document.text
  p.endVariant 1
  return make x

/-- Reads the parts of a breach that names two texts. -/
def two (variant a b : String) (make : String → String → Breach) (p : Parts) : Typed Breach := do
  p.check [(a, fun d => discard d.text), (b, fun d => discard d.text)]
  let x ← p.get 0 a (form variant 2) Document.text
  let y ← p.get 1 b (form variant 2) Document.text
  p.endVariant 2
  return make x y

def duplicate (p : Parts) : Typed Breach := do
  let size := Document.count "usize"
  p.check [("id", fun d => discard d.text), ("first_seen", fun d => discard (size d))]
  let id ← p.get 0 "id" (form "DuplicateId" 2) Document.text
  let firstSeen ← p.get 1 "first_seen" (form "DuplicateId" 2) size
  p.endVariant 2
  return .duplicateId id firstSeen

/-- Reads the parts of a breach of a given kind. -/
def ofParts (kind : String) (p : Parts) : Typed Breach :=
  match kind with
  | "root_has_parent" => two "RootHasParent" "id" "parent" .rootHasParent p
  | "missing_parent" => two "MissingParent" "parent" "id" .missingParent p
  | "self_reference" => one "SelfReference" "id" .selfReference p
  | "duplicate_id" => duplicate p
  | "multiple_roots" => two "MultipleRoots" "id" "root" .multipleRoots p
  | "misplaced_root" => one "MisplacedRoot" "id" .misplacedRoot p
  | "malformed_record" => one "MalformedRecord" "reason" .malformedRecord p
  | _ => do
    p.endVariant 0
    return .emptyHistory

def ofDocument (d : Document) : Typed Breach := do
  let (kind, parts) ← d.tagged "internally tagged enum ViolationKind" "kind" kinds
  ofParts kind parts

end Breach

namespace Violation

def toJson (v : Violation) : Json :=
  .object (("position", Json.ofCount? v.position) :: v.breach.toFields)

def position? (d : Document) : Typed (Option Nat) :=
  d.optional (Document.count "usize")

/-- Takes the position out of the fields of a violation, whose others are those of the breach. -/
def splitPosition (found : Option (Option Nat)) (others : Fields Document) :
    Fields Document → Typed (Option Nat × Fields Document)
  | [] => .ok (found.join, others.reverse)
  | (name, d) :: rest =>
    if name = "position" then
      match found with
      | some _ => .error (.duplicateField "position")
      | none => do splitPosition (some (← position? d)) others rest
    else do
      discard d.whole
      splitPosition found ((name, d) :: others) rest

/-- Reads a violation, whose kind may be written as its place among the kinds. -/
def ofDocument : Document → Typed Violation
  | .object fields fault => do
    let (position, others) ← splitPosition none [] fields
    Document.ending fault ()
    let (kind, parts) ← Document.taggedFields "kind" (Document.variantOrPlace Breach.kinds) others none
    return ⟨position, ← Breach.ofParts kind parts⟩
  | d => d.not "struct Violation"

end Violation

namespace Report

def toJson : Report → Json
  | .verified n => .object [("verdict", .string "verified"), ("node_count", .integer n)]
  | .failed vs => .object [("verdict", .string "failed"), ("violations", .array (vs.map Violation.toJson))]

def verdicts : List String :=
  ["verified", "failed"]

/-- What a list of too few parts is no form of. -/
def form (variant : String) : String :=
  s!"struct variant VerificationReport::{variant} with 1 element"

/-- Reads the single part of a report. -/
def one {α : Type} (variant name : String) (read : Document → Typed α) (p : Parts) : Typed α := do
  p.check [(name, fun d => discard (read d))]
  let a ← p.get 0 name (form variant) read
  p.endVariant 1
  return a

def ofDocument (d : Document) : Typed Report := do
  let (verdict, parts) ← d.tagged "internally tagged enum VerificationReport" "verdict" verdicts
  match verdict with
  | "verified" => return .verified (← one "Verified" "node_count" (Document.count "usize") parts)
  | _ => return .failed (← one "Failed" "violations" (Document.list Violation.ofDocument) parts)

end Report

end Lineage
