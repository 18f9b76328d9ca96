import Lineage.Record
import Lineage.Report
import Std.Data.TreeMap

/-!
# Verification

A history is trusted when it could have been recorded by appending only: the first record is the only one
without a parent, every other record names a parent that was recorded before it, and no two records share an
id.  Parents then stand before their children, so a record that names itself is the only cycle left to look
for, and one forward pass over the records finds every breach.
-/

namespace Lineage

/-- What to do after the first violation. -/
inductive Policy where
  /-- Go on, and report every violation in recorded order. -/
  | collect
  /-- Stop, and report that violation alone. -/
  | failFast
  deriving DecidableEq, Repr

/-- What a forward pass knows of the records behind it. -/
structure Pass where
  /-- Every id, with the position of its first record. -/
  seen : Std.TreeMap String Nat
  /-- The id of the first record without a parent. -/
  root : Option String
  violations : Array Violation

namespace Pass

def empty : Pass :=
  ⟨∅, none, #[]⟩

/-- An id that was recorded before. -/
def duplicates (p : Pass) (r : Record) : List Breach :=
  match p.seen[r.id]? with
  | some first => [.duplicateId r.id first]
  | none => []

/-- The first record must not name a parent. -/
def firstParentage (r : Record) : List Breach :=
  match r.parent with
  | none => []
  | some parent =>
    .rootHasParent r.id parent :: if r.isSelfReferencing then [.selfReference r.id] else []

/-- A later record must name a parent behind it.  Whether it names itself is asked first: if its id was
recorded before, that record would pass for its parent. -/
def laterParentage (p : Pass) (r : Record) : List Breach :=
  match r.parent, p.root with
  | none, some root => [.multipleRoots r.id root]
  | none, none => [.misplacedRoot r.id]
  | some parent, _ =>
    if r.isSelfReferencing then [.selfReference r.id]
    else if p.seen.contains parent then []
    else [.missingParent parent r.id]

/-- What the record at a position breaks, given the records behind it. -/
def breaches (p : Pass) (position : Nat) (r : Record) : List Breach :=
  p.duplicates r ++ if position = 0 then firstParentage r else p.laterParentage r

/-- The root behind the record at a position: the first record if it has no parent, and a later one without a parent
only if there was none. -/
def rootAfter (p : Pass) (position : Nat) (r : Record) : Option String :=
  match r.parent with
  | some _ => p.root
  | none => if position = 0 then some r.id else p.root.or (some r.id)

/-- Takes in the record at a position, which counts as recorded even when it breaks a rule. -/
def check (p : Pass) (position : Nat) (r : Record) : Pass where
  seen := p.seen.insertIfNew r.id position
  root := p.rootAfter position r
  violations := p.violations ++ (p.breaches position r).map (Violation.atPosition position)

end Pass

/-- Goes on with a pass at a position.  The gate is asked before every record, and a refusal ends the pass. -/
def scanFrom {ε : Type} (gate : Nat → Except ε Unit) (policy : Policy) (position : Nat) (p : Pass) :
    History → Except ε Pass
  | [] => .ok p
  | r :: rest =>
    match gate position with
    | .error e => .error e
    | .ok () =>
      let p := p.check position r
      if policy = .failFast ∧ !p.violations.isEmpty then .ok { p with violations := p.violations.take 1 }
      else scanFrom gate policy (position + 1) p rest

/-- The report on a history, or the gate's refusal. -/
def scan {ε : Type} (gate : Nat → Except ε Unit) (policy : Policy) (h : History) : Except ε Report :=
  match h with
  | [] => .ok (.ofViolations 0 [⟨none, .emptyHistory⟩])
  | _ => (scanFrom gate policy 0 .empty h).map fun p => .ofViolations h.length p.violations.toList

/-- The report on a history under a policy. -/
def verifyWith (policy : Policy) (h : History) : Report :=
  match (scan (fun _ => .ok ()) policy h : Except Empty Report) with
  | .ok report => report
  | .error never => nomatch never

/-- The report on a history, with all its violations. -/
def verify (h : History) : Report :=
  verifyWith .collect h

/-- A verification that was cancelled: the position of the first record that was not examined. -/
structure Interrupted where
  position : Nat
  deriving DecidableEq, Repr

def Interrupted.message (i : Interrupted) : String :=
  s!"verification interrupted before record {i.position}"

/-- A policy, and possibly a flag that cancels the verification when it is set. -/
structure Verifier where
  policy : Policy
  flag : Option Bool
  deriving DecidableEq, Repr

namespace Verifier

/-- A verifier that cannot be cancelled. -/
def of (policy : Policy) : Verifier :=
  ⟨policy, none⟩

/-- Refuses to go on at a position once the flag is set. -/
def checkpoint (v : Verifier) (position : Nat) : Except Interrupted Unit :=
  if v.flag = some true then .error ⟨position⟩ else .ok ()

def run (v : Verifier) (h : History) : Except Interrupted Report :=
  scan v.checkpoint v.policy h

end Verifier

end Lineage
