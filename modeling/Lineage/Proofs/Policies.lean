import Lineage.Audit
import Lineage.Proofs.Decoding

/-!
# Stopping at the first violation

With a clear flag, an audit decodes a file and reports its violations, of which the policy keeps all or the
first (`History.audit_eq`).  So an audit that stops at the first violation, although it never sees the rest of
the file, is the audit that goes on with its report cut off.
-/

namespace Lineage

/-- The second report is the first one, cut off behind its first violation. -/
inductive Report.Truncates : Report → Report → Prop where
  | verified (n : Nat) : Truncates (.verified n) (.verified n)
  | failed (v : Violation) (vs : List Violation) : Truncates (.failed (v :: vs)) (.failed [v])

/-- The outcomes differ in nothing but that the second report is cut off. -/
structure Outcome.Truncates (full cut : Outcome) : Prop where
  report : full.report.Truncates cut.report
  recordCount : cut.recordCount = full.recordCount
  digest : cut.digest = full.digest

theorem Report.truncates_ofViolations (n : Nat) (vs : List Violation) :
    (ofViolations n (Policy.kept .collect vs)).Truncates (ofViolations n (Policy.kept .failFast vs)) := by
  cases vs with
  | nil => exact .verified n
  | cons v vs => exact .failed v vs

/-! ### Audits of what is at a path -/

namespace FileTree

variable {t : FileTree} {hash : Bytes → Digest} {v : Verifier} {path : String}

theorem auditHistory_of_read_error {why : FileError} (h : t.read path = .error why) :
    t.auditHistory hash v path = .error (.unreadable path why) := by
  rw [auditHistory, contentAt, naming, h]
  rfl

theorem auditHistory_of_read {content : Bytes} (h : t.read path = .ok content) :
    t.auditHistory hash v path = (History.audit hash v content).mapError .undecodable := by
  rw [auditHistory, contentAt, naming, h]
  rfl

end FileTree

/-! ### Audits with a clear flag -/

/-- The outcome of an audit that found these entries in the content of a file. -/
def Decoded.outcome (hash : Bytes → Digest) (policy : Policy) (content : Bytes) (d : Decoded) : Outcome :=
  ⟨.ofViolations d.recordCount (policy.kept d.violations), d.recordCount, hash content⟩

theorem History.audit_eq {v : Verifier} (hv : v.flag ≠ some true) (hash : Bytes → Digest) (content : Bytes) :
    audit hash v content = (decode content).map (Decoded.outcome hash v.policy content) := by
  rw [audit, decodeWith_eq_decode hv]
  cases decode content with
  | error e => rfl
  | ok d =>
    show ((d.verify v).mapError DecodeError.interrupted >>= _) = _
    rw [Decoded.verify_eq hv]
    rfl

theorem FileTree.auditHistory_eq {v : Verifier} (hv : v.flag ≠ some true) (t : FileTree) (hash : Bytes → Digest)
    (path : String) :
    t.auditHistory hash v path = (do
      let content ← t.contentAt path
      ((History.decode content).map (Decoded.outcome hash v.policy content)).mapError .undecodable) := by
  simp only [auditHistory, History.audit_eq hv]

theorem FileTree.auditHistory_eq_outcome_iff {v : Verifier} (hv : v.flag ≠ some true) {t : FileTree}
    {hash : Bytes → Digest} {path : String} {o : Outcome} :
    t.auditHistory hash v path = .ok o ↔
      ∃ content d, t.read path = .ok content ∧ History.decode content = .ok d ∧
        o = d.outcome hash v.policy content := by
  simp only [auditHistory_eq hv, contentAt, naming, bind_eq_ok_iff, mapError_eq_ok_iff, map_eq_ok_iff,
    exists_and_left]

/-! ### The two policies -/

theorem Decoded.outcome_truncates (hash : Bytes → Digest) (content : Bytes) (d : Decoded) :
    (d.outcome hash .collect content).Truncates (d.outcome hash .failFast content) where
  report := Report.truncates_ofViolations d.recordCount d.violations
  recordCount := rfl
  digest := rfl

/-- Stopping at the first violation cuts off the report behind it: the report on a history, and the report of
an audit with a clear flag.  Such audits fail with the same error and agree on the number of entries and on the
digest. -/
theorem failFast_truncates_collect (t : FileTree) (hash : Bytes → Digest) (path : String) {f g : Option Bool}
    (hf : f ≠ some true) (hg : g ≠ some true) :
    (∀ h : History, (verifyWith .collect h).Truncates (verifyWith .failFast h)) ∧
      ((∃ e, t.auditHistory hash ⟨.collect, f⟩ path = .error e ∧
          t.auditHistory hash ⟨.failFast, g⟩ path = .error e) ∨
        ∃ full cut, t.auditHistory hash ⟨.collect, f⟩ path = .ok full ∧
          t.auditHistory hash ⟨.failFast, g⟩ path = .ok cut ∧ full.Truncates cut) := by
  constructor
  · intro h
    rw [verifyWith_eq, verifyWith_eq]
    exact Report.truncates_ofViolations h.length h.faults
  · rw [FileTree.auditHistory_eq hf, FileTree.auditHistory_eq hg]
    cases t.contentAt path with
    | error e => exact .inl ⟨e, rfl, rfl⟩
    | ok content =>
      cases hd : History.decode content with
      | error e =>
        refine .inl ⟨.undecodable e, ?_, ?_⟩
        · simp only [bind, Except.bind, hd, Except.map, mapError_error]
        · simp only [bind, Except.bind, hd, Except.map, mapError_error]
      | ok d =>
        refine .inr ⟨_, _, ?_, ?_, d.outcome_truncates hash content⟩
        · simp only [bind, Except.bind, hd, Except.map, mapError_ok]
        · simp only [bind, Except.bind, hd, Except.map, mapError_ok]

/-- A root, and a record that has its id and names itself: two violations at one position. -/
def repeatedEntry : Bytes :=
  .ofString "[\x7b\"id\":\"a\",\"parent\":\"\"\x7d,\x7b\"id\":\"a\",\"parent\":\"a\"\x7d]"

def repeatedTree : FileTree :=
  (FileTree.fresh 0).set ["work", "dag.json"] (.file repeatedEntry 0 false)

/-- Two violations at one position, audited without a flag and with a clear one. -/
theorem failFast_truncates_repetition :
    (none : Option Bool) ≠ some true ∧ some false ≠ some true ∧
      (verifyWith .collect [.root "a", .child "a" "a"]).Truncates
        (verifyWith .failFast [.root "a", .child "a" "a"]) ∧
      ((∃ e, repeatedTree.auditHistory Digest.ofContent ⟨.collect, none⟩ "dag.json" = .error e ∧
          repeatedTree.auditHistory Digest.ofContent ⟨.failFast, some false⟩ "dag.json" = .error e) ∨
        ∃ full cut, repeatedTree.auditHistory Digest.ofContent ⟨.collect, none⟩ "dag.json" = .ok full ∧
          repeatedTree.auditHistory Digest.ofContent ⟨.failFast, some false⟩ "dag.json" = .ok cut ∧
          full.Truncates cut) := by
  have hf : (none : Option Bool) ≠ some true := by decide
  have hg : some false ≠ some true := by decide
  obtain ⟨hverify, haudit⟩ := failFast_truncates_collect repeatedTree Digest.ofContent "dag.json" hf hg
  exact ⟨hf, hg, hverify [.root "a", .child "a" "a"], haudit⟩

end Lineage
