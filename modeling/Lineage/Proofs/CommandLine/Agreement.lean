import Lineage.Proofs.Binding
import Lineage.Proofs.CommandLine.Inspection
import Lineage.Proofs.CommandLine.Spelling
import Lineage.Proofs.Reaching

/-!
# Verifying and inspecting a history

A verification ends well exactly when its audit certifies, and prints a certificate whenever there is a verdict
(`Workspace.verification_tells`).  An inspection makes an audit of its own and puts its outcome into a word
(`Workspace.historyFinding_tells`).  Whether an audit certifies does not depend on the policy
(`FileTree.certifies_iff`), so the word and the exit codes agree.

An inspection first looks whether the history is found, and what is there and cannot be reached is not found
(`FileTree.has_iff`).  So the row says that such a history is missing, where a verification says why it was refused.
-/

namespace Lineage

/-! ### Audits of what is at a path -/

namespace FileTree

variable {t : FileTree} {hash : Bytes → Digest} {v : Verifier} {path : String} {content : Bytes}

theorem auditHistory_of_decode_error (hv : v.flag ≠ some true) (h : t.read path = .ok content) {why : DecodeError}
    (hd : History.decode content = .error why) : t.auditHistory hash v path = .error (.undecodable why) := by
  rw [auditHistory_eq hv, contentAt, naming, h]
  simp only [mapError_ok, bind, Except.bind, hd]
  rfl

theorem auditHistory_of_decode (hv : v.flag ≠ some true) (h : t.read path = .ok content) {d : Decoded}
    (hd : History.decode content = .ok d) :
    t.auditHistory hash v path = .ok (d.outcome hash v.policy content) :=
  (auditHistory_eq_outcome_iff hv).2 ⟨content, d, h, hd, rfl⟩

/-- The audit of a history under a policy certifies it, with a number of records. -/
def Certifies (t : FileTree) (hash : Bytes → Digest) (path : String) (policy : Policy) (n : Nat) : Prop :=
  ∃ o, t.auditHistory hash (.of policy) path = .ok o ∧ o.report = .verified n

/-- What is certified does not depend on the policy. -/
theorem certifies_iff {policy : Policy} {n : Nat} :
    t.Certifies hash path policy n ↔
      ∃ content d, t.read path = .ok content ∧ History.decode content = .ok d ∧ d.violations = [] ∧
        n = d.recordCount := by
  have hv : (Verifier.of policy).flag ≠ some true := by simp [Verifier.of]
  have hreport : ∀ (d : Decoded) (content : Bytes),
      (d.outcome hash policy content).report = .verified n ↔ d.violations = [] ∧ n = d.recordCount := by
    intro d content
    rw [Decoded.outcome, Report.ofViolations_eq_verified_iff, Policy.kept_eq_nil_iff]
  simp only [Certifies, auditHistory_eq_outcome_iff hv]
  constructor
  · rintro ⟨_, ⟨content, d, hr, hd, rfl⟩, hn⟩
    exact ⟨content, d, hr, hd, (hreport d content).1 hn⟩
  · rintro ⟨content, d, hr, hd, hn⟩
    exact ⟨_, ⟨content, d, hr, hd, rfl⟩, (hreport d content).2 hn⟩

theorem not_certifies_of_read_error {why : FileError} (h : t.read path = .error why) {policy : Policy} {n : Nat} :
    ¬t.Certifies hash path policy n := by
  intro hn
  obtain ⟨content, -, hr, -⟩ := certifies_iff.1 hn
  cases h.symm.trans hr

end FileTree

/-! ### Verifications -/

/-- How a verification ended that read this at the path and made this audit of it.  It ends well exactly when the
audit certifies, and fails aloud otherwise.  With `json` it prints nothing if there is no verdict, and else the text of
a certificate of the verdict.  If the length of the file fits into 64 bits, that is what is read from the text. -/
structure Ending.Tells (e : Ending) (json : Bool) (source : Except FileError Bytes)
    (audit : Except HistoryError Outcome) : Prop where
  code : e.code = 0 ↔ ∃ o n, audit = .ok o ∧ o.report = .verified n
  failure : e.code ≠ 0 → e.code = 1 ∧ ∃ text, e.error = some text
  silent : json = true → ∀ why, audit = .error why → e.output = []
  printed : json = true → ∀ o, audit = .ok o →
    ∃ (content : Bytes) (c : Certificate), source = .ok content ∧ c.verdict = o.report ∧
      c.recordCount = o.recordCount ∧ e.output = .ofString (c.toJson.pretty ++ "\n") ∧
      (content.length ≤ Json.Numeral.maxSignificand →
        Typed.ofText Certificate.shape Certificate.ofDocument (.ofString c.toJson.pretty) = .ok c)

namespace Workspace

variable (w : Workspace) (s : Surroundings) (t : FileTree)

/-- The verification of the history of a workspace, under a policy and with `json` or without. -/
def verification (policy : Policy) (json : Bool) : Ending :=
  ((Command.verify (w.withPolicy policy) json).run s t).ending

theorem verification_tells (policy : Policy) (json : Bool) :
    (w.verification s t policy json).Tells json (t.read w.historyPath)
      (t.auditHistory s.hash (.of policy) w.historyPath) := by
  have hpath : (w.withPolicy policy).historyPath = w.historyPath := rfl
  have hpolicy : (w.withPolicy policy).policy = policy := rfl
  have hreads : ∀ o, t.auditHistory s.hash (.of policy) w.historyPath = .ok o →
      ∃ content, t.read w.historyPath = .ok content ∧ (content.length ≤ Json.Numeral.maxSignificand →
        Typed.ofText Certificate.shape Certificate.ofDocument (.ofString (o.certificate s.now).toJson.pretty) =
          .ok (o.certificate s.now)) := by
    intro o ho
    have hv : (Verifier.of policy).flag ≠ some true := by simp [Verifier.of]
    obtain ⟨content, d, hr, hd, rfl⟩ := (FileTree.auditHistory_eq_outcome_iff hv).1 ho
    exact ⟨content, hr, fun hfits => Decoded.ofText_certificate s.hash hd policy s.now hfits _ (by simp [Verifier.of])⟩
  -- how a verification ends depends on the tree only through its audit
  delta verification Command.run Command.runVerify
  dsimp only
  rw [hpath, hpolicy]
  generalize t.auditHistory s.hash (.of policy) w.historyPath = audit at hreads
  cases audit with
  | error why =>
    simp only [Run.ending]
    refine ⟨?_, fun _ => ⟨rfl, _, rfl⟩, fun hjson _ _ => ?_, ?_⟩
    · simp
    · simp [hjson]
    · simp
  | ok o =>
    obtain ⟨report, count, digest⟩ := o
    refine ⟨?_, fun hne => ?_, fun _ _ h => ?_, fun hjson o ho => ?_⟩
    · cases report <;> simp [Run.ending]
    · cases report with
      | verified n => exact absurd rfl hne
      | failed vs => exact ⟨rfl, _, rfl⟩
    · cases h
    · -- the certificate is printed whatever the verdict
      obtain rfl := Except.ok.inj ho
      obtain ⟨content, hr, htext⟩ := hreads _ rfl
      refine ⟨content, Outcome.certificate ⟨report, count, digest⟩ s.now, hr, rfl, rfl, ?_, htext⟩
      cases report <;> simp [Run.ending, Command.verdictText, Command.line, hjson]

theorem code_verification_eq_zero_iff (policy : Policy) (json : Bool) :
    (w.verification s t policy json).code = 0 ↔ ∃ n, t.Certifies s.hash w.historyPath policy n := by
  rw [(w.verification_tells s t policy json).code]
  exact exists_comm

/-! ### Inspections -/

/-- What an inspection says of a history, beside what is at its path and how verifications of it end. -/
structure HistoryTells (status details : String) : Prop where
  missing : status = "MISSING" ↔ ¬(t.Holds w.historyPath ∧ t.Reaches w.historyPath)
  error : status = "ERROR" ↔
    (t.Holds w.historyPath ∧ t.Reaches w.historyPath) ∧ ∃ why, t.read w.historyPath = .error why
  corrupt : ∀ policy json, status = "CORRUPT" ↔
    (∃ content, t.read w.historyPath = .ok content) ∧ (w.verification s t policy json).code ≠ 0
  found : ∀ policy json, status = "FOUND" ↔ (w.verification s t policy json).code = 0
  counted : ∀ policy n, t.Certifies s.hash w.historyPath policy n → details = s!"{n} nodes, verified"

/-- The finding on a history that was audited. -/
def auditFinding : Except HistoryError Outcome → Finding
  | .ok ⟨.verified n, _, _⟩ => ⟨"FOUND", s!"{n} nodes, verified"⟩
  | .ok ⟨.failed vs, count, _⟩ => ⟨"CORRUPT", s!"{count} records, {vs.length} violation(s)"⟩
  | .error e => ⟨if e.isUnreadable then "ERROR" else "CORRUPT", e.message⟩

theorem historyFinding_eq (hash : Bytes → Digest) :
    w.historyFinding hash t =
      if t.has w.historyPath then auditFinding (t.auditHistory hash (.of w.policy) w.historyPath) else missing := by
  delta historyFinding
  generalize t.auditHistory hash (.of w.policy) w.historyPath = audit
  rcases audit with e | ⟨_ | _, _, _⟩ <;> rfl

theorem auditFinding_verified {o : Outcome} {n : Nat} (h : o.report = .verified n) :
    auditFinding (.ok o) = ⟨"FOUND", s!"{n} nodes, verified"⟩ := by
  obtain ⟨report, count, digest⟩ := o
  obtain rfl : report = .verified n := h
  rfl

theorem auditFinding_failed {o : Outcome} {vs : List Violation} (h : o.report = .failed vs) :
    auditFinding (.ok o) = ⟨"CORRUPT", s!"{o.recordCount} records, {vs.length} violation(s)"⟩ := by
  obtain ⟨report, count, digest⟩ := o
  obtain rfl : report = .failed vs := h
  rfl

section

variable {w s t}

theorem tells_missing (h : t.has w.historyPath = false) : w.HistoryTells s t "MISSING" "" := by
  obtain ⟨why, hr⟩ := FileTree.exists_read_error h
  have hnever : ∀ policy n, ¬t.Certifies s.hash w.historyPath policy n :=
    fun _ _ => FileTree.not_certifies_of_read_error hr
  refine ⟨?_, ?_, fun policy json => ?_, fun policy json => ?_, fun policy n hn => absurd hn (hnever policy n)⟩
  · simp [← FileTree.has_iff, h]
  · simp [← FileTree.has_iff, h]
  · simp [hr]
  · simp [code_verification_eq_zero_iff, hnever]

theorem tells_error (h : t.has w.historyPath = true) {why : FileError} (hr : t.read w.historyPath = .error why)
    (details : String) : w.HistoryTells s t "ERROR" details := by
  have hnever : ∀ policy n, ¬t.Certifies s.hash w.historyPath policy n :=
    fun _ _ => FileTree.not_certifies_of_read_error hr
  refine ⟨?_, ?_, fun policy json => ?_, fun policy json => ?_, fun policy n hn => absurd hn (hnever policy n)⟩
  · simp [← FileTree.has_iff, h]
  · simp [← FileTree.has_iff, h, hr]
  · simp [hr]
  · simp [code_verification_eq_zero_iff, hnever]

theorem tells_corrupt {content : Bytes} (hr : t.read w.historyPath = .ok content)
    (hnever : ∀ policy n, ¬t.Certifies s.hash w.historyPath policy n) (details : String) :
    w.HistoryTells s t "CORRUPT" details := by
  refine ⟨?_, ?_, fun policy json => ?_, fun policy json => ?_, fun policy n hn => absurd hn (hnever policy n)⟩
  · simp [← FileTree.has_iff, FileTree.has_of_read hr]
  · simp [hr]
  · simp [hr, code_verification_eq_zero_iff, hnever]
  · simp [code_verification_eq_zero_iff, hnever]

theorem tells_found {n : Nat} (h : ∀ policy m, t.Certifies s.hash w.historyPath policy m ↔ m = n) :
    w.HistoryTells s t "FOUND" s!"{n} nodes, verified" := by
  obtain ⟨content, d, hr, -⟩ := FileTree.certifies_iff.1 ((h .collect n).2 rfl)
  refine ⟨?_, ?_, fun policy json => ?_, fun policy json => ?_, fun policy m hm => ?_⟩
  · simp [← FileTree.has_iff, FileTree.has_of_read hr]
  · simp [hr]
  · simp [code_verification_eq_zero_iff, h]
  · simp [code_verification_eq_zero_iff, h]
  · rw [(h policy m).1 hm]

end

theorem historyFinding_tells :
    w.HistoryTells s t (w.historyFinding s.hash t).status (w.historyFinding s.hash t).details := by
  have hv : (Verifier.of w.policy).flag ≠ some true := by simp [Verifier.of]
  rw [historyFinding_eq]
  cases hhas : t.has w.historyPath with
  | false => exact tells_missing hhas
  | true =>
    cases hr : t.read w.historyPath with
    | error why =>
      rw [FileTree.auditHistory_of_read_error hr]
      exact tells_error hhas hr _
    | ok content =>
      cases hd : History.decode content with
      | error why =>
        rw [FileTree.auditHistory_of_decode_error hv hr hd]
        refine tells_corrupt hr (fun policy n hn => ?_) _
        obtain ⟨content', d, hr', hd', -⟩ := FileTree.certifies_iff.1 hn
        obtain rfl := Except.ok.inj (hr.symm.trans hr')
        cases hd.symm.trans hd'
      | ok d =>
        have hcertifies : ∀ policy n, t.Certifies s.hash w.historyPath policy n ↔
            d.violations = [] ∧ n = d.recordCount := by
          intro policy n
          rw [FileTree.certifies_iff]
          simp [hr, hd]
        have haudit : t.auditHistory s.hash (.of w.policy) w.historyPath = .ok (d.outcome s.hash w.policy content) :=
          FileTree.auditHistory_of_decode hv hr hd
        have hreport : (d.outcome s.hash w.policy content).report =
            .ofViolations d.recordCount (w.policy.kept d.violations) := rfl
        rw [haudit, if_pos rfl]
        cases hkept : w.policy.kept d.violations with
        | nil =>
          have hnone := (w.policy.kept_eq_nil_iff d.violations).1 hkept
          rw [hkept] at hreport
          rw [auditFinding_verified hreport]
          exact tells_found fun policy m => by simp [hcertifies, hnone]
        | cons v vs =>
          have hsome : d.violations ≠ [] := by
            rw [ne_eq, ← w.policy.kept_eq_nil_iff, hkept]
            exact List.cons_ne_nil v vs
          rw [hkept] at hreport
          rw [auditFinding_failed hreport]
          -- what a policy keeps may differ, but not whether it keeps anything
          exact tells_corrupt hr (fun policy n => by simp [hcertifies, hsome]) _

end Workspace

/-- Verifying and inspecting agree on a history that can be reached.  A verification ends with the code 0 exactly when
its audit certifies the history, and with `json` prints a certificate for every verdict and nothing else.  An
inspection prints a line for the history, which tells whether it is found and how every such verification ends; where a
history is there and cannot be reached, the line says that it is missing, and reading it is refused.  There are
command lines that ask for these verifications and inspections, whatever the paths they name. -/
theorem verify_agrees_with_inspect (s : Surroundings) (t : FileTree) (w : Workspace) :
    (∀ policy json, (w.verification s t policy json).Tells json (t.read w.historyPath)
      (t.auditHistory s.hash (.of policy) w.historyPath)) ∧
    (∃ f, (w.inspection s t).Shows t f ∧ w.HistoryTells s t f.status f.details) ∧
    (t.Holds w.historyPath → ¬t.Reaches w.historyPath →
      ∃ why, t.read w.historyPath = .error why ∧ FileTree.Refusal why) ∧
    (∀ directory history failFast json, directory ≠ some "" → history ≠ some "" →
      runCommandLine s t (verifyLine directory history failFast json) =
        ((Workspace.resolve directory).withHistory history).verification s t (.ofFlag failFast) json) ∧
    ∀ directory, directory ≠ some "" →
      runCommandLine s t (inspectLine directory) = (Workspace.resolve directory).inspection s t := by
  refine ⟨w.verification_tells s t, ⟨_, w.inspection_shows s t, w.historyFinding_tells s t⟩, ?_, ?_, ?_⟩
  · intro hholds hreaches
    obtain ⟨why, hlookup, hwhy⟩ := FileTree.lookup_of_not_reaches hholds hreaches
    exact ⟨why, FileTree.read_of_lookup_error hlookup, hwhy⟩
  · intro directory history failFast json hd hh
    rw [runCommandLine, ofArguments_verifyLine hd hh]
    rfl
  · intro directory hd
    rw [runCommandLine, ofArguments_inspectLine hd]
    rfl

/-- The surroundings of a run that starts no program. -/
def secluded : Surroundings :=
  ⟨Digest.ofContent, fun _ _ _ => .error .notFound, "NOW"⟩

/-- A workspace in a directory whose name looks like an option, and whose history has two violations. -/
def strangeWorkspace : Workspace :=
  (Workspace.resolve (some "--json=..")).withHistory (some "/work/dag.json")

theorem verify_agrees_with_inspect_strange :
    runCommandLine secluded repeatedTree
        ["verify", "--dir=--json=..", "--history=/work/dag.json", "--fail-fast", "--json"] =
        strangeWorkspace.verification secluded repeatedTree .failFast true ∧
      (strangeWorkspace.verification secluded repeatedTree .failFast true).Tells true
        (repeatedTree.read "/work/dag.json")
        (repeatedTree.auditHistory Digest.ofContent (.of .failFast) "/work/dag.json") ∧
      ∃ f, (strangeWorkspace.inspection secluded repeatedTree).Shows repeatedTree f ∧
        strangeWorkspace.HistoryTells secluded repeatedTree f.status f.details := by
  obtain ⟨hverify, hinspect, -, hline, -⟩ := verify_agrees_with_inspect secluded repeatedTree strangeWorkspace
  exact ⟨hline (some "--json=..") (some "/work/dag.json") true true (by decide) (by decide),
    hverify .failFast true, hinspect⟩

/-! ### Histories that are there and not found -/

/-- A history of a root and nothing else, in a directory that is given. -/
def treeWith (audit : FileTree.Node) : FileTree :=
  ((FileTree.fresh 0).set ["work", "audit"] audit).set ["work", "audit", "dag.json"]
    (.file (History.content [.root "a"]) 0 false)

theorem holds_treeWith {audit : FileTree.Node} (h : audit = .directory ∨ audit = .closed) (n : Nat) :
    (treeWith audit).Holds (Path.dotted "audit/dag.json" n) := by
  have hwork : (treeWith audit).HoldsEntries ["work"] := .inl rfl
  have haudit : (treeWith audit).HoldsEntries ["work", "audit"] := by
    rcases h with rfl | rfl
    · exact .inl rfl
    · exact .inr rfl
  have hleads : (treeWith audit).Leads ["work"] ["audit", "dag.json"] ["work", "audit", "dag.json"] :=
    .into hwork (.into haudit (.here _))
  exact FileTree.Holds.dotted ⟨by decide, _, _, hleads, rfl⟩ rfl n

/-- The workspace of the current directory, which is named by many dots. -/
def dottedWorkspace : Workspace :=
  Workspace.resolve (some (Path.dotted "." 2100))

theorem historyPath_dottedWorkspace : dottedWorkspace.historyPath = Path.dotted "audit/dag.json" 2101 :=
  Path.join_dotted rfl 2100

/-- A history that is there is reported missing: in a directory that may not be searched, and at a path that is too
long.  What reading it is refused for is not shown. -/
theorem inspection_misses_history :
    ((treeWith .closed).Holds (Workspace.resolve none).historyPath ∧
      (treeWith .closed).read (Workspace.resolve none).historyPath = .error .denied ∧
      ((Workspace.resolve none).inspection secluded (treeWith .closed)).Shows (treeWith .closed) Workspace.missing) ∧
    ((treeWith .directory).Holds dottedWorkspace.historyPath ∧
      (treeWith .directory).read dottedWorkspace.historyPath = .error .nameTooLong ∧
      (dottedWorkspace.inspection secluded (treeWith .directory)).Shows (treeWith .directory) Workspace.missing) := by
  have hshows : ∀ (w : Workspace) (t : FileTree) why, t.lookup w.historyPath = .error why →
      t.read w.historyPath = .error why ∧ (w.inspection secluded t).Shows t Workspace.missing := by
    intro w t why h
    refine ⟨FileTree.read_of_lookup_error h, ?_⟩
    have hshows := w.inspection_shows secluded t
    rwa [Workspace.historyFinding_eq, FileTree.has_of_lookup_error h] at hshows
  constructor
  · exact ⟨holds_treeWith (.inr rfl) 1, hshows _ _ _ rfl⟩
  · have hholds := holds_treeWith (.inl rfl) 2101
    have hlong : Path.maxLength < (Path.dotted "audit/dag.json" 2101).utf8ByteSize := by
      rw [Path.utf8ByteSize_dotted]
      decide
    have hfault := Path.fault?_of_long hholds.named.2 hholds.named.1 hlong
    rw [← historyPath_dottedWorkspace] at hholds hfault
    exact ⟨hholds, hshows _ _ _ (FileTree.lookup_of_fault hfault)⟩

end Lineage
