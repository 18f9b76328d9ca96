import Lineage.Proofs.Policies

/-!
# Interrupted audits

A flag is asked before an entry or a record is looked at.  So one that is set stops an audit at the first entry,
and no sooner: what cannot be read, or is no array, is refused as ever, and an array without entries is judged
(`FileTree.cutShort_audit`).  A flag that is clear has no say at all (`Verifier.undisturbed_of_clear`).
-/

namespace Lineage

/-! ### Flags that are set -/

theorem scan_of_refusal {ε : Type} {gate : Nat → Except ε Unit} {e : ε} (h : gate 0 = .error e) (policy : Policy)
    (r : Record) (rest : History) : scan gate policy (r :: rest) = .error e := by
  simp only [scan, scanFrom, h, Except.map]

namespace Verifier

theorem checkpoint_of_set {v : Verifier} (hv : v.flag = some true) (position : Nat) :
    v.checkpoint position = .error ⟨position⟩ := by
  rw [checkpoint, if_pos hv]

theorem run_of_set {v : Verifier} (hv : v.flag = some true) {h : History} (hne : h ≠ []) :
    v.run h = .error ⟨0⟩ := by
  obtain ⟨r, rest, rfl⟩ := List.exists_cons_of_ne_nil hne
  exact scan_of_refusal (checkpoint_of_set hv 0) v.policy r rest

end Verifier

variable {v : Verifier}

/-- What was decoded is not judged when the flag is set, whether its entries are well-formed or not. -/
theorem Decoded.verify_of_set (hv : v.flag = some true) {d : Decoded} (hd : 0 < d.recordCount) :
    d.verify v = .error ⟨0⟩ := by
  unfold verify isWellFormed
  cases hm : d.malformed with
  | nil =>
    have hne : d.records ≠ [] := by
      rintro hnil
      simp [recordCount, hm, hnil] at hd
    exact Verifier.run_of_set hv hne
  | cons m ms =>
    simp only [List.isEmpty_cons, Bool.false_eq_true, ↓reduceIte, Verifier.checkpoint_of_set hv, bind, Except.bind]

theorem History.Lists.decodeWith_of_set (hv : v.flag = some true) {content : Bytes} {e : Json.Value}
    {rest : List Json.Value} (h : Lists content (e :: rest)) :
    decodeWith v content = .error (.interrupted ⟨0⟩) := by
  have hstop : (List.range (e :: rest).length).forM v.checkpoint = .error ⟨0⟩ := by
    rw [List.length_cons, List.range_succ_eq_map]
    show (v.checkpoint 0 >>= _) = _
    rw [Verifier.checkpoint_of_set hv]
    rfl
  rw [h.decodeWith_eq v, hstop]
  rfl

/-- An array without entries is decoded and judged before any flag is asked. -/
theorem History.audit_of_empty (hash : Bytes → Digest) (v : Verifier) {content : Bytes} (h : Lists content []) :
    audit hash v content = .ok ⟨.failed [⟨none, .emptyHistory⟩], 0, hash content⟩ := by
  rw [audit, h.decodeWith_eq v]
  rfl

namespace FileTree

/-- What an audit comes to that looks at no entry, by what there is at the path: the first reason that is met for
not judging it, or the verdict on no entries. -/
inductive CutShort (t : FileTree) (hash : Bytes → Digest) (path : String) : Except HistoryError Outcome → Prop
  | unreadable {why : FileError} (unread : t.read path = .error why) :
    CutShort t hash path (.error (.unreadable path why))
  | notJson {content : Bytes} {fault : Json.Fault} (read : t.read path = .ok content)
    (refused : Json.Value.read content = .error fault) :
    CutShort t hash path (.error (.undecodable (.notJson fault)))
  | notAnArray {content : Bytes} {value : Json.Value} (read : t.read path = .ok content)
    (parsed : Json.Value.read content = .ok value) (other : value.items? = none) :
    CutShort t hash path (.error (.undecodable (.notAnArray value.kind)))
  | empty {content : Bytes} (read : t.read path = .ok content) (lists : History.Lists content []) :
    CutShort t hash path (.ok ⟨.failed [⟨none, .emptyHistory⟩], 0, hash content⟩)
  | interrupted {content : Bytes} {e : Json.Value} {rest : List Json.Value} (read : t.read path = .ok content)
    (lists : History.Lists content (e :: rest)) : CutShort t hash path (.error (.undecodable (.interrupted ⟨0⟩)))

theorem cutShort_audit (hv : v.flag = some true) (t : FileTree) (hash : Bytes → Digest) (path : String) :
    t.CutShort hash path (t.auditHistory hash v path) := by
  cases hr : t.read path with
  | error why =>
    rw [auditHistory_of_read_error hr]
    exact .unreadable hr
  | ok content =>
    rw [auditHistory_of_read hr]
    cases hread : Json.Value.read content with
    | error fault =>
      rw [History.audit, History.decodeWith_of_read_error v hread]
      exact .notJson hr hread
    | ok value =>
      cases hitems : value.items? with
      | none =>
        rw [History.audit, History.decodeWith_of_items?_eq_none v hread hitems]
        exact .notAnArray hr hread hitems
      | some entries =>
        cases entries with
        | nil =>
          have hlists : History.Lists content [] := ⟨value, hread, hitems⟩
          rw [History.audit_of_empty hash v hlists]
          exact .empty hr hlists
        | cons e rest =>
          have hlists : History.Lists content (e :: rest) := ⟨value, hread, hitems⟩
          rw [History.audit, hlists.decodeWith_of_set hv]
          exact .interrupted hr hlists

end FileTree

/-! ### Flags that are clear -/

/-- The verifier does what one without a flag does, and is never interrupted. -/
structure Verifier.Undisturbed (v : Verifier) : Prop where
  decode : ∀ content, History.decodeWith v content = History.decodeWith (.of v.policy) content
  verify : ∀ d : Decoded, d.verify v = d.verify (.of v.policy)
  audit : ∀ (t : FileTree) hash path, t.auditHistory hash v path = t.auditHistory hash (.of v.policy) path
  decoded : ∀ content stop, History.decodeWith v content ≠ .error (.interrupted stop)
  verified : ∀ (d : Decoded) stop, d.verify v ≠ .error stop
  audited : ∀ (t : FileTree) hash path stop,
    t.auditHistory hash v path ≠ .error (.undecodable (.interrupted stop))

theorem History.decodeWith_ne_interrupted (hv : v.flag ≠ some true) (content : Bytes) (stop : Interrupted) :
    decodeWith v content ≠ .error (.interrupted stop) := by
  rw [ne_eq, decodeWith_eq_error_iff v hv]
  rintro (⟨fault, -, hstop⟩ | ⟨value, -, -, hstop⟩)
  · cases hstop
  · cases hstop

theorem Verifier.undisturbed_of_clear (hv : v.flag ≠ some true) : v.Undisturbed := by
  have hof : (Verifier.of v.policy).flag ≠ some true := by simp [Verifier.of]
  refine ⟨fun content => ?_, fun d => ?_, fun t hash path => ?_, History.decodeWith_ne_interrupted hv,
    fun d stop => ?_, fun t hash path stop => ?_⟩
  · rw [History.decodeWith_eq_decode hv, History.decodeWith_eq_decode hof]
  · rw [Decoded.verify_eq hv, Decoded.verify_eq hof]
    rfl
  · rw [FileTree.auditHistory_eq hv, FileTree.auditHistory_eq hof]
    rfl
  · rw [Decoded.verify_eq hv]
    intro herror
    cases herror
  · cases hr : t.read path with
    | error why =>
      rw [FileTree.auditHistory_of_read_error hr]
      simp
    | ok content =>
      rw [FileTree.auditHistory_of_read hr, History.audit_eq hv]
      have hne := History.decodeWith_ne_interrupted hv content stop
      rw [History.decodeWith_eq_decode hv] at hne
      cases hd : History.decode content with
      | error e => simpa [hd, Except.map] using hne
      | ok d => simp [Except.map]

/-- An audit with a set flag gives no verdict on any entry: it is refused for the first reason there is, is stopped
before the first entry, or finds that there is none.  Verifying what was decoded is stopped likewise, if there was
an entry.  A clear flag has no say. -/
theorem interrupted_before_verdict (policy : Policy) :
    (∀ (t : FileTree) hash path, t.CutShort hash path (t.auditHistory hash ⟨policy, some true⟩ path)) ∧
      (∀ d : Decoded, 0 < d.recordCount → d.verify ⟨policy, some true⟩ = .error ⟨0⟩) ∧
      (⟨policy, some false⟩ : Verifier).Undisturbed :=
  ⟨fun t hash path => FileTree.cutShort_audit rfl t hash path, fun _ hd => Decoded.verify_of_set rfl hd,
    Verifier.undisturbed_of_clear (by simp)⟩

/-- An array of two values that are no records. -/
def recordless : Bytes :=
  .ofString "[null,7]"

def recordlessTree : FileTree :=
  (FileTree.fresh 0).set ["work", "dag.json"] (.file recordless 0 false)

/-- With a set flag nothing is said of two entries that are both malformed, neither by an audit of their file nor
by verifying what they decode to; with a clear one the audit is that of a verifier without a flag. -/
theorem interrupted_before_verdict_recordless :
    recordlessTree.auditHistory Digest.ofContent ⟨.failFast, some true⟩ "dag.json" =
        .error (.undecodable (.interrupted ⟨0⟩)) ∧
      (∃ entries, History.Lists recordless entries ∧ 0 < (Decoded.ofEntries entries).recordCount ∧
        (Decoded.ofEntries entries).verify ⟨.failFast, some true⟩ = .error ⟨0⟩) ∧
      recordlessTree.auditHistory Digest.ofContent ⟨.failFast, some false⟩ "dag.json" =
        recordlessTree.auditHistory Digest.ofContent (.of .failFast) "dag.json" := by
  have hc : recordlessTree.read "dag.json" = .ok recordless := by rfl
  have hjson : Json.read recordless = .ok (.array [.null, .integer 7]) := by rfl
  have hread : Json.Value.read recordless = .ok (.ofJson (.array [.null, .integer 7])) :=
    Json.Value.read_eq_ok_iff.2 ⟨_, hjson, rfl⟩
  have hlists : History.Lists recordless [.ofJson .null, .ofJson (.integer 7)] := ⟨_, hread, rfl⟩
  obtain ⟨haudit, hverify, hclear⟩ := interrupted_before_verdict .failFast
  refine ⟨?_, ⟨_, hlists, by decide, hverify _ (by decide)⟩, hclear.audit _ _ _⟩
  have hcut := haudit recordlessTree Digest.ofContent "dag.json"
  generalize recordlessTree.auditHistory Digest.ofContent ⟨.failFast, some true⟩ "dag.json" = answer at hcut ⊢
  cases hcut with
  | unreadable unread => cases hc.symm.trans unread
  | notJson read refused =>
    obtain rfl := Except.ok.inj (hc.symm.trans read)
    cases hread.symm.trans refused
  | notAnArray read parsed other =>
    obtain rfl := Except.ok.inj (hc.symm.trans read)
    obtain rfl := Except.ok.inj (hread.symm.trans parsed)
    cases other
  | empty read lists =>
    obtain rfl := Except.ok.inj (hc.symm.trans read)
    obtain ⟨value, parsed, hitems⟩ := lists
    obtain rfl := Except.ok.inj (hread.symm.trans parsed)
    cases hitems
  | interrupted read lists => rfl

end Lineage
