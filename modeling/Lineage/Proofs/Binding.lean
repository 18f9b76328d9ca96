import Lineage.Proofs.Exchange
import Lineage.Proofs.Json.Size
import Lineage.Proofs.Location

/-!
# What a certificate is bound to

An audit hashes the bytes that it decodes, so the certificate for its outcome is the one that is issued for these
bytes.  It covers what has their digest and nothing else, whatever the hash, since the text of a digest tells the
digest (`Digest.hex_inj`).  All numbers of a certificate count entries of the file (`Report.Locates.numbers_le`), so
the certificate says the same after it was written and read.
-/

namespace Lineage

/-! ### Digests -/

namespace Digest

theorem hexByte_inj {a b : UInt8} (h : hexByte a = hexByte b) : a = b := by
  have hdigit : ∀ m < 16, ∀ n < 16, Nat.digitChar m = Nat.digitChar n → m = n := by decide
  obtain ⟨hhigh, hlow⟩ := List.cons.inj h
  have ha := a.toNat_lt
  have hb := b.toNat_lt
  have hquot : a.toNat / 16 = b.toNat / 16 := hdigit _ (by omega) _ (by omega) hhigh
  have hrem : a.toNat % 16 = b.toNat % 16 := hdigit _ (by omega) _ (by omega) (List.cons.inj hlow).1
  apply UInt8.toNat_inj.1
  omega

theorem flatMap_hexByte_inj {as bs : Bytes} (h : as.flatMap hexByte = bs.flatMap hexByte) : as = bs := by
  induction as generalizing bs with
  | nil =>
    cases bs with
    | nil => rfl
    | cons b bs => cases h
  | cons a as ih =>
    cases bs with
    | nil => cases h
    | cons b bs =>
      rw [List.flatMap_cons, List.flatMap_cons] at h
      obtain ⟨hbyte, hrest⟩ := List.append_inj h rfl
      rw [hexByte_inj hbyte, ih hrest]

theorem hex_inj {d e : Digest} : d.hex = e.hex ↔ d = e := by
  constructor
  · intro h
    exact Vector.toList_inj.1 (flatMap_hexByte_inj (String.ofList_injective h))
  · rintro rfl
    rfl

end Digest

/-! ### Numbers -/

theorem Json.length_sortedItems (items : List Json) : (sortedItems items).length = items.length := by
  induction items with
  | nil => rfl
  | cons j js ih => rw [sortedItems, List.length_cons, List.length_cons, ih]

theorem History.Lists.length_lt {content : Bytes} {entries : List Json.Value} (h : Lists content entries) :
    entries.length < content.length := by
  obtain ⟨value, hread, hitems⟩ := h
  obtain ⟨j, hj, rfl⟩ := Json.Value.read_eq_ok_iff.1 hread
  cases j with
  | array items =>
    obtain rfl := Option.some.inj hitems
    rw [List.length_map, List.length_attach, Json.length_sortedItems]
    exact Json.length_lt_of_read hj
  | _ => cases hitems

/-- The numbers in a report on some entries are positions of these entries, or count them. -/
theorem Report.Locates.numbers_le {report : Report} {entries : List Json.Value} (h : report.Locates entries) :
    ∀ n ∈ report.numbers, n ≤ entries.length := by
  intro n hn
  cases report with
  | verified count =>
    obtain rfl := List.mem_singleton.1 hn
    exact Nat.le_of_eq (h.verified n rfl).1
  | failed vs =>
    obtain ⟨⟨position, b⟩, hv, hn⟩ := List.mem_flatMap.1 hn
    cases position with
    | none =>
      obtain ⟨rfl, -⟩ := h.unplaced b hv
      cases hn
    | some p =>
      have hp := h.inside p b hv
      rcases List.mem_append.1 hn with hn | hn
      · obtain rfl := List.mem_singleton.1 hn
        exact Nat.le_of_lt hp
      · cases b with
        | duplicateId id first =>
          -- the first occurrence stands before the position of the violation
          obtain rfl := List.mem_singleton.1 hn
          obtain ⟨rs, r, -, -, -, hlt, -⟩ := h.structural p _ hv fun _ => Breach.noConfusion
          omega
        | _ => cases hn

/-! ### Certificates -/

namespace Certificate

/-- The certificate gives the verdict on these bytes, is the one issued for it, and covers what has their digest. -/
structure Binds (c : Certificate) (hash : Bytes → Digest) (v : Verifier) (content : Bytes) (time : String) :
    Prop where
  judged : ∃ d, History.decodeWith v content = .ok d ∧ d.verify v = .ok c.verdict ∧ c.recordCount = d.recordCount
  issued : c = issue hash content c.recordCount c.verdict time
  covers : c.covers hash content = true
  covers_iff : ∀ other, c.covers hash other = true ↔ hash other = hash content

theorem covers_issue_iff (hash : Bytes → Digest) (content other : Bytes) (count : Nat) (verdict : Report)
    (time : String) : (issue hash content count verdict time).covers hash other = true ↔ hash other = hash content := by
  rw [Certificate.covers, beq_iff_eq]
  show (hash content).hex = (hash other).hex ↔ _
  rw [Digest.hex_inj, eq_comm]

/-- A certificate whose numbers fit into 64 bits is read from its text. -/
theorem ofText_written {c : Certificate} (h : ∀ n ∈ c.numbers, n ≤ Json.Numeral.maxSignificand) :
    ∀ text ∈ [c.toJson.compact, c.toJson.pretty], Typed.ofText shape ofDocument (.ofString text) = .ok c :=
  Typed.ofText_written (integral_toJson h) (Nat.le_trans c.depth_toJson (by decide)) c.shape_covers
    (c.ofDocument_ofJson .text)

end Certificate

/-! ### Audits -/

section

variable (hash : Bytes → Digest) {v : Verifier} {content : Bytes} {d : Decoded}

theorem Decoded.binds_certificate (hv : v.flag ≠ some true) (hd : History.decode content = .ok d) (time : String) :
    ((d.outcome hash v.policy content).certificate time).Binds hash v content time where
  judged := ⟨d, (History.decodeWith_eq_decode hv content).trans hd, verify_eq hv d, rfl⟩
  issued := rfl
  covers := (Certificate.covers_issue_iff hash content content _ _ time).2 rfl
  covers_iff other := Certificate.covers_issue_iff hash content other _ _ time

/-- The numbers of a certificate do not exceed the length of the file. -/
theorem Decoded.numbers_certificate_le (hd : History.decode content = .ok d) (policy : Policy) (time : String) :
    ∀ n ∈ ((d.outcome hash policy content).certificate time).numbers, n ≤ content.length := by
  obtain ⟨entries, hlists, rfl⟩ := History.exists_lists_of_decodeWith hd
  have hlen := hlists.length_lt
  have hcount := recordCount_ofEntries entries
  intro n hn
  rcases List.mem_cons.1 hn with rfl | hn
  · -- the version is 1, and a file that decodes has a byte at least
    show schemaVersion ≤ _
    rw [schemaVersion]
    omega
  rcases List.mem_cons.1 hn with rfl | hn
  · show (ofEntries entries).recordCount ≤ _
    omega
  · have hle := (locates_outcome hash policy content entries).numbers_le n hn
    omega

/-- The certificate is read from its text, if the length of the file fits into 64 bits. -/
theorem Decoded.ofText_certificate (hd : History.decode content = .ok d) (policy : Policy) (time : String)
    (hfits : content.length ≤ Json.Numeral.maxSignificand) :
    ∀ text ∈ [((d.outcome hash policy content).certificate time).toJson.compact,
        ((d.outcome hash policy content).certificate time).toJson.pretty],
      Typed.ofText Certificate.shape Certificate.ofDocument (.ofString text) =
        .ok ((d.outcome hash policy content).certificate time) := by
  apply Certificate.ofText_written
  intro n hn
  exact Nat.le_trans (numbers_certificate_le hash hd policy time n hn) hfits

end

/-- The certificate for an audit is bound to the bytes that were audited.  So is what is read from its text, if the
length of the file fits into 64 bits. -/
theorem certificate_binds (t : FileTree) (hash : Bytes → Digest) {v : Verifier} (hv : v.flag ≠ some true)
    {path : String} {content : Bytes} (hc : t.read path = .ok content) {o : Outcome}
    (ho : t.auditHistory hash v path = .ok o) (time : String) :
    (o.certificate time).Binds hash v content time ∧
      (content.length ≤ Json.Numeral.maxSignificand →
        ∀ text ∈ [(o.certificate time).toJson.compact, (o.certificate time).toJson.pretty],
          ∃ c, Typed.ofText Certificate.shape Certificate.ofDocument (.ofString text) = .ok c ∧
            c.Binds hash v content time) := by
  obtain ⟨content', d, hc', hd, rfl⟩ := (FileTree.auditHistory_eq_outcome_iff hv).1 ho
  obtain rfl := Except.ok.inj (hc.symm.trans hc')
  have hbinds := d.binds_certificate hash hv hd time
  refine ⟨hbinds, fun hfits text htext => ⟨_, ?_, hbinds⟩⟩
  exact Decoded.ofText_certificate hash hd v.policy time hfits text htext

/-- The certificate for a file with two violations, which holds the positions of both. -/
theorem certificate_binds_repetition :
    (⟨.collect, some false⟩ : Verifier).flag ≠ some true ∧ repeatedTree.read "dag.json" = .ok repeatedEntry ∧
      repeatedEntry.length ≤ Json.Numeral.maxSignificand ∧
      ∃ o, repeatedTree.auditHistory Digest.ofContent ⟨.collect, some false⟩ "dag.json" = .ok o ∧
        (o.certificate "NOW").Binds Digest.ofContent ⟨.collect, some false⟩ repeatedEntry "NOW" ∧
        ∀ text ∈ [(o.certificate "NOW").toJson.compact, (o.certificate "NOW").toJson.pretty],
          ∃ c, Typed.ofText Certificate.shape Certificate.ofDocument (.ofString text) = .ok c ∧
            c.Binds Digest.ofContent ⟨.collect, some false⟩ repeatedEntry "NOW" := by
  have hv : (⟨.collect, some false⟩ : Verifier).flag ≠ some true := by decide
  have hc : repeatedTree.read "dag.json" = .ok repeatedEntry := by decide +kernel
  have hfits : repeatedEntry.length ≤ Json.Numeral.maxSignificand := by decide +kernel
  have hjson : Json.read repeatedEntry = .ok (.array
      [.object [("id", .string "a"), ("parent", .string "")],
        .object [("id", .string "a"), ("parent", .string "a")]]) := by rfl
  have hlists : History.Lists repeatedEntry [_, _] := ⟨_, by rw [Json.Value.read, hjson]; rfl, rfl⟩
  obtain ⟨d, hd⟩ : ∃ d, History.decode repeatedEntry = .ok d := ⟨_, hlists.decodeWith_eq (.of .collect)⟩
  have haudit : History.audit Digest.ofContent ⟨.collect, some false⟩ repeatedEntry =
      .ok (d.outcome Digest.ofContent .collect repeatedEntry) := by
    rw [History.audit_eq hv, hd]
    rfl
  have ho := FileTree.auditHistory_eq_ok_iff.2 ⟨_, hc, haudit⟩
  obtain ⟨hbinds, htexts⟩ := certificate_binds repeatedTree Digest.ofContent hv hc ho "NOW"
  exact ⟨hv, hc, hfits, _, ho, hbinds, htexts hfits⟩

end Lineage
