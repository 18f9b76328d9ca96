import Lineage.Audit
import Lineage.Proofs.Decoding
import Lineage.Proofs.Entry
import Mathlib.Data.List.Forall2

/-!
# What certifies

An audit ends in the verdict `verified` exactly on the files that are `Certifiable`: a rule on the entries of
the file alone, which knows neither of records nor of the pass over them.
-/

namespace Lineage

namespace Entry

/-- The texts of the id and the parent of an entry.  An empty parent means that there is none. -/
structure Texts where
  id : String
  parent : String

/-- The entry is an object that keeps the rules, and these are its texts. -/
def Spells (e : Json.Value) (t : Texts) : Prop :=
  ∃ fields, e.object? = some fields ∧ Regular fields t.id t.parent

/-- The texts that the entry of a record has. -/
def Texts.ofRecord (r : Record) : Texts :=
  ⟨r.id, r.parent.getD noParent⟩

/-- The first entry has no parent, every other has an earlier entry as its parent, and no id is used twice. -/
structure Texts.Chained (texts : List Texts) : Prop where
  nonempty : texts ≠ []
  first : ∀ t, texts[0]? = some t → t.parent = noParent
  later : ∀ i t, 0 < i → texts[i]? = some t →
    t.parent ≠ noParent ∧ ∃ j s, j < i ∧ texts[j]? = some s ∧ t.parent = s.id
  distinct : (texts.map Texts.id).Nodup

/-- Every entry has its texts, and together they are a chain. -/
def Certifiable (entries : List Json.Value) : Prop :=
  ∃ texts, List.Forall₂ Spells entries texts ∧ Texts.Chained texts

/-! ### Entries and their records -/

theorem spells_of_ofEntry {e : Json.Value} {r : Record} (h : Record.ofEntry e = .ok r) :
    Spells e (.ofRecord r) := by
  obtain ⟨fields, parent, hf, hreg, hp, -⟩ := Record.ofEntry_eq_ok_iff.1 h
  refine ⟨fields, hf, ?_⟩
  rw [Texts.ofRecord, hp, getD_parentOf]
  exact hreg

theorem exists_ofEntry_of_spells {e : Json.Value} {t : Texts} (h : Spells e t) :
    ∃ r, Record.ofEntry e = .ok r ∧ t = .ofRecord r := by
  obtain ⟨fields, hf, hreg⟩ := h
  refine ⟨⟨t.id, parentOf t.parent, payload fields⟩, ?_, ?_⟩
  · exact Record.ofEntry_eq_ok_iff.2 ⟨fields, t.parent, hf, hreg, rfl, rfl⟩
  · rw [Texts.ofRecord, getD_parentOf]

/-- Entries have texts exactly when each reads as a record, whose texts these are. -/
theorem forall₂_spells_iff {entries : List Json.Value} {texts : List Texts} :
    List.Forall₂ Spells entries texts ↔
      ∃ rs : History, entries.map Record.ofEntry = rs.map .ok ∧ texts = rs.map .ofRecord := by
  constructor
  · intro h
    induction h with
    | nil => exact ⟨[], rfl, rfl⟩
    | cons he _ ih =>
      obtain ⟨r, hr, rfl⟩ := exists_ofEntry_of_spells he
      obtain ⟨rs, hrs, rfl⟩ := ih
      exact ⟨r :: rs, by simp [hr, hrs], rfl⟩
  · rintro ⟨rs, hrs, rfl⟩
    induction entries generalizing rs with
    | nil =>
      cases rs with
      | nil => exact .nil
      | cons r rs => cases hrs
    | cons e entries ih =>
      cases rs with
      | nil => cases hrs
      | cons r rs =>
        obtain ⟨he, hrest⟩ := List.cons.inj hrs
        exact .cons (spells_of_ofEntry he) (ih rs hrest)

private theorem ofRecord_parent_eq_iff {r : Record} (hp : r.parent ≠ some noParent) {text : String} :
    (Texts.ofRecord r).parent = text ↔ r.parent = parentOf text := by
  constructor
  · rintro rfl
    exact (parentOf_getD_iff.2 hp).symm
  · intro h
    rw [Texts.ofRecord, h, getD_parentOf]

private theorem getElem?_ofRecord {rs : History} {i : Nat} {t : Texts} :
    (rs.map Texts.ofRecord)[i]? = some t ↔ ∃ r, rs[i]? = some r ∧ .ofRecord r = t := by
  rw [List.getElem?_map, Option.map_eq_some_iff]

theorem chained_iff_sound {rs : History} (hp : ∀ r ∈ rs, r.parent ≠ some noParent) :
    Texts.Chained (rs.map .ofRecord) ↔ rs.Sound := by
  have hids : (rs.map Texts.ofRecord).map Texts.id = rs.map Record.id := by
    rw [List.map_map]
    rfl
  have hroot : parentOf noParent = none := rfl
  constructor
  · intro hc
    refine ⟨by simpa using hc.nonempty, fun r hr => ?_, fun i r hi hr => ?_, hids ▸ hc.distinct⟩
    · have hpr := hp r (List.mem_of_getElem? hr)
      exact (ofRecord_parent_eq_iff hpr).1 (hc.first _ (getElem?_ofRecord.2 ⟨r, hr, rfl⟩))
    · have hpr := hp r (List.mem_of_getElem? hr)
      obtain ⟨hne, j, t, hj, ht, hparent⟩ := hc.later i _ hi (getElem?_ofRecord.2 ⟨r, hr, rfl⟩)
      obtain ⟨s, hs, rfl⟩ := getElem?_ofRecord.1 ht
      refine ⟨j, s, hj, hs, ?_⟩
      rw [hparent] at hne
      rw [(ofRecord_parent_eq_iff hpr).1 hparent, parentOf, if_neg hne]
      rfl
  · intro hs
    refine ⟨by simpa using hs.nonempty, fun t ht => ?_, fun i t hi ht => ?_, hids ▸ hs.distinct⟩
    · obtain ⟨r, hr, rfl⟩ := getElem?_ofRecord.1 ht
      have hpr := hp r (List.mem_of_getElem? hr)
      exact (ofRecord_parent_eq_iff hpr).2 (hs.first r hr)
    · obtain ⟨r, hr, rfl⟩ := getElem?_ofRecord.1 ht
      have hpr := hp r (List.mem_of_getElem? hr)
      obtain ⟨j, s, hj, hsj, hparent⟩ := hs.later i r hi hr
      have hne : s.id ≠ noParent := fun h => hpr (h ▸ hparent)
      have htext : (Texts.ofRecord r).parent = s.id := by
        rw [ofRecord_parent_eq_iff hpr, parentOf, if_neg hne, hparent]
      exact ⟨htext ▸ hne, j, _, hj, getElem?_ofRecord.2 ⟨s, hsj, rfl⟩, htext⟩

theorem certifiable_iff {entries : List Json.Value} :
    Certifiable entries ↔ ∃ rs : History, entries.map Record.ofEntry = rs.map .ok ∧ rs.Sound := by
  -- a record of an entry never has the empty parent, so its texts say as much as the record does
  have hcanon : ∀ rs : History, entries.map Record.ofEntry = rs.map .ok →
      ∀ r ∈ rs, r.parent ≠ some noParent := by
    intro rs hrs r hr
    have hmem : Except.ok r ∈ entries.map Record.ofEntry := hrs ▸ List.mem_map_of_mem hr
    obtain ⟨e, -, he⟩ := List.mem_map.1 hmem
    exact Record.parent_ne_of_ofEntry he
  constructor
  · rintro ⟨texts, hall, hc⟩
    obtain ⟨rs, hrs, rfl⟩ := forall₂_spells_iff.1 hall
    exact ⟨rs, hrs, (chained_iff_sound (hcanon rs hrs)).1 hc⟩
  · rintro ⟨rs, hrs, hs⟩
    exact ⟨_, forall₂_spells_iff.2 ⟨rs, hrs, rfl⟩, (chained_iff_sound (hcanon rs hrs)).2 hs⟩

end Entry

/-! ### Audits -/

namespace History

theorem audit_eq_ok_iff {hash : Bytes → Digest} {v : Verifier} (hv : v.flag ≠ some true) {content : Bytes}
    {o : Outcome} :
    audit hash v content = .ok o ↔
      ∃ value entries, Json.Value.read content = .ok value ∧ value.items? = some entries ∧
        (Decoded.ofEntries entries).verify v = .ok o.report ∧
        o.recordCount = (Decoded.ofEntries entries).recordCount ∧ o.digest = hash content := by
  simp only [audit, bind_eq_ok_iff, mapError_eq_ok_iff, pure_eq_ok_iff, decodeWith_eq_ok_iff hv]
  constructor
  · rintro ⟨d, ⟨value, entries, hread, hitems, rfl⟩, report, hr, rfl⟩
    exact ⟨value, entries, hread, hitems, hr, rfl, rfl⟩
  · rintro ⟨value, entries, hread, hitems, hr, hcount, hdigest⟩
    refine ⟨_, ⟨value, entries, hread, hitems, rfl⟩, o.report, hr, ?_⟩
    rw [← hcount, ← hdigest]

end History

theorem FileTree.auditHistory_eq_ok_iff {t : FileTree} {hash : Bytes → Digest} {v : Verifier} {path : String}
    {o : Outcome} :
    t.auditHistory hash v path = .ok o ↔
      ∃ content, t.read path = .ok content ∧ History.audit hash v content = .ok o := by
  simp only [auditHistory, contentAt, naming, bind_eq_ok_iff, mapError_eq_ok_iff]

/-- An audit with a clear flag certifies exactly the files whose entries are certifiable, and counts them. -/
theorem auditHistory_verified_iff (t : FileTree) (hash : Bytes → Digest) {v : Verifier}
    (hv : v.flag ≠ some true) {path : String} {content : Bytes} (hc : t.read path = .ok content) (n count : Nat) (digest : Digest) :
    t.auditHistory hash v path = .ok ⟨.verified n, count, digest⟩ ↔
      (∃ value entries, Json.Value.read content = .ok value ∧ value.items? = some entries ∧
        Entry.Certifiable entries ∧ n = entries.length) ∧ count = n ∧ digest = hash content := by
  have haudit : t.auditHistory hash v path = .ok ⟨.verified n, count, digest⟩ ↔
      History.audit hash v content = .ok ⟨.verified n, count, digest⟩ := by
    rw [FileTree.auditHistory_eq_ok_iff]
    exact ⟨fun ⟨_, h, ha⟩ => Except.ok.inj (hc.symm.trans h) ▸ ha, fun ha => ⟨content, hc, ha⟩⟩
  rw [haudit, History.audit_eq_ok_iff hv]
  constructor
  · rintro ⟨value, entries, hread, hitems, hr, hcount, hdigest⟩
    obtain ⟨hm, hs, hn⟩ := (Decoded.verify_eq_verified_iff hv).1 hr
    have hrs := Decoded.ofEntries_eq_iff.1 ⟨hm, rfl⟩
    have hlen := congrArg List.length hrs
    rw [List.length_map, List.length_map] at hlen
    have hcert := Entry.certifiable_iff.2 ⟨_, hrs, hs⟩
    refine ⟨⟨value, entries, hread, hitems, hcert, hn.trans hlen.symm⟩, ?_, hdigest⟩
    rw [Decoded.recordCount, hm] at hcount
    exact hcount.trans hn.symm
  · rintro ⟨⟨value, entries, hread, hitems, hcert, hn⟩, hcount, hdigest⟩
    obtain ⟨rs, hrs, hs⟩ := Entry.certifiable_iff.1 hcert
    obtain ⟨hm, rfl⟩ := Decoded.ofEntries_eq_iff.2 hrs
    have hlen := congrArg List.length hrs
    rw [List.length_map, List.length_map] at hlen
    refine ⟨value, entries, hread, hitems, ?_, ?_, hdigest⟩
    · exact (Decoded.verify_eq_verified_iff hv).2 ⟨hm, hs, hn.trans hlen⟩
    · rw [Decoded.recordCount, hm]
      exact hcount.trans (hn.trans hlen)

/-- A root whose id is a number, and its child. -/
def twoEntries : Bytes :=
  .ofString "[\x7b\"id\": 7, \"parentId\": \"\"\x7d,\n \x7b\"parent\": 7, \"id\": \"b\"\x7d]"

def twoEntriesTree : FileTree :=
  (FileTree.fresh 0).set ["work", "dag.json"] (.file twoEntries 0 false)

/-- The audit of two entries, under a verifier with a clear flag. -/
theorem auditHistory_two_entries :
    (⟨.failFast, some false⟩ : Verifier).flag ≠ some true ∧ twoEntriesTree.read "dag.json" = .ok twoEntries ∧
      twoEntriesTree.auditHistory Digest.ofContent ⟨.failFast, some false⟩ "dag.json" =
        .ok ⟨.verified 2, 2, Digest.ofContent twoEntries⟩ := by
  have hv : (⟨.failFast, some false⟩ : Verifier).flag ≠ some true := by decide
  have hc : twoEntriesTree.read "dag.json" = .ok twoEntries := by decide +kernel
  have hread : Json.Value.read twoEntries = .ok (.ofJson (.array
      [.object [("id", .integer 7), ("parentId", .string "")],
        .object [("parent", .integer 7), ("id", .string "b")]])) := by
    have hjson : Json.read twoEntries = .ok (.array
        [.object [("id", .integer 7), ("parentId", .string "")],
          .object [("parent", .integer 7), ("id", .string "b")]]) := by rfl
    rw [Json.Value.read, hjson]
    rfl
  have hroot : Entry.Spells (.ofJson (.object [("id", .integer 7), ("parentId", .string "")])) ⟨"7", ""⟩ :=
    ⟨_, rfl, ⟨.integer 7, rfl, .integer 7⟩, by decide, .string "", .inr ⟨rfl, rfl⟩, .string ""⟩
  have hchild : Entry.Spells (.ofJson (.object [("parent", .integer 7), ("id", .string "b")])) ⟨"b", "7"⟩ :=
    ⟨_, rfl, ⟨.string "b", rfl, .string "b"⟩, by decide, .integer 7, .inl ⟨rfl, rfl⟩, .integer 7⟩
  have hchained : Entry.Texts.Chained [⟨"7", ""⟩, ⟨"b", "7"⟩] := by
    refine ⟨by simp, by simp [Entry.noParent], fun i t hi ht => ?_, by decide⟩
    obtain rfl : i = 1 := by
      have := (List.getElem?_eq_some_iff.1 ht).1
      simp at this
      omega
    obtain rfl := Option.some.inj ht
    exact ⟨by decide, 0, ⟨"7", ""⟩, by decide, rfl, rfl⟩
  refine ⟨hv, hc, (auditHistory_verified_iff twoEntriesTree Digest.ofContent hv hc 2 2 _).2 ⟨?_, rfl, rfl⟩⟩
  exact ⟨_, [_, _], hread, rfl, ⟨_, .cons hroot (.cons hchild .nil), hchained⟩, rfl⟩

end Lineage
