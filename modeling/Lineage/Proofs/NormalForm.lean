import Lineage.Proofs.Rereading

/-!
# What entries decode to

Many entries read as one record: an id may be a number, a parent may stand under its other name, and the empty
text is no parent.  What comes out is always `Plain`, and a plain record reads the same in its own entry.  So the
plain histories are exactly those that are decoded, and a history that was decoded and is written again decodes
to itself.
-/

namespace Lineage

open Entry

theorem Record.plain_of_ofEntry {v : Json.Value} {r : Record} (h : ofEntry v = .ok r) : r.Plain := by
  obtain ⟨fields, parent, -, hreg, -, hpayload⟩ := ofEntry_eq_ok_iff.1 h
  refine ⟨hreg.named, parent_ne_of_ofEntry h, fun key hkey => ?_⟩
  rw [hpayload, Entry.find?_payload, if_pos hkey]

theorem Decoded.plain_of_mem_records {entries : List Json.Value} {r : Record}
    (h : r ∈ (ofEntries entries).records) : r.Plain := by
  obtain ⟨answer, hanswer, hr⟩ := List.mem_filterMap.1 h
  obtain ⟨e, -, rfl⟩ := List.mem_map.1 hanswer
  cases he : Record.ofEntry e with
  | error why => simp [he, Except.toOption] at hr
  | ok s =>
    obtain rfl : s = r := by simpa [he, Except.toOption] using hr
    exact Record.plain_of_ofEntry he

/-- Entries that are written of records read as these records exactly when the records are plain. -/
theorem Decoded.ofEntries_toEntry_iff {rs : History} :
    ((ofEntries (rs.map Record.toEntry)).malformed = [] ∧ (ofEntries (rs.map Record.toEntry)).records = rs) ↔
      ∀ r ∈ rs, r.Plain := by
  rw [ofEntries_eq_iff, List.map_map, List.map_inj_left]
  exact forall₂_congr fun r _ => Record.ofEntry_toEntry_iff

/-- When no entry is malformed, verifying what was decoded is a run over the records. -/
theorem Decoded.verify_eq_run {d : Decoded} (h : d.malformed = []) (v : Verifier) : d.verify v = v.run d.records := by
  rw [verify, isWellFormed, h]
  rfl

/-- Every record that is decoded is plain, and plain histories, and no others, are decoded from the entries that
are written of them.  Writing what was decoded and decoding it again gives the same records with nothing
malformed, and the report on these from every verifier. -/
theorem decoded_normal_form :
    (∀ v content d, History.decodeWith v content = .ok d → ∀ r ∈ d.records, r.Plain) ∧
      (∀ rs : History, (∃ entries, (Decoded.ofEntries entries).records = rs) ↔ ∀ r ∈ rs, r.Plain) ∧
      (∀ rs : History, ∃ entries, rs.encode.items? = some entries ∧
        (((Decoded.ofEntries entries).malformed = [] ∧ (Decoded.ofEntries entries).records = rs) ↔
          ∀ r ∈ rs, r.Plain)) ∧
      ∀ entries, ∃ again, (Decoded.ofEntries entries).records.encode.items? = some again ∧
        (Decoded.ofEntries again).malformed = [] ∧
        (Decoded.ofEntries again).records = (Decoded.ofEntries entries).records ∧
        ∀ v, (Decoded.ofEntries again).verify v = v.run (Decoded.ofEntries entries).records ∧
          ((Decoded.ofEntries entries).malformed = [] →
            (Decoded.ofEntries again).verify v = (Decoded.ofEntries entries).verify v) := by
  have hitems : ∀ rs : History, rs.encode.items? = some (rs.map Record.toEntry) :=
    fun rs => Json.Value.items?_array _
  refine ⟨fun v content d hd r hr => ?_, fun rs => ⟨?_, fun hrs => ?_⟩, fun rs => ?_, fun entries => ?_⟩
  · obtain ⟨entries, -, rfl⟩ := History.exists_lists_of_decodeWith hd
    exact Decoded.plain_of_mem_records hr
  · rintro ⟨entries, rfl⟩ r hr
    exact Decoded.plain_of_mem_records hr
  · exact ⟨_, (Decoded.ofEntries_toEntry_iff.2 hrs).2⟩
  · exact ⟨_, hitems rs, Decoded.ofEntries_toEntry_iff⟩
  · -- the entries may be spelled in another way than those that are written, but what is written is plain
    have hplain : ∀ r ∈ (Decoded.ofEntries entries).records, r.Plain := fun r => Decoded.plain_of_mem_records
    obtain ⟨hm, hr⟩ := Decoded.ofEntries_toEntry_iff.2 hplain
    refine ⟨_, hitems _, hm, hr, fun v => ⟨?_, fun hnone => ?_⟩⟩
    · rw [Decoded.verify_eq_run hm, hr]
    · rw [Decoded.verify_eq_run hm, hr, Decoded.verify_eq_run hnone]

/-- A root whose id is a number and whose parent stands under its other name, and its child. -/
def aliased : Bytes :=
  .ofString "[\x7b\"id\":7,\"parentId\":\"\",\"by\":\"x\"\x7d,\x7b\"id\":\"b\",\"parent\":7\x7d]"

/-- What is decoded of an id that is a number and of a parent under its other name is written otherwise, and is
verified as before. -/
theorem decoded_normal_form_aliased :
    ∃ entries, History.decodeWith ⟨.failFast, none⟩ aliased = .ok (.ofEntries entries) ∧
      (∀ r ∈ (Decoded.ofEntries entries).records, r.Plain) ∧ (Decoded.ofEntries entries).malformed = [] ∧
      ∃ again, (Decoded.ofEntries entries).records.encode.items? = some again ∧
        (Decoded.ofEntries again).records = (Decoded.ofEntries entries).records ∧
        ∀ v, (Decoded.ofEntries again).verify v = (Decoded.ofEntries entries).verify v := by
  have hjson : Json.read aliased = .ok (.array
      [.object [("id", .integer 7), ("parentId", .string ""), ("by", .string "x")],
        .object [("id", .string "b"), ("parent", .integer 7)]]) := by rfl
  have hread : Json.Value.read aliased = .ok (.ofJson (.array
      [.object [("id", .integer 7), ("parentId", .string ""), ("by", .string "x")],
        .object [("id", .string "b"), ("parent", .integer 7)]])) := by
    rw [Json.Value.read, hjson]
    rfl
  let root : Json.Value := .ofJson (.object [("id", .integer 7), ("parentId", .string ""), ("by", .string "x")])
  let child : Json.Value := .ofJson (.object [("id", .string "b"), ("parent", .integer 7)])
  have hd : History.decodeWith ⟨.failFast, none⟩ aliased = .ok (.ofEntries [root, child]) :=
    (History.decodeWith_eq_ok_iff (by decide)).2 ⟨_, _, hread, rfl, rfl⟩
  have hnone : (Decoded.ofEntries [root, child]).malformed = [] := by rfl
  obtain ⟨hplain, -, -, hagain⟩ := decoded_normal_form
  obtain ⟨again, hitems, -, hrecords, hverify⟩ := hagain [root, child]
  exact ⟨_, hd, hplain _ _ _ hd, hnone, again, hitems, hrecords, fun v => (hverify v).2 hnone⟩

end Lineage
