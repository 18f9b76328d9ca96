import Lineage.Proofs.Decoding
import Lineage.Proofs.Entry
import Lineage.Proofs.Json.RoundTrip

/-!
# Histories that survive their file

A history is written to a file as a JSON array and decoded from there.  What comes back is the history itself
exactly when each of its records is `Preserved`; so the records that are not are known, and one of them is
enough to lose the history.
-/

namespace Lineage

/-! ### Values -/

namespace Json

theorem Value.read_pretty_eq_ok_iff {v w : Value} (hv : v.json.Integral) :
    Value.read (.ofString v.json.pretty) = .ok w ↔ v.json.depth ≤ maxDepth ∧ w = v := by
  unfold Value.read pretty
  by_cases hd : v.json.depth ≤ maxDepth
  · rw [hv.read_text Layout.blanks_pretty hd]
    simp [Except.map, Value.ofJson_json, hd, eq_comm]
  · obtain ⟨fault, hf⟩ := hv.read_text_error Layout.blanks_pretty (Nat.lt_of_not_le hd)
    rw [hf]
    simp [Except.map, hd]

end Json

open Entry

/-! ### Entries of records -/

namespace Record

/-- The entry of the record as an object. -/
def entryFields (r : Record) : Json.Object :=
  ((Json.Object.empty.insert idKey (.string r.id)).insert parentKey (.string (r.parent.getD noParent))).overlay
    r.payload

theorem toEntry_eq (r : Record) : r.toEntry = .object r.entryFields :=
  rfl

theorem find?_entryFields (r : Record) (name : String) :
    r.entryFields.find? name = (r.payload.find? name).or
      (if name = parentKey then some (.string (r.parent.getD noParent))
        else if name = idKey then some (.string r.id) else none) := by
  rw [entryFields, Json.Object.find?_overlay, Json.Object.find?_insert, Json.Object.find?_insert]
  rfl

/-- What holds of every string holds of the values of an entry when it holds of those of the payload. -/
theorem forall_entryFields_iff {P : Json → Prop} (hP : ∀ s, P (.string s)) {r : Record} :
    (∀ f ∈ r.entryFields.fields, P f.2) ↔ ∀ f ∈ r.payload.fields, P f.2 := by
  constructor
  · intro h f hf
    apply h f
    rw [Json.Object.mem_fields_iff] at hf ⊢
    rw [find?_entryFields, hf]
    rfl
  · intro h f hf
    rw [Json.Object.mem_fields_iff, find?_entryFields] at hf
    cases hp : r.payload.find? f.1 with
    | some j =>
      rw [hp] at hf
      obtain rfl := Option.some.inj hf
      exact h f (Json.Object.mem_fields_iff.2 hp)
    | none =>
      rw [hp, Option.none_or] at hf
      split at hf
      · exact Option.some.inj hf ▸ hP _
      · split at hf
        · exact Option.some.inj hf ▸ hP _
        · cases hf

/-- The record reads the same in its entry: it has an id, a parent that is not written like none, and a payload
that uses none of the names of an entry. -/
structure Plain (r : Record) : Prop where
  named : r.id ≠ ""
  parent : r.parent ≠ some noParent
  unused : ∀ key ∈ [idKey, parentKey, parentAlias], r.payload.find? key = none

end Record

theorem Record.ofEntry_toEntry_iff {r : Record} : Record.ofEntry r.toEntry = .ok r ↔ r.Plain := by
  rw [Record.ofEntry_eq_ok_iff, toEntry_eq]
  constructor
  · rintro ⟨fields, parent, -, hreg, hparent, hpayload⟩
    refine ⟨hreg.named, ?_, fun key hkey => ?_⟩
    · rw [← parentOf_getD_iff, hparent, getD_parentOf]
    · rw [hpayload, Entry.find?_payload, if_pos hkey]
  · intro h
    have hid : r.entryFields.find? idKey = some (.string r.id) := by
      rw [find?_entryFields, h.unused idKey (by simp)]
      rfl
    have hparent : r.entryFields.find? parentKey = some (.string (r.parent.getD noParent)) := by
      rw [find?_entryFields, h.unused parentKey (by simp)]
      rfl
    have halias : r.entryFields.find? parentAlias = none := by
      rw [find?_entryFields, h.unused parentAlias (by simp)]
      rfl
    refine ⟨r.entryFields, r.parent.getD noParent, rfl, ⟨⟨_, hid, .string _⟩, h.named, ?_⟩, ?_, ?_⟩
    · exact ⟨_, .inl ⟨hparent, halias⟩, .string _⟩
    · exact (parentOf_getD_iff.2 h.parent).symm
    · apply Json.Object.ext_find?
      intro name
      rw [Entry.find?_payload]
      by_cases hname : name ∈ [idKey, parentKey, parentAlias]
      · rw [if_pos hname, h.unused name hname]
      · have hne : name ≠ parentKey ∧ name ≠ idKey := by
          constructor
          · rintro rfl
            exact hname (by simp)
          · rintro rfl
            exact hname (by simp)
        rw [if_neg hname, find?_entryFields, if_neg hne.1, if_neg hne.2, Option.or_none]

/-! ### Files -/

/-- The containers that may stand inside each other in a payload: the reader allows 127, and the array of the
file and the object of the entry are two of them. -/
def Record.payloadDepth : Nat := 125

/-- The record comes back from a file as it was. -/
structure Record.Preserved (r : Record) : Prop extends r.Plain where
  shallow : ∀ f ∈ r.payload.fields, f.2.depth ≤ payloadDepth

namespace History

variable {rs : History}

private theorem encode_json (rs : History) :
    rs.encode.json = .array (rs.map fun r => .object r.entryFields.fields) := by
  show Json.array ((rs.map Record.toEntry).map Json.Value.json) = _
  rw [List.map_map]
  rfl

theorem integral_encode (h : ∀ r ∈ rs, ∀ f ∈ r.payload.fields, f.2.Integral) : rs.encode.json.Integral := by
  rw [encode_json]
  apply Json.Integral.array
  intro j hj
  obtain ⟨r, hr, rfl⟩ := List.mem_map.1 hj
  exact .object ((Record.forall_entryFields_iff Json.Integral.string).2 (h r hr))

theorem depth_encode_le_iff :
    rs.encode.json.depth ≤ Json.maxDepth ↔
      ∀ r ∈ rs, ∀ f ∈ r.payload.fields, f.2.depth ≤ Record.payloadDepth := by
  have hmax : Json.maxDepth = Record.payloadDepth + 1 + 1 := rfl
  have hstring : ∀ s, (Json.string s).depth ≤ Record.payloadDepth := fun s => Nat.zero_le _
  rw [encode_json, Json.depth, hmax, Nat.add_le_add_iff_right, Json.depthItems_le_iff, List.forall_mem_map]
  apply forall₂_congr
  intro r _
  rw [Json.depth, Nat.add_le_add_iff_right, Json.depthFields_le_iff]
  exact Record.forall_entryFields_iff (P := fun j => j.depth ≤ Record.payloadDepth) hstring

/-- The content of a history is decoded to its entries, unless they are nested too deeply to be read. -/
theorem decode_content_eq_ok_iff (h : ∀ r ∈ rs, ∀ f ∈ r.payload.fields, f.2.Integral) {d : Decoded} :
    decode rs.content = .ok d ↔
      rs.encode.json.depth ≤ Json.maxDepth ∧ d = .ofEntries (rs.map Record.toEntry) := by
  rw [decode, decodeWith_eq_ok_iff (by simp [Verifier.of])]
  simp only [content, Json.Value.read_pretty_eq_ok_iff (integral_encode h)]
  constructor
  · rintro ⟨_, entries, ⟨hd, rfl⟩, hitems, rfl⟩
    rw [encode, Json.Value.items?_array, Option.some.injEq] at hitems
    exact ⟨hd, hitems ▸ rfl⟩
  · rintro ⟨hd, rfl⟩
    exact ⟨_, _, ⟨hd, rfl⟩, Json.Value.items?_array _, rfl⟩

/-- The records and nothing else come back from their entries when each of them reads the same. -/
theorem ofEntries_toEntry_eq_iff : Decoded.ofEntries (rs.map Record.toEntry) = ⟨rs, []⟩ ↔ ∀ r ∈ rs, r.Plain := by
  have hparts : Decoded.ofEntries (rs.map Record.toEntry) = ⟨rs, []⟩ ↔
      (Decoded.ofEntries (rs.map Record.toEntry)).malformed = [] ∧
        (Decoded.ofEntries (rs.map Record.toEntry)).records = rs := by
    constructor
    · intro h
      rw [h]
      exact ⟨rfl, rfl⟩
    · rintro ⟨hm, hr⟩
      rw [← hm]
      exact congrArg (Decoded.mk · _) hr
  rw [hparts, Decoded.ofEntries_eq_iff, List.map_map, List.map_inj_left]
  exact forall₂_congr fun r _ => Record.ofEntry_toEntry_iff

theorem decode_content_eq_iff (h : ∀ r ∈ rs, ∀ f ∈ r.payload.fields, f.2.Integral) :
    decode rs.content = .ok ⟨rs, []⟩ ↔ ∀ r ∈ rs, r.Preserved := by
  -- the depth is a condition on the text as a whole, the rest on each entry
  rw [decode_content_eq_ok_iff h, depth_encode_le_iff, eq_comm, ofEntries_toEntry_eq_iff]
  constructor
  · rintro ⟨hshallow, hplain⟩ r hr
    exact ⟨hplain r hr, hshallow r hr⟩
  · intro hp
    exact ⟨fun r hr => (hp r hr).shallow, fun r hr => (hp r hr).toPlain⟩

/-- A history whose numbers are integers is decoded from its file as it was, and with nothing malformed, exactly
when its records are preserved. -/
theorem decode_content_iff (h : ∀ r ∈ rs, ∀ f ∈ r.payload.fields, f.2.Integral) :
    (∃ d, decode rs.content = .ok d ∧ d.malformed = [] ∧ d.records = rs) ↔ ∀ r ∈ rs, r.Preserved := by
  rw [← decode_content_eq_iff h]
  constructor
  · rintro ⟨⟨_, _⟩, hd, rfl, rfl⟩
    exact hd
  · intro hd
    exact ⟨_, hd, rfl, rfl⟩

/-- A root that carries the largest and the smallest integer, and its child. -/
def withLimits : History :=
  let limits : Json := .array [.integer 18446744073709551615, .integer (-9223372036854775808)]
  [⟨"a\n", none, .ofFields [("limits", limits)]⟩, .child "b" "a\n"]

/-- The largest and the smallest integer survive the file of their history. -/
theorem decode_content_withLimits :
    (∀ r ∈ withLimits, ∀ f ∈ r.payload.fields, f.2.Integral) ∧
      ∃ d, decode withLimits.content = .ok d ∧ d.malformed = [] ∧ d.records = withLimits := by
  have hi : ∀ r ∈ withLimits, ∀ f ∈ r.payload.fields, f.2.Integral := by
    intro r hr f hf
    rcases List.mem_cons.1 hr with rfl | hr
    · obtain rfl := List.mem_singleton.1 hf
      apply Json.Integral.array
      intro j hj
      rcases List.mem_cons.1 hj with rfl | hj
      · exact .integer (by decide) (by decide)
      · obtain rfl := List.mem_singleton.1 hj
        exact .integer (by decide) (by decide)
    · obtain rfl := List.mem_singleton.1 hr
      cases hf
  refine ⟨hi, (decode_content_iff hi).2 fun r hr => ?_⟩
  rcases List.mem_cons.1 hr with rfl | hr
  · refine ⟨⟨by decide, by decide, by decide⟩, fun f hf => ?_⟩
    obtain rfl := List.mem_singleton.1 hf
    decide
  · obtain rfl := List.mem_singleton.1 hr
    exact ⟨⟨by decide, by decide, by decide⟩, fun f hf => nomatch hf⟩

end History

end Lineage
