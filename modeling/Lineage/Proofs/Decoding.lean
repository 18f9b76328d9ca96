import Lineage.History.File
import Lineage.Proofs.Answer
import Lineage.Proofs.Derivation

/-!
# Decoding with a clear flag

A verifier whose flag is not set never gets in the way: decoding fails only on bytes that are no JSON array,
and verifying never fails.  What is decoded is verified exactly when no entry is malformed and the records are
a sound history.
-/

namespace Lineage

theorem Json.Value.read_eq_ok_iff {content : Bytes} {value : Json.Value} :
    Json.Value.read content = .ok value ↔ ∃ j, Json.read content = .ok j ∧ value = .ofJson j :=
  map_eq_ok_iff

theorem Verifier.checkpoint_eq_ok {v : Verifier} (hv : v.flag ≠ some true) (position : Nat) :
    v.checkpoint position = .ok () := by
  simp [checkpoint, hv]

private theorem forM_checkpoint {v : Verifier} (hv : v.flag ≠ some true) (positions : List Nat) :
    positions.forM v.checkpoint = .ok () := by
  induction positions with
  | nil => rfl
  | cons position rest ih =>
    show (v.checkpoint position >>= fun _ => rest.forM v.checkpoint) = .ok ()
    rw [Verifier.checkpoint_eq_ok hv]
    exact ih

/-- Decoding with a clear flag is decoding without one. -/
theorem History.decodeWith_eq_decode {v : Verifier} (hv : v.flag ≠ some true) (content : Bytes) :
    decodeWith v content = decode content := by
  unfold decode decodeWith
  simp only [forM_checkpoint hv, forM_checkpoint (v := .of .collect) (by simp [Verifier.of])]

theorem History.decodeWith_eq_ok_iff {v : Verifier} (hv : v.flag ≠ some true) {content : Bytes} {d : Decoded} :
    decodeWith v content = .ok d ↔
      ∃ value entries, Json.Value.read content = .ok value ∧ value.items? = some entries ∧
        d = .ofEntries entries := by
  unfold decodeWith
  rw [bind_eq_ok_iff]
  apply exists_congr
  intro value
  rw [mapError_eq_ok_iff]
  cases hi : value.items? with
  | none => simp
  | some entries =>
    simp only [bind_eq_ok_iff, mapError_eq_ok_iff, pure_eq_ok_iff, forM_checkpoint hv]
    simp [eq_comm]

/-- The content is the text of an array of these entries. -/
def History.Lists (content : Bytes) (entries : List Json.Value) : Prop :=
  ∃ value, Json.Value.read content = .ok value ∧ value.items? = some entries

/-- The content of an array is decoded unless the verifier's flag is set and there is an entry. -/
theorem History.Lists.decodeWith_eq {content : Bytes} {entries : List Json.Value} (h : Lists content entries)
    (v : Verifier) :
    decodeWith v content =
      (((List.range entries.length).forM v.checkpoint).mapError DecodeError.interrupted).map
        fun _ => Decoded.ofEntries entries := by
  obtain ⟨value, hread, hitems⟩ := h
  rw [decodeWith, hread]
  simp only [mapError_ok, bind, Except.bind, hitems]
  cases ((List.range entries.length).forM v.checkpoint).mapError DecodeError.interrupted <;> rfl

/-- Whatever the flag, what is decoded are the entries that the content lists. -/
theorem History.exists_lists_of_decodeWith {v : Verifier} {content : Bytes} {d : Decoded}
    (h : decodeWith v content = .ok d) : ∃ entries, Lists content entries ∧ d = .ofEntries entries := by
  unfold decodeWith at h
  obtain ⟨value, hread, h⟩ := bind_eq_ok_iff.1 h
  rw [mapError_eq_ok_iff] at hread
  cases hitems : value.items? with
  | none =>
    rw [hitems] at h
    cases h
  | some entries =>
    simp only [hitems, bind_eq_ok_iff, pure_eq_ok_iff] at h
    obtain ⟨-, -, rfl⟩ := h
    exact ⟨entries, ⟨value, hread, hitems⟩, rfl⟩

/-! ### Contents that are no history -/

namespace History

variable (v : Verifier) {content : Bytes}

theorem decodeWith_of_read_error {fault : Json.Fault} (h : Json.Value.read content = .error fault) :
    decodeWith v content = .error (.notJson fault) := by
  rw [decodeWith, h]
  rfl

theorem decodeWith_of_items?_eq_none {value : Json.Value} (hread : Json.Value.read content = .ok value)
    (hitems : value.items? = none) : decodeWith v content = .error (.notAnArray value.kind) := by
  rw [decodeWith, hread]
  simp only [mapError_ok, bind, Except.bind, hitems]

/-- With a clear flag, decoding fails on what is no JSON and on what is no array, and on nothing else. -/
theorem decodeWith_eq_error_iff (hv : v.flag ≠ some true) {e : DecodeError} :
    decodeWith v content = .error e ↔
      (∃ fault, Json.Value.read content = .error fault ∧ e = .notJson fault) ∨
        ∃ value, Json.Value.read content = .ok value ∧ value.items? = none ∧ e = .notAnArray value.kind := by
  cases hread : Json.Value.read content with
  | error fault =>
    rw [decodeWith_of_read_error v hread]
    simp [eq_comm]
  | ok value =>
    cases hitems : value.items? with
    | none =>
      rw [decodeWith_of_items?_eq_none v hread hitems]
      simp [hitems, eq_comm]
    | some entries =>
      rw [(decodeWith_eq_ok_iff hv).2 ⟨value, entries, hread, hitems, rfl⟩]
      simp [hitems]

end History

namespace Decoded

theorem malformed_ofEntries_eq_nil_iff {entries : List Json.Value} :
    (ofEntries entries).malformed = [] ↔ ∀ e ∈ entries, ∃ r, Record.ofEntry e = .ok r := by
  unfold ofEntries
  simp only [List.filterMap_eq_nil_iff]
  constructor
  · intro h e he
    obtain ⟨i, hi, rfl⟩ := List.getElem_of_mem he
    have hmem : (Record.ofEntry entries[i], i) ∈ (entries.map Record.ofEntry).zipIdx := by
      rw [List.mem_zipIdx_iff_getElem?]
      simp [hi]
    have hnone := h _ hmem
    cases hr : Record.ofEntry entries[i] with
    | ok r => exact ⟨r, rfl⟩
    | error why => simp [hr] at hnone
  · rintro h ⟨read, position⟩ hmem
    rw [List.mem_zipIdx_iff_getElem?] at hmem
    obtain ⟨e, he, rfl⟩ := List.mem_map.1 (List.mem_of_getElem? hmem)
    obtain ⟨r, hr⟩ := h e he
    simp [hr]

/-- Nothing is malformed and the records are those given, exactly when each entry reads as its record. -/
theorem ofEntries_eq_iff {entries : List Json.Value} {rs : History} :
    ((ofEntries entries).malformed = [] ∧ (ofEntries entries).records = rs) ↔
      entries.map Record.ofEntry = rs.map .ok := by
  rw [malformed_ofEntries_eq_nil_iff]
  show (_ ∧ (entries.map Record.ofEntry).filterMap Except.toOption = rs) ↔ _
  constructor
  · rintro ⟨hall, rfl⟩
    induction entries with
    | nil => rfl
    | cons e entries ih =>
      obtain ⟨r, hr⟩ := hall e (List.mem_cons_self ..)
      have ih := ih fun e' he' => hall e' (List.mem_cons_of_mem _ he')
      simp only [List.map_cons, hr, List.filterMap_cons, Except.toOption, ← ih]
  · intro h
    constructor
    · intro e he
      have hmem : Record.ofEntry e ∈ rs.map Except.ok := h ▸ List.mem_map_of_mem he
      obtain ⟨r, -, hr⟩ := List.mem_map.1 hmem
      exact ⟨r, hr.symm⟩
    · rw [h, List.filterMap_map]
      simp [Except.toOption, Function.comp_def]

/-- The violations in a file: its malformed entries, or those of its records when no entry is malformed. -/
def violations (d : Decoded) : List Violation :=
  if d.malformed = [] then d.records.faults else d.malformed

theorem verify_eq {v : Verifier} (hv : v.flag ≠ some true) (d : Decoded) :
    d.verify v = .ok (.ofViolations d.recordCount (v.policy.kept d.violations)) := by
  unfold verify isWellFormed violations recordCount
  cases hm : d.malformed with
  | nil =>
    simp only [List.isEmpty_nil, ↓reduceIte, Verifier.run_eq hv, List.length_nil, Nat.add_zero]
  | cons m ms =>
    simp only [List.isEmpty_cons, Bool.false_eq_true, ↓reduceIte, Verifier.checkpoint_eq_ok hv, bind,
      Except.bind, pure, Except.pure, reduceCtorEq]
    cases v.policy <;> rfl

theorem verify_eq_verified_iff {v : Verifier} (hv : v.flag ≠ some true) {d : Decoded} {n : Nat} :
    d.verify v = .ok (.verified n) ↔ d.malformed = [] ∧ d.records.Sound ∧ n = d.records.length := by
  rw [verify_eq hv, Except.ok.injEq, Report.ofViolations_eq_verified_iff, Policy.kept_eq_nil_iff, violations,
    recordCount]
  by_cases hm : d.malformed = []
  · rw [if_pos hm, History.faults_eq_nil_iff, hm, List.length_nil, Nat.add_zero]
    simp
  · simp [hm]

end Decoded

end Lineage
