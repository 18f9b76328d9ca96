import Lineage.Proofs.Decoding
import Mathlib.Data.List.Forall2
import Mathlib.Data.List.Induction

/-!
# Decoding loses nothing

Decoding deals the entries of a file out to two lists, the records and the complaints, and each list keeps the
order of the file.  `Decoded.Splits` says so by the positions whose entries went to either list: one more entry
goes to the end of one of the lists (`ofEntries_append_of_ok`, `ofEntries_append_of_error`), and the positions so
far stay where they are.
-/

namespace Lineage

/-- The file lists an entry at the position, and this is what it reads as. -/
def Entry.ReadsAt (entries : List Json.Value) (position : Nat) (answer : Except Malformed Record) : Prop :=
  ∃ e, entries[position]? = some e ∧ Record.ofEntry e = answer

/-- The file lists a malformed entry at the position, and the violation is the complaint about it. -/
def Entry.ComplaintAt (entries : List Json.Value) (position : Nat) (v : Violation) : Prop :=
  ∃ why : Malformed, ReadsAt entries position (.error why) ∧ v = .atPosition position (.malformedRecord why.reason)

/-- The positions of a file are those of its records and those of its malformed entries, each position once; the
records and the complaints are those of the entries there, in this order. -/
structure Decoded.Splits (d : Decoded) (entries : List Json.Value) (sound broken : List Nat) : Prop where
  sound_ordered : sound.Pairwise (· < ·)
  broken_ordered : broken.Pairwise (· < ·)
  once : (sound ++ broken).Perm (List.range entries.length)
  records : List.Forall₂ (fun p r => Entry.ReadsAt entries p (.ok r)) sound d.records
  malformed : List.Forall₂ (Entry.ComplaintAt entries) broken d.malformed

namespace Entry

variable {entries : List Json.Value} {p : Nat} {answer answer' : Except Malformed Record}

theorem ReadsAt.lt (h : ReadsAt entries p answer) : p < entries.length := by
  obtain ⟨e, he, -⟩ := h
  exact (List.getElem?_eq_some_iff.1 he).1

theorem ReadsAt.unique (h : ReadsAt entries p answer) (h' : ReadsAt entries p answer') : answer = answer' := by
  obtain ⟨e, he, hread⟩ := h
  obtain ⟨e', he', hread'⟩ := h'
  obtain rfl := Option.some.inj (he.symm.trans he')
  exact hread.symm.trans hread'

theorem ReadsAt.append (h : ReadsAt entries p answer) (more : List Json.Value) :
    ReadsAt (entries ++ more) p answer := by
  have hlt := h.lt
  obtain ⟨e, he, hread⟩ := h
  exact ⟨e, by rw [List.getElem?_append_left hlt, he], hread⟩

theorem ComplaintAt.append {v : Violation} (h : ComplaintAt entries p v) (more : List Json.Value) :
    ComplaintAt (entries ++ more) p v := by
  obtain ⟨why, hread, hv⟩ := h
  exact ⟨why, hread.append more, hv⟩

theorem readsAt_length (entries : List Json.Value) (e : Json.Value) :
    ReadsAt (entries ++ [e]) entries.length (Record.ofEntry e) :=
  ⟨e, by simp, rfl⟩

end Entry

namespace Decoded

variable {entries : List Json.Value} {e : Json.Value}

/-! ### One more entry -/

theorem ofEntries_append_of_ok {r : Record} (h : Record.ofEntry e = .ok r) :
    ofEntries (entries ++ [e]) = { ofEntries entries with records := (ofEntries entries).records ++ [r] } := by
  simp [ofEntries, List.zipIdx_append, h, Except.toOption]

theorem ofEntries_append_of_error {why : Malformed} (h : Record.ofEntry e = .error why) :
    ofEntries (entries ++ [e]) =
      { ofEntries entries with
        malformed :=
          (ofEntries entries).malformed ++ [.atPosition entries.length (.malformedRecord why.reason)] } := by
  simp [ofEntries, List.zipIdx_append, h, Except.toOption]

namespace Splits

variable {d : Decoded} {sound broken : List Nat}

theorem lt_of_mem_sound (h : d.Splits entries sound broken) {p : Nat} (hp : p ∈ sound) : p < entries.length :=
  List.mem_range.1 (h.once.mem_iff.1 (List.mem_append_left broken hp))

theorem lt_of_mem_broken (h : d.Splits entries sound broken) {p : Nat} (hp : p ∈ broken) : p < entries.length :=
  List.mem_range.1 (h.once.mem_iff.1 (List.mem_append_right sound hp))

private theorem pairwise_snoc {positions : List Nat} {n : Nat} (ho : positions.Pairwise (· < ·))
    (hlt : ∀ p ∈ positions, p < n) : (positions ++ [n]).Pairwise (· < ·) := by
  rw [List.pairwise_append]
  refine ⟨ho, List.pairwise_singleton _ n, fun p hp q hq => ?_⟩
  obtain rfl := List.mem_singleton.1 hq
  exact hlt p hp

/-- The next entry is a record: its position comes last among those of the records. -/
theorem record (h : d.Splits entries sound broken) {r : Record} (hr : Record.ofEntry e = .ok r) :
    Splits { d with records := d.records ++ [r] } (entries ++ [e]) (sound ++ [entries.length]) broken where
  sound_ordered := pairwise_snoc h.sound_ordered fun _ => h.lt_of_mem_sound
  broken_ordered := h.broken_ordered
  once := by
    rw [List.length_append, List.length_singleton, List.range_succ, List.append_assoc]
    refine (List.perm_append_comm.append_left sound).trans ?_
    rw [← List.append_assoc]
    exact h.once.append_right [entries.length]
  records := by
    have hkept := h.records.imp fun _ _ hread => hread.append [e]
    have hlast : Entry.ReadsAt (entries ++ [e]) entries.length (.ok r) := hr ▸ Entry.readsAt_length entries e
    exact List.rel_append hkept (.cons hlast .nil)
  malformed := h.malformed.imp fun _ _ hcomplaint => hcomplaint.append [e]

/-- The next entry is malformed: its position comes last among those of the complaints. -/
theorem complaint (h : d.Splits entries sound broken) {why : Malformed} (hwhy : Record.ofEntry e = .error why) :
    Splits { d with malformed := d.malformed ++ [.atPosition entries.length (.malformedRecord why.reason)] }
      (entries ++ [e]) sound (broken ++ [entries.length]) where
  sound_ordered := h.sound_ordered
  broken_ordered := pairwise_snoc h.broken_ordered fun _ => h.lt_of_mem_broken
  once := by
    rw [List.length_append, List.length_singleton, List.range_succ, ← List.append_assoc]
    exact h.once.append_right [entries.length]
  records := h.records.imp fun _ _ hread => hread.append [e]
  malformed := by
    have hkept := h.malformed.imp fun _ _ hcomplaint => hcomplaint.append [e]
    have hlast : Entry.ReadsAt (entries ++ [e]) entries.length (.error why) := hwhy ▸ Entry.readsAt_length entries e
    exact List.rel_append hkept (.cons ⟨why, hlast, rfl⟩ .nil)

end Splits

/-- What is decoded splits the entries it is decoded from. -/
theorem exists_splits (entries : List Json.Value) :
    ∃ sound broken, (ofEntries entries).Splits entries sound broken := by
  induction entries using List.reverseRecOn with
  | nil => exact ⟨[], [], .nil, .nil, .nil, .nil, .nil⟩
  | append_singleton entries e ih =>
    obtain ⟨sound, broken, h⟩ := ih
    cases hread : Record.ofEntry e with
    | ok r =>
      rw [ofEntries_append_of_ok hread]
      exact ⟨_, _, h.record hread⟩
    | error why =>
      rw [ofEntries_append_of_error hread]
      exact ⟨_, _, h.complaint hread⟩

/-! ### What follows of the two lists -/

namespace Splits

variable {d : Decoded} {sound broken : List Nat} (h : d.Splits entries sound broken)

include h

theorem mem_or_mem {p : Nat} (hp : p < entries.length) : p ∈ sound ∨ p ∈ broken :=
  List.mem_append.1 (h.once.mem_iff.2 (List.mem_range.2 hp))

theorem exists_record_of_mem {p : Nat} (hp : p ∈ sound) : ∃ r, Entry.ReadsAt entries p (.ok r) := by
  obtain ⟨i, hi, rfl⟩ := List.getElem_of_mem hp
  exact ⟨_, h.records.get hi (h.records.length_eq ▸ hi)⟩

theorem exists_complaint_of_mem {p : Nat} (hp : p ∈ broken) : ∃ why, Entry.ReadsAt entries p (.error why) := by
  obtain ⟨i, hi, rfl⟩ := List.getElem_of_mem hp
  obtain ⟨why, hread, -⟩ := h.malformed.get hi (h.malformed.length_eq ▸ hi)
  exact ⟨why, hread⟩

theorem mem_sound_iff {p : Nat} : p ∈ sound ↔ ∃ r, Entry.ReadsAt entries p (.ok r) := by
  refine ⟨h.exists_record_of_mem, ?_⟩
  rintro ⟨r, hr⟩
  rcases h.mem_or_mem hr.lt with hp | hp
  · exact hp
  · obtain ⟨why, hwhy⟩ := h.exists_complaint_of_mem hp
    cases hr.unique hwhy

theorem mem_broken_iff {p : Nat} : p ∈ broken ↔ ∃ why, Entry.ReadsAt entries p (.error why) := by
  refine ⟨h.exists_complaint_of_mem, ?_⟩
  rintro ⟨why, hwhy⟩
  rcases h.mem_or_mem hwhy.lt with hp | hp
  · obtain ⟨r, hr⟩ := h.exists_record_of_mem hp
    cases hr.unique hwhy
  · exact hp

theorem positions_malformed : d.malformed.map Violation.position = broken.map some := by
  have hpositions : List.Forall₂ (· = ·) (broken.map some) (d.malformed.map Violation.position) := by
    rw [List.forall₂_map_left_iff, List.forall₂_map_right_iff]
    refine h.malformed.imp fun p v hcomplaint => ?_
    obtain ⟨why, -, rfl⟩ := hcomplaint
    rfl
  rw [List.forall₂_eq_eq_eq] at hpositions
  exact hpositions.symm

theorem recordCount_eq : d.recordCount = entries.length := by
  have hlen := h.once.length_eq
  rw [List.length_append, List.length_range, h.records.length_eq, h.malformed.length_eq] at hlen
  exact hlen

/-- When nothing is malformed, the records stand at the positions of their entries. -/
theorem sound_eq_range (hm : d.malformed = []) : sound = List.range entries.length := by
  have hbroken : broken = [] := by
    have hmalformed := h.malformed
    rw [hm] at hmalformed
    cases hmalformed
    rfl
  have hperm := h.once
  rw [hbroken, List.append_nil] at hperm
  apply hperm.eq_of_pairwise _ h.sound_ordered List.pairwise_lt_range
  intro p q _ _ hpq hqp
  exact absurd hpq (Nat.lt_asymm hqp)

theorem getElem?_records_iff (hm : d.malformed = []) {p : Nat} {r : Record} :
    d.records[p]? = some r ↔ Entry.ReadsAt entries p (.ok r) := by
  have hrecords := h.records
  rw [h.sound_eq_range hm] at hrecords
  have hlen := hrecords.length_eq
  rw [List.length_range] at hlen
  have hreads : ∀ (hp : p < d.records.length), Entry.ReadsAt entries p (.ok d.records[p]) := by
    intro hp
    have hread := hrecords.get (i := p) (by rw [List.length_range, hlen]; exact hp) hp
    simpa using hread
  constructor
  · intro hr
    obtain ⟨hp, rfl⟩ := List.getElem?_eq_some_iff.1 hr
    exact hreads hp
  · intro hread
    have hp : p < d.records.length := hlen ▸ hread.lt
    rw [List.getElem?_eq_getElem hp, Except.ok.inj ((hreads hp).unique hread)]

end Splits

theorem recordCount_ofEntries (entries : List Json.Value) : (ofEntries entries).recordCount = entries.length := by
  obtain ⟨_, _, h⟩ := exists_splits entries
  exact h.recordCount_eq

end Decoded

/-- With a clear flag, what is an array is decoded, and everything else is refused as no JSON or as no array.  What
is decoded splits the entries of the array: the complaints stand at the positions of the entries that do not read
as a record, nothing is lost, and the records are those of all entries when there are no complaints. -/
theorem decoding_splits {v : Verifier} (hv : v.flag ≠ some true) (content : Bytes) :
    ((∃ d, History.decodeWith v content = .ok d) ↔ ∃ entries, History.Lists content entries) ∧
      (∀ e, History.decodeWith v content = .error e ↔
        (∃ fault, Json.Value.read content = .error fault ∧ e = .notJson fault) ∨
          ∃ value, Json.Value.read content = .ok value ∧ value.items? = none ∧ e = .notAnArray value.kind) ∧
      ∀ d entries, History.decodeWith v content = .ok d → History.Lists content entries →
        ∃ sound broken, d.Splits entries sound broken ∧
          (∀ p, p ∈ sound ↔ ∃ r, Entry.ReadsAt entries p (.ok r)) ∧
          (∀ p, p ∈ broken ↔ ∃ why, Entry.ReadsAt entries p (.error why)) ∧
          d.malformed.map Violation.position = broken.map some ∧
          d.recordCount = entries.length ∧
          (d.malformed = [] → d.records.length = entries.length ∧
            ∀ p r, d.records[p]? = some r ↔ Entry.ReadsAt entries p (.ok r)) := by
  refine ⟨⟨?_, ?_⟩, fun e => History.decodeWith_eq_error_iff v hv, fun d entries hd hlists => ?_⟩
  · rintro ⟨d, hd⟩
    obtain ⟨entries, hlists, -⟩ := History.exists_lists_of_decodeWith hd
    exact ⟨entries, hlists⟩
  · rintro ⟨entries, value, hread, hitems⟩
    exact ⟨_, (History.decodeWith_eq_ok_iff hv).2 ⟨value, entries, hread, hitems, rfl⟩⟩
  · obtain ⟨value, hread, hitems⟩ := hlists
    have hof := (History.decodeWith_eq_ok_iff hv).2 ⟨value, entries, hread, hitems, rfl⟩
    obtain rfl := Except.ok.inj (hd.symm.trans hof)
    obtain ⟨sound, broken, h⟩ := Decoded.exists_splits entries
    refine ⟨sound, broken, h, fun p => h.mem_sound_iff, fun p => h.mem_broken_iff, h.positions_malformed,
      h.recordCount_eq, fun hm => ⟨?_, ?_⟩⟩
    · have hcount := h.recordCount_eq
      rwa [Decoded.recordCount, hm] at hcount
    · exact fun p r => h.getElem?_records_iff hm

/-- A record between two values that are none. -/
def interspersed : Bytes :=
  .ofString "[7,\x7b\"id\":1,\"parent\":\"\"\x7d,null]"

/-- The record stays in the middle, and the complaints tell the positions of the others. -/
theorem decoding_splits_interspersed :
    (⟨.failFast, some false⟩ : Verifier).flag ≠ some true ∧
      ∃ d entries, History.decodeWith ⟨.failFast, some false⟩ interspersed = .ok d ∧
        History.Lists interspersed entries ∧ d.recordCount = 3 ∧ ∃ sound, d.Splits entries sound [0, 2] := by
  have hv : (⟨.failFast, some false⟩ : Verifier).flag ≠ some true := by decide
  have hjson : Json.read interspersed =
      .ok (.array [.integer 7, .object [("id", .integer 1), ("parent", .string "")], .null]) := by rfl
  have hlists : History.Lists interspersed [_, _, _] := ⟨_, Json.Value.read_eq_ok_iff.2 ⟨_, hjson, rfl⟩, rfl⟩
  obtain ⟨hdecodes, -, hsplits⟩ := decoding_splits hv interspersed
  obtain ⟨d, hd⟩ := hdecodes.2 ⟨_, hlists⟩
  obtain ⟨sound, broken, h, -, -, hpositions, hcount, -⟩ := hsplits d _ hd hlists
  obtain rfl := Except.ok.inj (hd.symm.trans (hlists.decodeWith_eq ⟨.failFast, some false⟩))
  obtain rfl : broken = [0, 2] := List.map_injective_iff.2 (fun _ _ => Option.some.inj) hpositions.symm
  exact ⟨hv, _, _, hd, hlists, hcount, sound, h⟩

end Lineage
