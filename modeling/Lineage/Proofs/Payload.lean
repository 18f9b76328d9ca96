import Lineage.Audit
import Lineage.Proofs.Decoding
import Mathlib.Data.List.Forall2

/-!
# Payloads

A payload is carried along and never looked into.  The forward pass does the same with a record as with that
record without its payload (`Pass.check_bare`), and so does a whole scan (`scan_bare`); an entry is read by its
kind and by three of its fields (`Record.ofEntry_bare`).  So two files whose entries agree in these cannot be told
apart by their malformed entries, by the links between their records, or by any verdict.
-/

namespace Lineage

/-! ### The forward pass -/

/-- The record without its payload. -/
def Record.bare (r : Record) : Record :=
  { r with payload := .empty }

theorem Pass.check_bare (p : Pass) (position : Nat) (r : Record) : p.check position r.bare = p.check position r :=
  rfl

section

variable {ε : Type} (gate : Nat → Except ε Unit) (policy : Policy)

theorem scanFrom_bare (position : Nat) (p : Pass) (h : History) :
    scanFrom gate policy position p (h.map Record.bare) = scanFrom gate policy position p h := by
  induction h generalizing position p with
  | nil => rfl
  | cons r rest ih =>
    rw [List.map_cons, scanFrom, scanFrom, Pass.check_bare]
    simp only [ih]

theorem scan_bare (h : History) : scan gate policy (h.map Record.bare) = scan gate policy h := by
  cases h with
  | nil => rfl
  | cons r rest =>
    have hscan := scanFrom_bare gate policy 0 .empty (r :: rest)
    rw [List.map_cons] at hscan
    simp only [scan, List.map_cons, hscan, List.length_cons, List.length_map]

end

/-! ### Decoded files -/

namespace Decoded

/-- What was decoded differs in payloads at most, and no verifier tells the two apart. -/
structure Alike (d d' : Decoded) : Prop where
  malformed : d.malformed = d'.malformed
  ids : d.records.map Record.id = d'.records.map Record.id
  parents : d.records.map Record.parent = d'.records.map Record.parent
  recordCount : d.recordCount = d'.recordCount
  verify : ∀ v, d.verify v = d'.verify v

theorem alike_of_bare {d d' : Decoded} (hm : d.malformed = d'.malformed)
    (hr : d.records.map Record.bare = d'.records.map Record.bare) : d.Alike d' := by
  have hfield : ∀ {α : Type} (field : Record → α), (∀ r, field r.bare = field r) →
      d.records.map field = d'.records.map field := by
    intro α field hbare
    have hf := congrArg (List.map field) hr
    rw [List.map_map, List.map_map] at hf
    simpa only [Function.comp_def, hbare] using hf
  -- the records are counted, whatever they are
  have hcount : d.recordCount = d'.recordCount := by
    have hlen := congrArg List.length hr
    rw [List.length_map, List.length_map] at hlen
    rw [recordCount, recordCount, hm, hlen]
  refine ⟨hm, hfield Record.id fun _ => rfl, hfield Record.parent fun _ => rfl, hcount, fun v => ?_⟩
  have hrun : v.run d.records = v.run d'.records := by
    rw [Verifier.run, Verifier.run, ← scan_bare, hr, scan_bare]
  rw [verify, verify, isWellFormed, isWellFormed, hm, hcount, hrun]

end Decoded

/-! ### Entries -/

namespace Entry

/-- The entries are of one kind, and where both are objects the fields that make a record of an entry are the
same.  Their other fields have nothing to do with each other. -/
structure Agree (e e' : Json.Value) : Prop where
  kind : e.kind = e'.kind
  named : ∀ fields fields', e.object? = some fields → e'.object? = some fields' →
    ∀ key ∈ [idKey, parentKey, parentAlias], fields.find? key = fields'.find? key

theorem object?_eq_none_iff {e : Json.Value} : e.object? = none ↔ e.kind ≠ .object := by
  obtain ⟨j, hj⟩ := e
  cases j <;> simp [Json.Value.object?, Json.Value.kind, Json.kind]

variable {fields fields' : Json.Object}

theorem agree_of_object? {e e' : Json.Value} (he : e.object? = some fields) (he' : e'.object? = some fields')
    (h : ∀ key ∈ [idKey, parentKey, parentAlias], fields.find? key = fields'.find? key) : Agree e e' where
  kind := by
    have hk : e.kind = .object := by_contra fun hne => by simp [object?_eq_none_iff.2 hne] at he
    have hk' : e'.kind = .object := by_contra fun hne => by simp [object?_eq_none_iff.2 hne] at he'
    rw [hk, hk']
  named f f' hf hf' := by
    obtain rfl := Option.some.inj (he.symm.trans hf)
    obtain rfl := Option.some.inj (he'.symm.trans hf')
    exact h

theorem readId_congr (h : fields.find? idKey = fields'.find? idKey) : readId fields = readId fields' := by
  rw [readId, readId, h]

theorem readParent_congr (hp : fields.find? parentKey = fields'.find? parentKey)
    (ha : fields.find? parentAlias = fields'.find? parentAlias) (id : String) :
    readParent fields id = readParent fields' id := by
  rw [readParent, readParent, rawParent, rawParent, hp, ha]

end Entry

open Entry

/-- What an entry reads as, its payload aside. -/
def Entry.reading (e : Json.Value) : Except Malformed Record :=
  (Record.ofEntry e).map Record.bare

theorem Entry.Agree.reading_eq {e e' : Json.Value} (h : Agree e e') : reading e = reading e' := by
  unfold reading Record.ofEntry
  cases he : e.object? with
  | none =>
    -- an entry that is no object is refused by its kind
    have he' : e'.object? = none := by
      rw [object?_eq_none_iff, ← h.kind]
      exact object?_eq_none_iff.1 he
    simp only [he', h.kind]
  | some fields =>
    cases he' : e'.object? with
    | none =>
      rw [object?_eq_none_iff, ← h.kind, ← object?_eq_none_iff, he] at he'
      cases he'
    | some fields' =>
      have hkey := h.named fields fields' he he'
      have hid : readId fields = readId fields' := readId_congr (hkey idKey (by simp))
      have hparent : ∀ id, readParent fields id = readParent fields' id :=
        readParent_congr (hkey parentKey (by simp)) (hkey parentAlias (by simp))
      simp only [hid]
      cases readId fields' with
      | error why => rfl
      | ok id =>
        simp only [bind, Except.bind, hparent]
        cases readParent fields' id <;> rfl

namespace Decoded

/-- What a file reports where it lists an entry that reads so. -/
def complaint : Except Malformed Record × Nat → Option Violation
  | (.error why, position) => some (.atPosition position (.malformedRecord why.reason))
  | (.ok _, _) => none

theorem malformed_ofEntries_eq (entries : List Json.Value) :
    (ofEntries entries).malformed = (entries.map reading).zipIdx.filterMap complaint := by
  simp only [ofEntries, List.zipIdx_map, List.filterMap_map]
  congr 1
  funext ⟨e, position⟩
  simp only [Function.comp_apply, Prod.map_apply, reading]
  cases Record.ofEntry e <;> rfl

theorem bare_records_ofEntries (entries : List Json.Value) :
    (ofEntries entries).records.map Record.bare = (entries.map reading).filterMap Except.toOption := by
  simp only [ofEntries, List.map_filterMap, List.filterMap_map]
  congr 1
  funext e
  simp only [Function.comp_apply, reading]
  cases Record.ofEntry e <;> rfl

theorem alike_ofEntries {entries entries' : List Json.Value} (h : List.Forall₂ Agree entries entries') :
    (ofEntries entries).Alike (ofEntries entries') := by
  have hreading : entries.map reading = entries'.map reading := by
    induction h with
    | nil => rfl
    | cons he _ ih => rw [List.map_cons, List.map_cons, he.reading_eq, ih]
  apply alike_of_bare
  · rw [malformed_ofEntries_eq, malformed_ofEntries_eq, hreading]
  · rw [bare_records_ofEntries, bare_records_ofEntries, hreading]

end Decoded

/-! ### Files -/

/-- Payloads have no say.  Entries that agree decode to what no verifier tells apart, and so do the files that list
them, unless both are refused for the same reason; an audit gives them the same report and the same count. -/
theorem payload_noninterference {entries entries' : List Json.Value} (h : List.Forall₂ Agree entries entries') :
    (Decoded.ofEntries entries).Alike (Decoded.ofEntries entries') ∧
      ∀ content content', History.Lists content entries → History.Lists content' entries' → ∀ v,
        ((∃ e, History.decodeWith v content = .error e ∧ History.decodeWith v content' = .error e) ∨
          ∃ d d', History.decodeWith v content = .ok d ∧ History.decodeWith v content' = .ok d' ∧ d.Alike d') ∧
        ∀ hash, (History.audit hash v content).map (fun o => (o.report, o.recordCount)) =
          (History.audit hash v content').map fun o => (o.report, o.recordCount) := by
  have halike := Decoded.alike_ofEntries h
  refine ⟨halike, fun content content' hc hc' v => ?_⟩
  have hdecode := hc.decodeWith_eq v
  have hdecode' := hc'.decodeWith_eq v
  -- a flag stops the decoding after so many entries, of whatever kind
  rw [← h.length_eq] at hdecode'
  cases hflag : ((List.range entries.length).forM v.checkpoint).mapError DecodeError.interrupted with
  | error e =>
    rw [hflag] at hdecode hdecode'
    refine ⟨.inl ⟨e, hdecode, hdecode'⟩, fun hash => ?_⟩
    rw [History.audit, History.audit, hdecode, hdecode']
    rfl
  | ok _ =>
    rw [hflag] at hdecode hdecode'
    refine ⟨.inr ⟨_, _, hdecode, hdecode', halike⟩, fun hash => ?_⟩
    rw [History.audit, History.audit, hdecode, hdecode']
    simp only [Except.map, bind, Except.bind, halike.verify v, halike.recordCount]
    cases (Decoded.ofEntries entries').verify v <;> rfl

/-- A root and an entry without a parent, with hardly any payload. -/
def plainPair : Bytes :=
  .ofString "[\x7b\"id\":1,\"parent\":\"\"\x7d,\x7b\"id\":\"b\",\"note\":[1]\x7d]"

/-- The same two entries, with payloads that look like what they are not. -/
def decoratedPair : Bytes :=
  .ofString "[\x7b\"parents\":\"b\",\"parent\":\"\",\"ID\":\"b\",\"id\":1\x7d,\x7b\"Parent\":1,\"id\":\"b\"\x7d]"

theorem payload_noninterference_decorated :
    ∃ entries entries', List.Forall₂ Agree entries entries' ∧ History.Lists plainPair entries ∧
      History.Lists decoratedPair entries' ∧ (Decoded.ofEntries entries).Alike (Decoded.ofEntries entries') ∧
      ((∃ e, History.decodeWith ⟨.failFast, some false⟩ plainPair = .error e ∧
          History.decodeWith ⟨.failFast, some false⟩ decoratedPair = .error e) ∨
        ∃ d d', History.decodeWith ⟨.failFast, some false⟩ plainPair = .ok d ∧
          History.decodeWith ⟨.failFast, some false⟩ decoratedPair = .ok d' ∧ d.Alike d') := by
  have hplain : Json.read plainPair = .ok (.array
      [.object [("id", .integer 1), ("parent", .string "")],
        .object [("id", .string "b"), ("note", .array [.integer 1])]]) := by rfl
  have hdecorated : Json.read decoratedPair = .ok (.array
      [.object [("parents", .string "b"), ("parent", .string ""), ("ID", .string "b"), ("id", .integer 1)],
        .object [("Parent", .integer 1), ("id", .string "b")]]) := by rfl
  have hroot : Agree (.ofJson (.object [("id", .integer 1), ("parent", .string "")]))
      (.ofJson (.object
        [("parents", .string "b"), ("parent", .string ""), ("ID", .string "b"), ("id", .integer 1)])) := by
    refine agree_of_object? rfl rfl ?_
    simp only [List.forall_mem_cons]
    exact ⟨rfl, rfl, rfl, List.forall_mem_nil _⟩
  have horphan : Agree (.ofJson (.object [("id", .string "b"), ("note", .array [.integer 1])]))
      (.ofJson (.object [("Parent", .integer 1), ("id", .string "b")])) := by
    refine agree_of_object? rfl rfl ?_
    simp only [List.forall_mem_cons]
    exact ⟨rfl, rfl, rfl, List.forall_mem_nil _⟩
  have hagree := List.Forall₂.cons hroot (.cons horphan .nil)
  have hlists : History.Lists plainPair [_, _] := ⟨_, by rw [Json.Value.read, hplain]; rfl, rfl⟩
  have hlists' : History.Lists decoratedPair [_, _] := ⟨_, by rw [Json.Value.read, hdecorated]; rfl, rfl⟩
  obtain ⟨halike, hfiles⟩ := payload_noninterference hagree
  exact ⟨_, _, hagree, hlists, hlists', halike, (hfiles _ _ hlists hlists' ⟨.failFast, some false⟩).1⟩

end Lineage
