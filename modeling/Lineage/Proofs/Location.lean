import Lineage.Proofs.Certification
import Lineage.Proofs.Partition
import Lineage.Proofs.Policies

/-!
# Where violations point

Positions are given out twice, to the entries of a file while they are decoded and to the records in the pass
over them.  The two agree because the pass is only made when no entry was dropped: so a violation at a position
is always about the entry at that position of the file (`Located`), whatever the policy keeps of the list.
-/

namespace Lineage

/-- The record at a position is the first one with an id. -/
structure History.IsFirst (h : History) (position : Nat) (id : String) : Prop where
  here : ∃ r, h[position]? = some r ∧ r.id = id
  before : ∀ i r, i < position → h[i]? = some r → r.id ≠ id

/-- The record at a position commits the breach: its id and its parent are those that the breach tells, and the
other record that the breach tells of is where it says. -/
def Breach.Describes (b : Breach) (h : History) (position : Nat) (r : Record) : Prop :=
  match b with
  | .rootHasParent id parent => r.id = id ∧ r.parent = some parent
  | .missingParent parent id => r.id = id ∧ r.parent = some parent
  | .selfReference id => r.id = id ∧ r.parent = some id
  | .duplicateId id first => r.id = id ∧ first < position ∧ h.IsFirst first id
  | .multipleRoots id root =>
    r.id = id ∧ r.parent = none ∧ ∃ i s, i < position ∧ h[i]? = some s ∧ s.id = root ∧ s.parent = none
  | .misplacedRoot id => r.id = id ∧ r.parent = none
  | .emptyHistory | .malformedRecord _ => False

/-- Every violation in the list is one of the entry at its position. -/
structure Located (entries : List Json.Value) (vs : List Violation) : Prop where
  ordered : (vs.filterMap Violation.position).Pairwise (· ≤ ·)
  unplaced : ∀ b, ⟨none, b⟩ ∈ vs → b = .emptyHistory ∧ entries = []
  inside : ∀ p b, ⟨some p, b⟩ ∈ vs → p < entries.length
  malformed : ∀ p reason, ⟨some p, .malformedRecord reason⟩ ∈ vs →
    ∃ e why, entries[p]? = some e ∧ (∀ texts, ¬Entry.Spells e texts) ∧ Record.ofEntry e = .error why ∧
      reason = why.reason
  structural : ∀ p b, ⟨some p, b⟩ ∈ vs → (∀ reason, b ≠ .malformedRecord reason) →
    ∃ (rs : History) (r : Record), entries.map Record.ofEntry = rs.map .ok ∧ rs[p]? = some r ∧
      b.Describes rs p r
  apart : ∀ v ∈ vs, ∀ w ∈ vs, ∀ reason, v.breach = .malformedRecord reason →
    ∃ reason', w.breach = .malformedRecord reason'

/-- The report is about these entries and points at them. -/
structure Report.Locates (report : Report) (entries : List Json.Value) : Prop
    extends Located entries report.violations where
  verified : ∀ n, report = .verified n → n = entries.length ∧ 1 ≤ n
  failed : ∀ vs, report = .failed vs → vs ≠ []
  empty : entries = [] → report = .failed [⟨none, .emptyHistory⟩]

theorem Located.sublist {entries : List Json.Value} {vs ws : List Violation} (h : Located entries vs)
    (hs : ws.Sublist vs) : Located entries ws where
  ordered := h.ordered.sublist (hs.filterMap _)
  unplaced b hb := h.unplaced b (hs.mem hb)
  inside p b hb := h.inside p b (hs.mem hb)
  malformed p reason hb := h.malformed p reason (hs.mem hb)
  structural p b hb := h.structural p b (hs.mem hb)
  apart v hv w hw := h.apart v (hs.mem hv) w (hs.mem hw)

theorem Policy.kept_sublist (policy : Policy) (vs : List Violation) : (policy.kept vs).Sublist vs := by
  cases policy with
  | collect => exact List.Sublist.refl vs
  | failFast => exact List.take_sublist 1 vs

private theorem pairwise_zipIdx {α : Type} (l : List α) : l.zipIdx.Pairwise (·.2 < ·.2) := by
  rw [List.pairwise_iff_getElem]
  intro i j hi hj hij
  simpa using hij

/-! ### The faults of a history -/

namespace History

variable {h : History} {p : Nat} {r : Record}

theorem mem_faults_iff (hne : h ≠ []) {v : Violation} :
    v ∈ h.faults ↔ ∃ p r, h[p]? = some r ∧ v ∈ h.faultsAt p r := by
  simp only [faults, hne, ↓reduceIte, List.mem_flatMap, Prod.exists, List.mem_zipIdx_iff_getElem?]
  exact exists_comm

private theorem mem_faultsAt_iff {v : Violation} :
    v ∈ h.faultsAt p r ↔ ∃ b, (b ∈ h.repetition p r ∨ b ∈ h.parentage p r) ∧ v = ⟨some p, b⟩ := by
  simp only [faultsAt, Violation.atPosition, List.mem_map, List.mem_append, eq_comm]

private theorem describes_repetition (hr : h[p]? = some r) {b : Breach} (hb : b ∈ h.repetition p r) :
    b.Describes h p r := by
  obtain ⟨hp, -⟩ := List.getElem?_eq_some_iff.1 hr
  unfold repetition at hb
  by_cases hlt : h.findIdx (·.id == r.id) < p
  · rw [if_pos hlt, List.mem_singleton] at hb
    subst hb
    have hfirst : h.findIdx (·.id == r.id) < h.length := Nat.lt_trans hlt hp
    refine ⟨rfl, hlt, ⟨h[h.findIdx (·.id == r.id)], List.getElem?_eq_getElem hfirst, ?_⟩, ?_⟩
    · simpa using List.findIdx_getElem (w := hfirst)
    · intro i s hi hs
      obtain ⟨-, rfl⟩ := List.getElem?_eq_some_iff.1 hs
      simpa using List.not_of_lt_findIdx hi
  · rw [if_neg hlt] at hb
    cases hb

private theorem describes_parentage {b : Breach} (hb : b ∈ h.parentage p r) : b.Describes h p r := by
  unfold parentage at hb
  cases hparent : r.parent with
  | none =>
    by_cases h0 : p = 0
    · simp [hparent, h0] at hb
    · cases hf : (h.take p).find? Record.isRoot with
      | none =>
        obtain rfl : b = .misplacedRoot r.id := by simpa [hparent, h0, hf] using hb
        exact ⟨rfl, hparent⟩
      | some root =>
        obtain rfl : b = .multipleRoots r.id root.id := by simpa [hparent, h0, hf] using hb
        obtain ⟨i, hi, hroot⟩ := List.mem_take_iff_getElem.1 (List.mem_of_find?_eq_some hf)
        refine ⟨rfl, hparent, i, root, by omega, List.getElem?_eq_some_iff.2 ⟨by omega, hroot⟩, rfl, ?_⟩
        simpa [Record.isRoot] using List.find?_some hf
  | some parent =>
    by_cases hself : parent = r.id
    · have hdescribes : Breach.Describes (.selfReference r.id) h p r := ⟨rfl, hself ▸ hparent⟩
      by_cases h0 : p = 0
      · have hb : b = .rootHasParent r.id parent ∨ b = .selfReference r.id := by
          simpa [hparent, h0, hself] using hb
        rcases hb with rfl | rfl
        · exact ⟨rfl, hparent⟩
        · exact hdescribes
      · obtain rfl : b = .selfReference r.id := by simpa [hparent, h0, hself] using hb
        exact hdescribes
    · by_cases h0 : p = 0
      · obtain rfl : b = .rootHasParent r.id parent := by simpa [hparent, h0, hself] using hb
        exact ⟨rfl, hparent⟩
      · simp only [hparent, h0, hself, ↓reduceIte] at hb
        split at hb
        · cases hb
        · obtain rfl := List.mem_singleton.1 hb
          exact ⟨rfl, hparent⟩

theorem exists_position_of_mem_faults (hne : h ≠ []) {v : Violation} (hv : v ∈ h.faults) :
    ∃ p < h.length, v.position = some p := by
  obtain ⟨p, r, hr, hmem⟩ := (mem_faults_iff hne).1 hv
  obtain ⟨hp, -⟩ := List.getElem?_eq_some_iff.1 hr
  obtain ⟨b, -, rfl⟩ := mem_faultsAt_iff.1 hmem
  exact ⟨p, hp, rfl⟩

/-- A violation of a history that is not empty is committed by the record at its position. -/
theorem describes_of_mem_faults (hne : h ≠ []) {b : Breach} (hb : ⟨some p, b⟩ ∈ h.faults) :
    ∃ r, h[p]? = some r ∧ b.Describes h p r := by
  obtain ⟨p', r, hr, hmem⟩ := (mem_faults_iff hne).1 hb
  obtain ⟨b', hb', heq⟩ := mem_faultsAt_iff.1 hmem
  cases heq
  refine ⟨r, hr, ?_⟩
  rcases hb' with hb' | hb'
  · exact describes_repetition hr hb'
  · exact describes_parentage hb'

theorem not_malformed_of_mem_faults {reason : String} {position : Option Nat} :
    ⟨position, .malformedRecord reason⟩ ∉ h.faults := by
  intro hv
  by_cases hne : h = []
  · simp [faults, hne] at hv
  · cases position with
    | none =>
      obtain ⟨p, -, hp⟩ := exists_position_of_mem_faults hne hv
      cases hp
    | some p =>
      obtain ⟨r, -, hdescribes⟩ := describes_of_mem_faults hne hv
      exact hdescribes

theorem ordered_faults (h : History) : (h.faults.filterMap Violation.position).Pairwise (· ≤ ·) := by
  by_cases hne : h = []
  · simp [faults, hne]
  · rw [faults, if_neg hne, List.pairwise_filterMap, List.pairwise_flatMap]
    have hle : ∀ entry entry' : Record × Nat, entry.2 ≤ entry'.2 → ∀ v ∈ h.faultsAt entry.2 entry.1,
        ∀ w ∈ h.faultsAt entry'.2 entry'.1, ∀ m ∈ v.position, ∀ n ∈ w.position, m ≤ n := by
      intro entry entry' hle v hv w hw m hm n hn
      obtain ⟨b, -, rfl⟩ := mem_faultsAt_iff.1 hv
      obtain ⟨c, -, rfl⟩ := mem_faultsAt_iff.1 hw
      obtain rfl := Option.some.inj hm
      obtain rfl := Option.some.inj hn
      exact hle
    constructor
    · intro entry _
      rw [List.pairwise_iff_getElem]
      intro i j hi hj _
      exact hle entry entry (Nat.le_refl _) _ (List.getElem_mem hi) _ (List.getElem_mem hj)
    · exact (pairwise_zipIdx h).imp fun hlt => hle _ _ (Nat.le_of_lt hlt)

theorem located_faults {entries : List Json.Value} {rs : History}
    (hrs : entries.map Record.ofEntry = rs.map .ok) : Located entries rs.faults := by
  have hlen : entries.length = rs.length := by simpa using congrArg List.length hrs
  have hsound : ∀ v ∈ rs.faults, ∀ reason, v.breach ≠ .malformedRecord reason := by
    rintro ⟨position, b⟩ hv reason rfl
    exact not_malformed_of_mem_faults hv
  by_cases hne : rs = []
  · subst hne
    obtain rfl : entries = [] := List.length_eq_zero_iff.1 hlen
    have hf : faults [] = [⟨none, .emptyHistory⟩] := rfl
    rw [hf] at hsound ⊢
    refine ⟨by simp, fun b hb => ?_, by simp, by simp, by simp,
      fun v hv w _ reason hreason => absurd hreason (hsound v hv reason)⟩
    simpa using hb
  · refine ⟨ordered_faults rs, fun b hb => ?_, fun p b hb => ?_, fun p reason hb => ?_, fun p b hb _ => ?_,
      fun v hv w _ reason hreason => absurd hreason (hsound v hv reason)⟩
    · obtain ⟨p, -, hp⟩ := exists_position_of_mem_faults hne hb
      cases hp
    · obtain ⟨p', hlt, hp⟩ := exists_position_of_mem_faults hne hb
      obtain rfl := Option.some.inj hp
      rw [hlen]
      exact hlt
    · exact absurd rfl (hsound _ hb reason)
    · obtain ⟨r, hr, hdescribes⟩ := describes_of_mem_faults hne hb
      exact ⟨rs, r, hrs, hr, hdescribes⟩

end History

/-! ### Malformed entries -/

namespace Decoded

theorem mem_malformed_iff {entries : List Json.Value} {v : Violation} :
    v ∈ (ofEntries entries).malformed ↔
      ∃ p e why, entries[p]? = some e ∧ Record.ofEntry e = .error why ∧
        v = ⟨some p, .malformedRecord why.reason⟩ := by
  simp only [ofEntries, List.mem_filterMap, Prod.exists, List.mem_zipIdx_iff_getElem?, List.getElem?_map,
    Option.map_eq_some_iff]
  constructor
  · rintro ⟨answer, p, ⟨e, he, rfl⟩, hv⟩
    cases hr : Record.ofEntry e with
    | ok r => simp [hr] at hv
    | error why =>
      simp only [hr, Option.some.injEq] at hv
      exact ⟨p, e, why, he, hr, hv.symm⟩
  · rintro ⟨p, e, why, he, hr, rfl⟩
    exact ⟨_, p, ⟨e, he, rfl⟩, by simp only [hr, Violation.atPosition]⟩

theorem ordered_malformed (entries : List Json.Value) :
    ((ofEntries entries).malformed.filterMap Violation.position).Pairwise (· ≤ ·) := by
  obtain ⟨sound, broken, h⟩ := exists_splits entries
  have hpositions : (ofEntries entries).malformed.filterMap Violation.position = broken := by
    calc (ofEntries entries).malformed.filterMap Violation.position
        = ((ofEntries entries).malformed.map Violation.position).filterMap id := by rw [List.filterMap_map]; rfl
      _ = (broken.map some).filterMap id := by rw [h.positions_malformed]
      _ = broken := by simp
  rw [hpositions]
  exact h.broken_ordered.imp Nat.le_of_lt

theorem located_malformed (entries : List Json.Value) : Located entries (ofEntries entries).malformed := by
  refine ⟨ordered_malformed entries, fun b hb => ?_, fun p b hb => ?_, fun p reason hb => ?_,
    fun p b hb hne => ?_, fun v _ w hw reason _ => ?_⟩
  · obtain ⟨p, e, why, -, -, heq⟩ := mem_malformed_iff.1 hb
    cases heq
  · obtain ⟨p, e, why, he, -, heq⟩ := mem_malformed_iff.1 hb
    cases heq
    exact (List.getElem?_eq_some_iff.1 he).1
  · obtain ⟨p, e, why, he, hr, heq⟩ := mem_malformed_iff.1 hb
    cases heq
    refine ⟨e, why, he, fun texts ht => ?_, hr, rfl⟩
    obtain ⟨r, hok, -⟩ := Entry.exists_ofEntry_of_spells ht
    rw [hr] at hok
    cases hok
  · obtain ⟨p, e, why, -, -, heq⟩ := mem_malformed_iff.1 hb
    cases heq
    exact absurd rfl (hne why.reason)
  · obtain ⟨p, e, why, -, -, rfl⟩ := mem_malformed_iff.1 hw
    exact ⟨why.reason, rfl⟩

theorem located_violations (entries : List Json.Value) : Located entries (ofEntries entries).violations := by
  unfold violations
  by_cases hm : (ofEntries entries).malformed = []
  · rw [if_pos hm]
    exact History.located_faults (ofEntries_eq_iff.1 ⟨hm, rfl⟩)
  · rw [if_neg hm]
    exact located_malformed entries

theorem locates_outcome (hash : Bytes → Digest) (policy : Policy) (content : Bytes) (entries : List Json.Value) :
    ((ofEntries entries).outcome hash policy content).report.Locates entries := by
  have hcount := recordCount_ofEntries entries
  refine ⟨?_, fun n hn => ?_, fun vs hvs => ?_, ?_⟩
  · simp only [outcome]
    rw [Report.violations_ofViolations]
    exact (located_violations entries).sublist (policy.kept_sublist _)
  · obtain ⟨hnil, hn⟩ := Report.ofViolations_eq_verified_iff.1 hn
    rw [hcount] at hn
    refine ⟨hn, ?_⟩
    cases entries with
    | nil =>
      rw [Policy.kept_eq_nil_iff] at hnil
      cases hnil
    | cons e entries => simp [hn]
  · simp only [outcome] at hvs
    rintro rfl
    cases hkept : policy.kept (ofEntries entries).violations with
    | nil =>
      rw [hkept] at hvs
      cases hvs
    | cons w ws =>
      rw [hkept] at hvs
      cases hvs
  · rintro rfl
    cases policy <;> rfl

end Decoded

/-- An audit of an array with a clear flag counts its entries and reports what points at them. -/
theorem auditHistory_locates (t : FileTree) (hash : Bytes → Digest) {v : Verifier} (hv : v.flag ≠ some true)
    {path : String} {content : Bytes} (hc : t.read path = .ok content) {value : Json.Value}
    (hread : Json.Value.read content = .ok value) {entries : List Json.Value}
    (hitems : value.items? = some entries) :
    ∃ o, t.auditHistory hash v path = .ok o ∧ o.recordCount = entries.length ∧ o.report.Locates entries := by
  have hdecode : History.decode content = .ok (.ofEntries entries) :=
    (History.decodeWith_eq_ok_iff (by simp [Verifier.of])).2 ⟨value, entries, hread, hitems, rfl⟩
  have haudit : History.audit hash v content = .ok ((Decoded.ofEntries entries).outcome hash v.policy content) := by
    rw [History.audit_eq hv, hdecode]
    rfl
  refine ⟨_, FileTree.auditHistory_eq_ok_iff.2 ⟨content, hc, haudit⟩, Decoded.recordCount_ofEntries entries, ?_⟩
  exact Decoded.locates_outcome hash v.policy content entries

/-- A record that breaks two rules at once is pointed at twice. -/
theorem auditHistory_locates_repetition :
    (⟨.collect, none⟩ : Verifier).flag ≠ some true ∧ repeatedTree.read "dag.json" = .ok repeatedEntry ∧
      ∃ value entries, Json.Value.read repeatedEntry = .ok value ∧ value.items? = some entries ∧
        ∃ o, repeatedTree.auditHistory Digest.ofContent ⟨.collect, none⟩ "dag.json" = .ok o ∧
          o.recordCount = entries.length ∧ o.report.Locates entries := by
  have hv : (⟨.collect, none⟩ : Verifier).flag ≠ some true := by decide
  have hc : repeatedTree.read "dag.json" = .ok repeatedEntry := by decide +kernel
  have hjson : Json.read repeatedEntry = .ok (.array
      [.object [("id", .string "a"), ("parent", .string "")],
        .object [("id", .string "a"), ("parent", .string "a")]]) := by rfl
  have hread : Json.Value.read repeatedEntry = .ok (.ofJson (.array
      [.object [("id", .string "a"), ("parent", .string "")],
        .object [("id", .string "a"), ("parent", .string "a")]])) := by
    rw [Json.Value.read, hjson]
    rfl
  exact ⟨hv, hc, _, [_, _], hread, rfl, auditHistory_locates repeatedTree Digest.ofContent hv hc hread rfl⟩

end Lineage
