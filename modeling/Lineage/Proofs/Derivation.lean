import Lineage.Proofs.Violations
import Mathlib.Logic.ExistsUnique
import Mathlib.Logic.Relation

/-!
# Sound histories

A history is `Sound` when it could have been recorded by appending only.  The rule asks about each record and
the records before it, and yet what it describes is a tree over the whole history (`History.IsTree`): every
parent is one record, the way from record to parent leads strictly back, and it ends at the first record.
-/

namespace Lineage

namespace History

/-- The first record alone has no parent, every other names a record before it, and no id is used twice. -/
structure Sound (h : History) : Prop where
  nonempty : h ≠ []
  first : ∀ r, h[0]? = some r → r.parent = none
  later : ∀ i r, 0 < i → h[i]? = some r → ∃ j s, j < i ∧ h[j]? = some s ∧ r.parent = some s.id
  distinct : (h.map Record.id).Nodup

variable {h : History}

/-! ### Sound histories are those without faults -/

theorem mem_ids_take {i : Nat} {id : String} :
    id ∈ (h.take i).map Record.id ↔ ∃ j s, j < i ∧ h[j]? = some s ∧ s.id = id := by
  simp only [List.mem_map, List.mem_take_iff_getElem]
  constructor
  · rintro ⟨s, ⟨j, hj, rfl⟩, hs⟩
    exact ⟨j, _, by omega, List.getElem?_eq_getElem (by omega), hs⟩
  · rintro ⟨j, s, hj, hs, hid⟩
    obtain ⟨hlt, rfl⟩ := List.getElem?_eq_some_iff.1 hs
    exact ⟨h[j], ⟨j, by omega, rfl⟩, hid⟩

theorem repetition_eq_nil_iff {i : Nat} {r : Record} (hr : h[i]? = some r) :
    h.repetition i r = [] ↔ r.id ∉ (h.take i).map Record.id := by
  obtain ⟨hi, -⟩ := List.getElem?_eq_some_iff.1 hr
  unfold repetition
  constructor
  · intro hnil hmem
    obtain ⟨j, s, hj, hs, hid⟩ := mem_ids_take.1 hmem
    obtain ⟨hlt, rfl⟩ := List.getElem?_eq_some_iff.1 hs
    have hge : i ≤ h.findIdx (·.id == r.id) := by simpa using hnil
    have := List.not_of_lt_findIdx (Nat.lt_of_lt_of_le hj hge)
    simp [hid] at this
  · intro hmem
    have hge : i ≤ h.findIdx (·.id == r.id) := by
      apply List.le_findIdx_of_not hi
      intro j hj
      have hne : h[j].id ≠ r.id :=
        fun hid => hmem (mem_ids_take.2 ⟨j, h[j], hj, List.getElem?_eq_getElem (by omega), hid⟩)
      simpa using hne
    simpa using hge

theorem parentage_eq_nil_iff {i : Nat} {r : Record} :
    h.parentage i r = [] ↔
      if i = 0 then r.parent = none
      else ∃ parent, r.parent = some parent ∧ parent ≠ r.id ∧ parent ∈ (h.take i).map Record.id := by
  unfold parentage
  cases hr : r.parent with
  | none =>
    by_cases hi : i = 0
    · simp [hi]
    · simp only [hi, ↓reduceIte]
      cases (h.take i).find? Record.isRoot <;> simp
  | some parent =>
    by_cases hi : i = 0
    · simp [hi]
    · by_cases hself : parent = r.id
      · simp [hi, hself]
      · simp [hi, hself, -List.map_take]

private theorem distinct_iff :
    (h.map Record.id).Nodup ↔ ∀ i r, h[i]? = some r → r.id ∉ (h.take i).map Record.id := by
  rw [List.nodup_iff_pairwise_ne, List.pairwise_iff_getElem]
  constructor
  · intro hd i r hr hmem
    obtain ⟨j, s, hj, hs, hid⟩ := mem_ids_take.1 hmem
    obtain ⟨hi, rfl⟩ := List.getElem?_eq_some_iff.1 hr
    obtain ⟨hlt, rfl⟩ := List.getElem?_eq_some_iff.1 hs
    exact hd j i (by simpa using hlt) (by simpa using hi) hj (by simpa using hid)
  · intro hd i j hi hj hij hid
    rw [List.length_map] at hi hj
    rw [List.getElem_map, List.getElem_map] at hid
    exact hd j h[j] (List.getElem?_eq_getElem hj)
      (mem_ids_take.2 ⟨i, h[i], hij, List.getElem?_eq_getElem hi, hid⟩)

theorem faultsAt_eq_nil_iff {i : Nat} {r : Record} :
    h.faultsAt i r = [] ↔ h.repetition i r = [] ∧ h.parentage i r = [] := by
  simp [faultsAt]

theorem faults_eq_nil_iff : h.faults = [] ↔ h.Sound := by
  by_cases hne : h = []
  · constructor
    · intro hf
      simp [faults, hne] at hf
    · intro hs
      exact absurd hne hs.nonempty
  · have hall : h.faults = [] ↔ ∀ i r, h[i]? = some r → h.repetition i r = [] ∧ h.parentage i r = [] := by
      simp only [faults, hne, ↓reduceIte, List.flatMap_eq_nil_iff, List.mem_zipIdx_iff_getElem?,
        faultsAt_eq_nil_iff]
      exact ⟨fun hf i r hr => hf (r, i) hr, fun hf entry he => hf entry.2 entry.1 he⟩
    rw [hall]
    constructor
    · intro hf
      refine ⟨hne, fun r hr => ?_, fun i r hi hr => ?_, ?_⟩
      · simpa using parentage_eq_nil_iff.1 (hf 0 r hr).2
      · have hp := parentage_eq_nil_iff.1 (hf i r hr).2
        rw [if_neg (by omega)] at hp
        obtain ⟨parent, hparent, -, hmem⟩ := hp
        obtain ⟨j, s, hj, hs, rfl⟩ := mem_ids_take.1 hmem
        exact ⟨j, s, hj, hs, hparent⟩
      · exact distinct_iff.2 fun i r hr => (repetition_eq_nil_iff hr).1 (hf i r hr).1
    · intro hs i r hr
      have hd := distinct_iff.1 hs.distinct i r hr
      refine ⟨(repetition_eq_nil_iff hr).2 hd, parentage_eq_nil_iff.2 ?_⟩
      by_cases hi : i = 0
      · subst hi
        simpa using hs.first r hr
      · obtain ⟨j, s, hj, hsj, hparent⟩ := hs.later i r (by omega) hr
        have hmem := mem_ids_take.2 ⟨j, s, hj, hsj, rfl⟩
        rw [if_neg hi]
        exact ⟨s.id, hparent, fun hid => hd (hid ▸ hmem), hmem⟩

end History

theorem verifyWith_eq_verified_iff {policy : Policy} {h : History} {n : Nat} :
    verifyWith policy h = .verified n ↔ h.Sound ∧ n = h.length := by
  rw [verifyWith_eq, Report.ofViolations_eq_verified_iff, Policy.kept_eq_nil_iff, History.faults_eq_nil_iff]

/-! ### Sound histories are trees -/

namespace History

/-- The record at `j` has the id that the record at `i` names as its parent. -/
def IsParent (h : History) (j i : Nat) : Prop :=
  ∃ r s, h[i]? = some r ∧ h[j]? = some s ∧ r.parent = some s.id

/-- Going over from a record to a parent so many times leads from the first position to the last. -/
inductive Climb (h : History) : Nat → Nat → Nat → Prop where
  | stay (i : Nat) : Climb h i 0 i
  | up {i j k steps : Nat} (parent : h.IsParent j i) (rest : Climb h j steps k) : Climb h i (steps + 1) k

/-- The history is one tree with the first record as its root, and every way up in it can be followed to that
record. -/
structure IsTree (h : History) : Prop where
  nonempty : 0 < h.length
  rootless : ∀ i r, h[i]? = some r → (r.parent = none ↔ i = 0)
  parent : ∀ i r, h[i]? = some r → r.parent ≠ none → ∃! j, h.IsParent j i
  back : ∀ i j, h.IsParent j i → j < i
  climb : ∀ i j steps, i < h.length → h.Climb i steps j → ∃ more, steps + more ≤ i ∧ h.Climb j more 0
  acyclic : ∀ i, ¬ Relation.TransGen h.IsParent i i
  descent : ∀ i, i < h.length → Relation.ReflTransGen h.IsParent 0 i

variable {h : History}

theorem isParent_iff {i j : Nat} {r : Record} (hr : h[i]? = some r) :
    h.IsParent j i ↔ ∃ s, h[j]? = some s ∧ r.parent = some s.id := by
  constructor
  · rintro ⟨r', s, hr', hs, hparent⟩
    obtain rfl := Option.some.inj (hr.symm.trans hr')
    exact ⟨s, hs, hparent⟩
  · rintro ⟨s, hs, hparent⟩
    exact ⟨r, s, hr, hs, hparent⟩

theorem eq_of_id_eq (hd : (h.map Record.id).Nodup) {i j : Nat} {r s : Record} (hi : h[i]? = some r)
    (hj : h[j]? = some s) (hid : r.id = s.id) : i = j := by
  have hlt : i < (h.map Record.id).length := by
    obtain ⟨hi, -⟩ := List.getElem?_eq_some_iff.1 hi
    simpa using hi
  apply (List.getElem?_inj hlt hd).1
  rw [List.getElem?_map, List.getElem?_map, hi, hj, Option.map_some, Option.map_some, hid]

theorem isParent_unique (hd : (h.map Record.id).Nodup) {i j k : Nat} (hj : h.IsParent j i) (hk : h.IsParent k i) :
    j = k := by
  obtain ⟨r, s, hr, hsj, hparent⟩ := hj
  obtain ⟨t, ht, hparent'⟩ := (isParent_iff hr).1 hk
  apply eq_of_id_eq hd hsj ht
  exact Option.some.inj (hparent.symm.trans hparent')

namespace Sound

theorem parent_eq_none_iff (hs : h.Sound) {i : Nat} {r : Record} (hr : h[i]? = some r) :
    r.parent = none ↔ i = 0 := by
  constructor
  · intro hnone
    rcases Nat.eq_zero_or_pos i with rfl | hi
    · rfl
    · obtain ⟨j, s, -, -, hparent⟩ := hs.later i r hi hr
      rw [hnone] at hparent
      cases hparent
  · rintro rfl
    exact hs.first r hr

/-- A parent, wherever in the history it is looked for, stands before its child. -/
theorem isParent_lt (hs : h.Sound) {i j : Nat} (hp : h.IsParent j i) : j < i := by
  obtain ⟨r, s, hr, hsj, hparent⟩ := hp
  have hi : i ≠ 0 := by
    rw [ne_eq, ← hs.parent_eq_none_iff hr, hparent]
    exact Option.some_ne_none _
  -- the parent before the child is the only record of that id, so it is the one that was found
  obtain ⟨k, t, hk, ht, hparent'⟩ := hs.later i r (by omega) hr
  have hid : s.id = t.id := by
    rw [hparent] at hparent'
    exact Option.some.inj hparent'
  rw [eq_of_id_eq hs.distinct hsj ht hid]
  exact hk

theorem exists_isParent (hs : h.Sound) {i : Nat} {r : Record} (hr : h[i]? = some r) (hi : i ≠ 0) :
    ∃ j, h.IsParent j i := by
  obtain ⟨j, s, -, hsj, hparent⟩ := hs.later i r (by omega) hr
  exact ⟨j, r, s, hr, hsj, hparent⟩

/-- From every record the first one is reached, in no more steps than there are records before it. -/
theorem climb_root (hs : h.Sound) (i : Nat) (hi : i < h.length) : ∃ steps, steps ≤ i ∧ h.Climb i steps 0 := by
  induction i using Nat.strongRecOn with
  | ind i ih =>
    by_cases h0 : i = 0
    · subst h0
      exact ⟨0, Nat.le_refl 0, .stay 0⟩
    · obtain ⟨j, hj⟩ := hs.exists_isParent (List.getElem?_eq_getElem hi) h0
      have hlt := hs.isParent_lt hj
      obtain ⟨steps, hle, hc⟩ := ih j hlt (by omega)
      exact ⟨steps + 1, by omega, .up hj hc⟩

/-- Every step of a way up leads back by one position at least. -/
theorem climb_le (hs : h.Sound) {i j steps : Nat} (hc : h.Climb i steps j) : steps + j ≤ i := by
  induction hc with
  | stay i => omega
  | up hp _ ih =>
    have := hs.isParent_lt hp
    omega

theorem transGen_lt (hs : h.Sound) {i j : Nat} (ht : Relation.TransGen h.IsParent j i) : j < i := by
  induction ht with
  | single hp => exact hs.isParent_lt hp
  | tail _ hp ih => exact Nat.lt_trans ih (hs.isParent_lt hp)

end Sound

theorem Climb.reflTransGen {i j steps : Nat} (hc : h.Climb i steps j) :
    Relation.ReflTransGen h.IsParent j i := by
  induction hc with
  | stay i => exact .refl
  | up hp _ ih => exact ih.tail hp

end History

/-- A verified history is one tree rooted at its first record. -/
theorem isTree_of_verified {policy : Policy} {h : History} {n : Nat} (hv : verifyWith policy h = .verified n) :
    h.IsTree := by
  have hs := (verifyWith_eq_verified_iff.1 hv).1
  refine ⟨List.length_pos_iff.2 hs.nonempty, fun i r => hs.parent_eq_none_iff, fun i r hr hp => ?_,
    fun i j => hs.isParent_lt, fun i j steps hi hc => ?_, fun i ht => ?_, fun i hi => ?_⟩
  · rw [ne_eq, hs.parent_eq_none_iff hr] at hp
    obtain ⟨j, hj⟩ := hs.exists_isParent hr hp
    exact ⟨j, hj, fun k hk => History.isParent_unique hs.distinct hk hj⟩
  · have hle := hs.climb_le hc
    obtain ⟨more, hm, hc'⟩ := hs.climb_root j (by omega)
    exact ⟨more, by omega, hc'⟩
  · have := hs.transGen_lt ht
    omega
  · obtain ⟨steps, -, hc⟩ := hs.climb_root i hi
    exact hc.reflTransGen

/-- Two branches that part at the root. -/
theorem isTree_of_branches :
    verifyWith .failFast [.root "a", .child "b" "a", .child "c" "b", .child "d" "a"] = .verified 4 ∧
      History.IsTree [.root "a", .child "b" "a", .child "c" "b", .child "d" "a"] := by
  have hv : verifyWith .failFast [.root "a", .child "b" "a", .child "c" "b", .child "d" "a"] = .verified 4 := by
    decide
  exact ⟨hv, isTree_of_verified hv⟩

end Lineage
