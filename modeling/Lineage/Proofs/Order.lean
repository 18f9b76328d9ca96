import Lineage.Proofs.Appending
import Lineage.Proofs.Location

/-!
# The order of records

Of all that makes a history sound one thing alone is about the order of its records: that none stands before its
parent (`History.ParentsFirst`).  The rest is about the records in whatever order (`History.Complete`), and so it is
kept when they are rearranged.
-/

namespace Lineage

namespace History

/-- In whatever order: every parent that is named is the id of a record, no id is used twice, and no two records are
without a parent. -/
structure Complete (h : History) : Prop where
  nonempty : h ≠ []
  distinct : (h.map Record.id).Nodup
  named : ∀ r ∈ h, ∀ parent, r.parent = some parent → ∃ s ∈ h, s.id = parent
  root : ∀ r ∈ h, ∀ s ∈ h, r.parent = none → s.parent = none → r = s

/-- No record stands before its parent or is its own. -/
def ParentsFirst (h : History) : Prop :=
  ∀ i j, h.IsParent j i → j < i

variable {h k : History}

namespace Complete

theorem perm (hc : h.Complete) (hp : k.Perm h) : k.Complete where
  nonempty hnil := hc.nonempty (List.nil_perm.1 (hnil ▸ hp))
  distinct := (hp.map Record.id).nodup_iff.2 hc.distinct
  named r hr parent hparent := by
    obtain ⟨s, hs, hid⟩ := hc.named r (hp.mem_iff.1 hr) parent hparent
    exact ⟨s, hp.mem_iff.2 hs, hid⟩
  root r hr s hs := hc.root r (hp.mem_iff.1 hr) s (hp.mem_iff.1 hs)

theorem exists_isParent (hc : h.Complete) {i : Nat} {r : Record} (hr : h[i]? = some r) (hp : r.parent ≠ none) :
    ∃ j, h.IsParent j i := by
  obtain ⟨parent, hparent⟩ := Option.ne_none_iff_exists'.1 hp
  obtain ⟨s, hs, rfl⟩ := hc.named r (List.mem_of_getElem? hr) parent hparent
  obtain ⟨j, hj⟩ := List.mem_iff_getElem?.1 hs
  exact ⟨j, r, s, hr, hj, hparent⟩

end Complete

/-! ### Sound histories, taken apart -/

theorem Sound.complete (hs : h.Sound) : h.Complete where
  nonempty := hs.nonempty
  distinct := hs.distinct
  named r hr parent hparent := by
    obtain ⟨i, hi⟩ := List.mem_iff_getElem?.1 hr
    have h0 : i ≠ 0 := by
      rw [ne_eq, ← hs.parent_eq_none_iff hi, hparent]
      exact Option.some_ne_none parent
    obtain ⟨j, s, -, hj, hparent'⟩ := hs.later i r (Nat.pos_of_ne_zero h0) hi
    exact ⟨s, List.mem_of_getElem? hj, Option.some.inj (hparent'.symm.trans hparent)⟩
  root r hr s hs' hnone hnone' := by
    obtain ⟨i, hi⟩ := List.mem_iff_getElem?.1 hr
    obtain ⟨j, hj⟩ := List.mem_iff_getElem?.1 hs'
    rw [hs.parent_eq_none_iff hi] at hnone
    rw [hs.parent_eq_none_iff hj] at hnone'
    subst hnone hnone'
    exact Option.some.inj (hi.symm.trans hj)

theorem sound_iff : h.Sound ↔ h.Complete ∧ h.ParentsFirst := by
  constructor
  · intro hs
    exact ⟨hs.complete, fun i j => hs.isParent_lt⟩
  · rintro ⟨hc, hp⟩
    have hfirst : ∀ r, h[0]? = some r → r.parent = none := by
      intro r hr
      by_contra hne
      obtain ⟨j, hj⟩ := hc.exists_isParent hr hne
      exact Nat.not_lt_zero j (hp 0 j hj)
    refine ⟨hc.nonempty, hfirst, fun i r hi hr => ?_, hc.distinct⟩
    have hne : r.parent ≠ none := by
      intro hnone
      have h0 := List.getElem?_eq_getElem (List.length_pos_iff.2 hc.nonempty)
      have hroot := hc.root r (List.mem_of_getElem? hr) _ (List.mem_of_getElem? h0) hnone (hfirst _ h0)
      have := eq_of_id_eq hc.distinct hr h0 (congrArg Record.id hroot)
      omega
    obtain ⟨j, hj⟩ := hc.exists_isParent hr hne
    obtain ⟨s, hs, hparent⟩ := (isParent_iff hr).1 hj
    exact ⟨j, s, hp i j hj, hs, hparent⟩

/-- A record that does not stand behind its parent commits a violation. -/
theorem exists_mem_faults_of_isParent (hd : (h.map Record.id).Nodup) {i j : Nat} (hp : h.IsParent j i)
    (hle : i ≤ j) : ∃ v ∈ h.faults, v.position = some i := by
  obtain ⟨r, s, hr, hs, hparent⟩ := hp
  have hne : h.faultsAt i r ≠ [] := by
    intro hnil
    have hparentage := parentage_eq_nil_iff.1 (faultsAt_eq_nil_iff.1 hnil).2
    by_cases h0 : i = 0
    · rw [if_pos h0, hparent] at hparentage
      cases hparentage
    · rw [if_neg h0] at hparentage
      obtain ⟨parent, hparent', -, hmem⟩ := hparentage
      obtain ⟨j', t, hlt, ht, rfl⟩ := mem_ids_take.1 hmem
      have hsame := eq_of_id_eq hd hs ht (Option.some.inj (hparent.symm.trans hparent'))
      omega
  obtain ⟨v, hv⟩ := List.exists_mem_of_ne_nil _ hne
  obtain ⟨b, -, rfl⟩ := List.mem_map.1 hv
  exact ⟨_, (mem_faults_iff (List.ne_nil_of_mem (List.mem_of_getElem? hr))).2 ⟨i, r, hr, hv⟩, rfl⟩

end History

/-- A verified history that is rearranged is verified, and with the same count, exactly when every record that has a
parent stands behind the one record that is its parent; a record that does not is reported, be it at the first
position or at a later one. -/
theorem verified_perm {policy : Policy} {h k : History} {n : Nat} (hv : verifyWith policy h = .verified n)
    (hp : k.Perm h) :
    (∀ i r, k[i]? = some r → r.parent ≠ none → ∃! j, k.IsParent j i) ∧
      (∀ policy' m, verifyWith policy' k = .verified m ↔ m = n ∧ k.ParentsFirst) ∧
      ∀ i j, k.IsParent j i → i ≤ j →
        (∀ policy', (verifyWith policy' k).isVerified = false) ∧
          ∃ v ∈ (verify k).violations, v.position = some i := by
  obtain ⟨hs, rfl⟩ := verifyWith_eq_verified_iff.1 hv
  have hc := hs.complete.perm hp
  refine ⟨fun i r hr hne => ?_, fun policy' m => ?_, fun i j hj hle => ⟨fun policy' => ?_, ?_⟩⟩
  · obtain ⟨j, hj⟩ := hc.exists_isParent hr hne
    exact ⟨j, hj, fun j' hj' => History.isParent_unique hc.distinct hj' hj⟩
  · rw [verifyWith_eq_verified_iff, History.sound_iff, hp.length_eq, and_iff_right hc, and_comm]
  · rw [Bool.eq_false_iff, ne_eq, isVerified_verifyWith_iff, History.sound_iff]
    rintro ⟨-, hfirst⟩
    have hlt := hfirst i j hj
    omega
  · rw [verify, violations_verifyWith]
    exact History.exists_mem_faults_of_isParent hc.distinct hj hle

/-- Two branches that part at the root. -/
def branches : History :=
  [.root "a", .child "b" "a", .child "c" "b", .child "d" "a"]

/-- The second branch may come first; the end of the first branch may not, although its parent follows. -/
theorem verified_perm_branches :
    verifyWith .failFast branches = .verified 4 ∧
      List.Perm [.root "a", .child "d" "a", .child "b" "a", .child "c" "b"] branches ∧
      verifyWith .collect [.root "a", .child "d" "a", .child "b" "a", .child "c" "b"] = .verified 4 ∧
      List.Perm [.child "c" "b", .root "a", .child "b" "a", .child "d" "a"] branches ∧
      ∃ v ∈ (verify [.child "c" "b", .root "a", .child "b" "a", .child "d" "a"]).violations,
        v.position = some 0 := by
  have hv : verifyWith .failFast branches = .verified 4 := by decide
  have hlater : List.Perm [.root "a", .child "d" "a", .child "b" "a", .child "c" "b"] branches :=
    .cons _ (.trans (.swap _ _ _) (.cons _ (.swap _ _ _)))
  have hfirst : List.Perm [.child "c" "b", .root "a", .child "b" "a", .child "d" "a"] branches :=
    .trans (.swap _ _ _) (.cons _ (.swap _ _ _))
  obtain ⟨-, hverified, -⟩ := verified_perm hv hlater
  obtain ⟨-, -, hreported⟩ := verified_perm hv hfirst
  have hordered := ((hverified .failFast 4).1 (by decide)).2
  have hchild : History.IsParent [.child "c" "b", .root "a", .child "b" "a", .child "d" "a"] 2 0 :=
    ⟨_, _, rfl, rfl, rfl⟩
  exact ⟨hv, hlater, (hverified .collect 4).2 ⟨rfl, hordered⟩, hfirst, (hreported 0 2 hchild (by decide)).2⟩

end Lineage
