import Lineage.Proofs.Order
import Mathlib.Data.List.NodupEquivFin

/-!
# Deleting a record

The records that are left when one is deleted keep their order, so all that can be missing from them is a parent:
a deletion shows exactly when a record depended on the one that is gone (`History.sound_eraseIdx_iff`).
-/

namespace Lineage

namespace History

variable {h k : History} {i : Nat} {r : Record}

theorem ParentsFirst.sublist (hp : h.ParentsFirst) (hsub : k.Sublist h) : k.ParentsFirst := by
  obtain ⟨f, hf⟩ := List.sublist_iff_exists_orderEmbedding_getElem?_eq.1 hsub
  rintro i j ⟨r, s, hr, hs, hparent⟩
  rw [hf] at hr hs
  exact f.lt_iff_lt.1 (hp (f i) (f j) ⟨r, s, hr, hs, hparent⟩)

/-- All other records have other ids, so none of them can stand in for the one that is deleted. -/
theorem mem_eraseIdx_iff (hd : (h.map Record.id).Nodup) (hr : h[i]? = some r) {s : Record} (hs : s ∈ h) :
    s ∈ h.eraseIdx i ↔ s.id ≠ r.id := by
  rw [List.mem_eraseIdx_iff_getElem?]
  constructor
  · rintro ⟨j, hne, hj⟩ hid
    exact hne (eq_of_id_eq hd hj hr hid)
  · intro hid
    obtain ⟨j, hj⟩ := List.mem_iff_getElem?.1 hs
    refine ⟨j, ?_, hj⟩
    rintro rfl
    exact hid (congrArg Record.id (Option.some.inj (hj.symm.trans hr)))

theorem Complete.eraseIdx (hc : h.Complete) (h2 : 2 ≤ h.length) (hr : h[i]? = some r)
    (hfree : ∀ s ∈ h, s.parent ≠ some r.id) : Complete (h.eraseIdx i) := by
  have hsub : (h.eraseIdx i).Sublist h := List.eraseIdx_sublist h i
  obtain ⟨hi, -⟩ := List.getElem?_eq_some_iff.1 hr
  refine ⟨?_, (hsub.map Record.id).nodup hc.distinct, fun s hs parent hparent => ?_,
    fun s hs t ht => hc.root s (hsub.mem hs) t (hsub.mem ht)⟩
  · rw [← List.length_pos_iff, List.length_eraseIdx_of_lt hi]
    omega
  · obtain ⟨t, ht, rfl⟩ := hc.named s (hsub.mem hs) parent hparent
    refine ⟨t, (mem_eraseIdx_iff hc.distinct hr ht).2 fun hid => ?_, rfl⟩
    exact hfree s (hsub.mem hs) (hid ▸ hparent)

theorem sound_eraseIdx_iff (hs : h.Sound) (h2 : 2 ≤ h.length) (hr : h[i]? = some r) :
    Sound (h.eraseIdx i) ↔ ∀ s ∈ h, s.parent ≠ some r.id := by
  have hsub : (h.eraseIdx i).Sublist h := List.eraseIdx_sublist h i
  constructor
  · intro hleft s hmem hparent
    obtain ⟨j, hj⟩ := List.mem_iff_getElem?.1 hmem
    have hlt := hs.isParent_lt ⟨s, r, hj, hr, hparent⟩
    have hkept : s ∈ h.eraseIdx i := by
      refine (mem_eraseIdx_iff hs.distinct hr hmem).2 fun hid => ?_
      have := eq_of_id_eq hs.distinct hj hr hid
      omega
    -- the child is left, and it names an id that no record that is left has
    obtain ⟨t, ht, hid⟩ := hleft.complete.named s hkept r.id hparent
    exact (mem_eraseIdx_iff hs.distinct hr (hsub.mem ht)).1 ht hid
  · intro hfree
    obtain ⟨hc, hp⟩ := sound_iff.1 hs
    exact sound_iff.2 ⟨hc.eraseIdx h2 hr hfree, hp.sublist hsub⟩

/-- The second record always depends on the first. -/
theorem Sound.parent_second (hs : h.Sound) {s : Record} (hr : h[0]? = some r) (hs1 : h[1]? = some s) :
    s.parent = some r.id := by
  obtain ⟨j, t, hj, ht, hparent⟩ := hs.later 1 s Nat.one_pos hs1
  obtain rfl : j = 0 := by omega
  rwa [Option.some.inj (hr.symm.trans ht)]

end History

/-- A record can be deleted from a verified history of two records or more without being missed exactly when it is
the parent of none, and then the history counts one record less.  The first record is always missed. -/
theorem verified_eraseIdx {policy : Policy} {h : History} {n : Nat} (hv : verifyWith policy h = .verified n)
    (h2 : 2 ≤ h.length) :
    (∀ i r, h[i]? = some r → ∀ policy' m, verifyWith policy' (h.eraseIdx i) = .verified m ↔
        m + 1 = n ∧ ∀ s ∈ h, s.parent ≠ some r.id) ∧
      ∀ policy', (verifyWith policy' (h.eraseIdx 0)).isVerified = false := by
  obtain ⟨hs, rfl⟩ := verifyWith_eq_verified_iff.1 hv
  refine ⟨fun i r hr policy' m => ?_, fun policy' => ?_⟩
  · obtain ⟨hi, -⟩ := List.getElem?_eq_some_iff.1 hr
    rw [verifyWith_eq_verified_iff, History.sound_eraseIdx_iff hs h2 hr, List.length_eraseIdx_of_lt hi, and_comm]
    have hcount : m = h.length - 1 ↔ m + 1 = h.length := by omega
    rw [hcount]
  · have h0 : h[0]? = some h[0] := List.getElem?_eq_getElem _
    have h1 : h[1]? = some h[1] := List.getElem?_eq_getElem _
    rw [Bool.eq_false_iff, ne_eq, isVerified_verifyWith_iff, History.sound_eraseIdx_iff hs h2 h0]
    intro hfree
    exact hfree h[1] (List.getElem_mem _) (hs.parent_second h0 h1)

/-- Of two branches that part at the root, the end of one is not missed; its middle is, and so is the root. -/
theorem verified_eraseIdx_branches :
    verifyWith .failFast branches = .verified 4 ∧ 2 ≤ branches.length ∧
      verifyWith .collect [.root "a", .child "b" "a", .child "d" "a"] = .verified 3 ∧
      (∀ m, verifyWith .collect [.root "a", .child "c" "b", .child "d" "a"] ≠ .verified m) ∧
      (verifyWith .collect [.child "b" "a", .child "c" "b", .child "d" "a"]).isVerified = false := by
  have hv : verifyWith .failFast branches = .verified 4 := by decide
  have h2 : 2 ≤ branches.length := by decide
  have hchild : .child "c" "b" ∈ branches := List.mem_of_getElem? (rfl : branches[2]? = _)
  have hfree : ∀ s ∈ branches, s.parent ≠ some "c" := by decide
  obtain ⟨hleft, hfirst⟩ := verified_eraseIdx hv h2
  refine ⟨hv, h2, (hleft 2 _ rfl .collect 3).2 ⟨rfl, hfree⟩, fun m hm => ?_, hfirst .collect⟩
  obtain ⟨-, hnone⟩ := (hleft 1 _ rfl .collect m).1 hm
  exact hnone _ hchild rfl

end Lineage
