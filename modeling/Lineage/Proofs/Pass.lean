import Lineage.Verification

/-!
# What a pass knows

A pass never sees the records behind it again; it only keeps where each id came first and who was the first
root.  `Pass.Knows` says that this is right for the records that were checked, and `Pass.Knows.check` that
checking one more record, sound or not, keeps it right.
-/

namespace Lineage

namespace History

/-- The position of the first record with an id. -/
def position? (h : History) (id : String) : Option Nat :=
  h.findIdx? (·.id == id)

/-- The id of the first record without a parent. -/
def root? (h : History) : Option String :=
  (h.find? Record.isRoot).map Record.id

theorem position?_append_singleton (h : History) (r : Record) (id : String) :
    position? (h ++ [r]) id = (h.position? id).or (if r.id = id then some h.length else none) := by
  unfold position?
  rw [List.findIdx?_append]
  by_cases hr : r.id = id
  · simp [hr]
  · simp [hr]

theorem root?_append_singleton (h : History) (r : Record) :
    root? (h ++ [r]) = h.root?.or (if r.isRoot then some r.id else none) := by
  unfold root?
  rw [List.find?_append]
  cases hf : h.find? Record.isRoot with
  | some s => simp
  | none =>
    by_cases hr : r.isRoot = true
    · simp [hr]
    · simp [hr]

end History

namespace Pass

/-- The pass has the first position of every id of the given records, and their first root. -/
structure Knows (p : Pass) (past : History) : Prop where
  seen : ∀ id, p.seen[id]? = past.position? id
  root : p.root = past.root?

theorem knows_empty : Knows empty [] where
  seen id := by simp [empty, History.position?]
  root := rfl

theorem Knows.contains {p : Pass} {past : History} (h : p.Knows past) (id : String) :
    p.seen.contains id = past.any (·.id == id) := by
  rw [Std.TreeMap.contains_eq_isSome_getElem?, h.seen, History.position?, List.findIdx?_isSome]

/-- The first record has nothing behind it, so it is taken for the root by the same rule as a later one. -/
theorem Knows.rootAfter_eq {p : Pass} {past : History} (h : p.Knows past) (r : Record) :
    p.rootAfter past.length r = p.root.or (if r.isRoot then some r.id else none) := by
  unfold rootAfter
  cases hr : r.parent with
  | some parent => simp [Record.isRoot, hr]
  | none =>
    have hroot : r.isRoot = true := by simp [Record.isRoot, hr]
    rw [if_pos hroot]
    by_cases h0 : past.length = 0
    · obtain rfl := List.length_eq_zero_iff.1 h0
      rw [if_pos h0, h.root]
      rfl
    · rw [if_neg h0]

/-- Checking a record, whatever it breaks, adds it to the records that are known. -/
theorem Knows.check {p : Pass} {past : History} (h : p.Knows past) (r : Record) :
    (p.check past.length r).Knows (past ++ [r]) where
  seen id := by
    rw [History.position?_append_singleton, ← h.seen id]
    show (p.seen.insertIfNew r.id past.length)[id]? = _
    rw [Std.TreeMap.getElem?_insertIfNew]
    simp only [Std.compare_eq_iff_eq]
    by_cases hr : r.id = id
    · subst hr
      by_cases hm : r.id ∈ p.seen
      · simp [hm]
      · simp [hm]
    · simp [hr]
  root := by
    rw [History.root?_append_singleton, ← h.root]
    exact h.rootAfter_eq r

end Pass

end Lineage
