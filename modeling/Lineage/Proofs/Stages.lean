import Lineage.Proofs.Pass
import Mathlib.Data.List.Induction

/-!
# A pass from record to record

`Pass.after h` is the pass behind the records of `h`, checked in order.  It is right about exactly these records
(`Pass.Tracks`), whatever they break, and the check of one more record only adds to it (`Pass.Grows`): at most two
violations, both of that record, while all that was known stays.
-/

namespace Lineage

/-! ### Positions of what a pass knows -/

namespace History

/-- The first record with a property, and its position. -/
def FirstWith (h : History) (has : Record → Prop) (position : Nat) (r : Record) : Prop :=
  h[position]? = some r ∧ has r ∧ ∀ i < position, ∀ s, h[i]? = some s → ¬has s

variable {h : History} {position : Nat} {id : String}

theorem firstWith_iff {has : Record → Prop} {q : Record → Bool} (hq : ∀ r, q r = true ↔ has r) {r : Record} :
    h.FirstWith has position r ↔
      q r = true ∧ ∃ hlt : position < h.length, h[position] = r ∧ ∀ i (hi : i < position), q h[i] = false := by
  unfold FirstWith
  rw [List.getElem?_eq_some_iff, hq]
  constructor
  · rintro ⟨⟨hlt, hr⟩, hhas, hearlier⟩
    refine ⟨hhas, hlt, hr, fun i hi => ?_⟩
    rw [← Bool.not_eq_true, hq]
    exact hearlier i hi _ (List.getElem?_eq_getElem (Nat.lt_trans hi hlt))
  · rintro ⟨hhas, hlt, hr, hearlier⟩
    refine ⟨⟨hlt, hr⟩, hhas, fun i hi s hs => ?_⟩
    obtain ⟨hi', rfl⟩ := List.getElem?_eq_some_iff.1 hs
    rw [← hq, Bool.not_eq_true]
    exact hearlier i hi

theorem position?_eq_some_iff : h.position? id = some position ↔ ∃ r, h.FirstWith (·.id = id) position r := by
  simp only [firstWith_iff (q := (·.id == id)) fun _ => beq_iff_eq]
  rw [position?, List.findIdx?_eq_some_iff_getElem]
  simp

theorem root?_eq_some_iff :
    h.root? = some id ↔ ∃ position r, h.FirstWith (·.parent = none) position r ∧ r.id = id := by
  simp only [firstWith_iff (q := Record.isRoot) fun _ => Option.isNone_iff_eq_none]
  rw [root?, Option.map_eq_some_iff]
  simp [List.find?_eq_some_iff_getElem]

end History

namespace Pass

/-- The ids that were seen are those of the records, each with the first position at which it occurs, and the root is
the id of the first record without a parent. -/
structure Tracks (p : Pass) (past : History) : Prop where
  ids : ∀ id, id ∈ p.seen ↔ ∃ r ∈ past, r.id = id
  first : ∀ (id : String) position, p.seen[id]? = some position ↔ ∃ r, past.FirstWith (·.id = id) position r
  root : ∀ id, p.root = some id ↔ ∃ position r, past.FirstWith (·.parent = none) position r ∧ r.id = id
  rootless : p.root = none ↔ ∀ r ∈ past, r.parent ≠ none

variable {p : Pass} {past : History}

theorem Knows.tracks (h : p.Knows past) : p.Tracks past where
  ids id := by
    rw [← Std.TreeMap.contains_iff_mem, h.contains]
    simp
  first id position := by rw [h.seen, History.position?_eq_some_iff]
  root id := by rw [h.root, History.root?_eq_some_iff]
  rootless := by
    rw [h.root, History.root?, Option.map_eq_none_iff, List.find?_eq_none]
    simp [Record.isRoot]

/-! ### One check -/

/-- The second pass has at most two violations more, at this position, and everything that the first one has. -/
structure Grows (p : Pass) (position : Nat) (q : Pass) : Prop where
  violations : ∃ added : List Violation, q.violations.toList = p.violations.toList ++ added ∧
    added.length ≤ 2 ∧ ∀ v ∈ added, v.position = some position
  seen : ∀ (id : String) first, p.seen[id]? = some first → q.seen[id]? = some first
  root : ∀ id, p.root = some id → q.root = some id

theorem length_duplicates_le (p : Pass) (r : Record) : (p.duplicates r).length ≤ 1 := by
  unfold duplicates
  split
  · exact Nat.le_refl 1
  · exact Nat.zero_le 1

theorem length_firstParentage_le (r : Record) : (firstParentage r).length ≤ 2 := by
  unfold firstParentage
  split
  · exact Nat.zero_le 2
  · split_ifs
    · exact Nat.le_refl 2
    · exact Nat.le_succ 1

theorem length_laterParentage_le (p : Pass) (r : Record) : (p.laterParentage r).length ≤ 1 := by
  unfold laterParentage
  split
  · exact Nat.le_refl 1
  · exact Nat.le_refl 1
  · split_ifs <;> simp

/-- Only the first record can break two rules by its parent, and it cannot repeat an id. -/
theorem Knows.length_breaches_le (h : p.Knows past) (r : Record) : (p.breaches past.length r).length ≤ 2 := by
  rw [breaches, List.length_append]
  by_cases h0 : past.length = 0
  · -- nothing is behind the first record, so its id is new and the bound is that for its parent
    obtain rfl := List.length_eq_zero_iff.1 h0
    have hnone : p.duplicates r = [] := by
      rw [duplicates, h.seen]
      rfl
    rw [if_pos h0, hnone, List.length_nil, Nat.zero_add]
    exact length_firstParentage_le r
  · have hid := length_duplicates_le p r
    have hparent := length_laterParentage_le p r
    rw [if_neg h0]
    omega

theorem getElem?_insertIfNew_of_seen {id : String} {first : Nat} (hfirst : p.seen[id]? = some first) (name : String)
    (position : Nat) : (p.seen.insertIfNew name position)[id]? = some first := by
  rw [Std.TreeMap.getElem?_insertIfNew, if_neg, hfirst]
  -- an id that was seen is not new, whichever id is inserted
  rintro ⟨heq, hnew⟩
  rw [Std.compare_eq_iff_eq] at heq
  subst heq
  rw [Std.TreeMap.mem_iff_isSome_getElem?, hfirst] at hnew
  exact hnew rfl

theorem Knows.grows_check (h : p.Knows past) (r : Record) : p.Grows past.length (p.check past.length r) where
  violations := by
    refine ⟨(p.breaches past.length r).map (Violation.atPosition past.length), ?_, ?_, fun v hv => ?_⟩
    · simp [Pass.check]
    · rw [List.length_map]
      exact h.length_breaches_le r
    · obtain ⟨breach, -, rfl⟩ := List.mem_map.1 hv
      rfl
  seen _ _ hfirst := getElem?_insertIfNew_of_seen hfirst r.id past.length
  root id hroot := by
    show p.rootAfter past.length r = some id
    rw [h.rootAfter_eq, hroot, Option.some_or]

/-! ### A whole pass -/

/-- Goes on with a pass at a position, whatever the records break. -/
def checkAll (p : Pass) (position : Nat) (h : History) : Pass :=
  (h.zipIdx position).foldl (fun q entry => q.check entry.2 entry.1) p

/-- The pass behind some records that are checked one after the other. -/
def after (h : History) : Pass :=
  empty.checkAll 0 h

theorem after_append_singleton (h : History) (r : Record) : after (h ++ [r]) = (after h).check h.length r := by
  simp [after, checkAll, List.zipIdx_append]

/-- Nothing that a record breaks keeps the pass from taking it in. -/
theorem knows_after (h : History) : (after h).Knows h := by
  induction h using List.reverseRecOn with
  | nil => exact knows_empty
  | append_singleton h r ih =>
    rw [after_append_singleton]
    exact ih.check r

theorem after_take_succ {h : History} {k : Nat} {r : Record} (hr : h[k]? = some r) :
    after (h.take (k + 1)) = (after (h.take k)).check k r := by
  have hlt := (List.getElem?_eq_some_iff.1 hr).1
  rw [List.take_add_one, hr, Option.toList_some, after_append_singleton, List.length_take_of_le (Nat.le_of_lt hlt)]

theorem grows_after_take_succ {h : History} {k : Nat} {r : Record} (hr : h[k]? = some r) :
    (after (h.take k)).Grows k (after (h.take (k + 1))) := by
  have hlt := (List.getElem?_eq_some_iff.1 hr).1
  have hgrows := (knows_after (h.take k)).grows_check r
  rwa [List.length_take_of_le (Nat.le_of_lt hlt), ← after_take_succ hr] at hgrows

end Pass

/-- A scan that nothing ends is such a pass. -/
theorem scanFrom_collect_eq {ε : Type} {gate : Nat → Except ε Unit} (hg : ∀ i, gate i = .ok ()) (position : Nat)
    (p : Pass) (h : History) : scanFrom gate .collect position p h = .ok (p.checkAll position h) := by
  induction h generalizing position p with
  | nil => rfl
  | cons r rest ih =>
    rw [scanFrom, hg]
    exact ih (position + 1) (p.check position r)

/-- At every stage of a pass, its map has exactly the ids of the records so far, each with its first position, and
its root is the id of the first of them that has no parent.  The check of the next record leaves what was known and
reported as it is, and adds at most two violations, at the position of that record.  A scan that collects goes
through these stages to the last one. -/
theorem pass_stages (h : History) :
    Pass.after (h.take 0) = .empty ∧
      (∀ k ≤ h.length, (Pass.after (h.take k)).Tracks (h.take k)) ∧
      (∀ k r, h[k]? = some r → Pass.after (h.take (k + 1)) = (Pass.after (h.take k)).check k r ∧
        (Pass.after (h.take k)).Grows k (Pass.after (h.take (k + 1)))) ∧
      scanFrom (fun _ => (.ok () : Except Empty Unit)) .collect 0 .empty h = .ok (.after h) :=
  ⟨rfl, fun k _ => (Pass.knows_after (h.take k)).tracks,
    fun _ _ hr => ⟨Pass.after_take_succ hr, Pass.grows_after_take_succ hr⟩,
    scanFrom_collect_eq (fun _ => rfl) 0 .empty h⟩

/-- A first record that names itself, a root that comes too late, the first id again with a parent that is not there,
and another root. -/
def faultyStages : History :=
  [.child "a" "a", .root "b", .child "a" "z", .root "c"]

/-- Faulty records are taken in like others: the id that is repeated keeps its first position, and the first record
without a parent stays the root when another one comes. -/
theorem pass_stages_faulty :
    faultyStages[3]? = some (.root "c") ∧ (Pass.after (faultyStages.take 3)).seen["a"]? = some 0 ∧
      (Pass.after (faultyStages.take 3)).root = some "b" ∧ (Pass.after (faultyStages.take 4)).root = some "b" := by
  obtain ⟨-, htracks, hsteps, -⟩ := pass_stages faultyStages
  have hlast : faultyStages[3]? = some (.root "c") := rfl
  have hthree := htracks 3 (by decide)
  have hroot : (Pass.after (faultyStages.take 3)).root = some "b" := by
    refine (hthree.root "b").2 ⟨1, .root "b", ⟨rfl, rfl, fun i hi s hs => ?_⟩, rfl⟩
    obtain rfl := Nat.lt_one_iff.1 hi
    obtain rfl : Record.child "a" "a" = s := Option.some.inj hs
    exact Option.some_ne_none "a"
  refine ⟨hlast, (hthree.first "a" 0).2 ⟨.child "a" "a", rfl, rfl, ?_⟩, hroot, (hsteps 3 _ hlast).2.root _ hroot⟩
  exact fun i hi => absurd hi (Nat.not_lt_zero i)

end Lineage
