import Lineage.Proofs.Violations
import Mathlib.Data.List.Basic
import Mathlib.Data.Set.Function

/-!
# Renaming ids

Ids are compared for equality and for nothing else.  So when the ids of a history are given new names, and different
ones to different ids, every record breaks what it broke before, under its new name (`History.faults_rename`).
-/

namespace Lineage

def Record.rename (f : String → String) (r : Record) : Record :=
  { r with id := f r.id, parent := r.parent.map f }

/-- The same breach, of the records under their new names. -/
def Breach.rename (f : String → String) : Breach → Breach
  | .rootHasParent id parent => .rootHasParent (f id) (f parent)
  | .missingParent parent id => .missingParent (f parent) (f id)
  | .selfReference id => .selfReference (f id)
  | .duplicateId id firstSeen => .duplicateId (f id) firstSeen
  | .multipleRoots id root => .multipleRoots (f id) (f root)
  | .misplacedRoot id => .misplacedRoot (f id)
  | .emptyHistory => .emptyHistory
  | .malformedRecord reason => .malformedRecord reason

def Violation.rename (f : String → String) (v : Violation) : Violation :=
  { v with breach := v.breach.rename f }

def Report.rename (f : String → String) : Report → Report
  | .verified n => .verified n
  | .failed vs => .failed (vs.map (Violation.rename f))

theorem Report.rename_ofViolations (f : String → String) (n : Nat) (vs : List Violation) :
    (ofViolations n vs).rename f = ofViolations n (vs.map (Violation.rename f)) := by
  cases vs <;> rfl

theorem Policy.kept_map (policy : Policy) (g : Violation → Violation) (vs : List Violation) :
    policy.kept (vs.map g) = (policy.kept vs).map g := by
  cases policy with
  | collect => rfl
  | failFast => exact List.map_take.symm

namespace History

def rename (f : String → String) (h : History) : History :=
  h.map (Record.rename f)

/-- The ids and the parents that occur in a history. -/
def names (h : History) : List String :=
  h.flatMap fun r => r.id :: r.parent.toList

variable {h : History} {r : Record}

theorem id_mem_names (hr : r ∈ h) : r.id ∈ h.names :=
  List.mem_flatMap.2 ⟨r, hr, List.mem_cons_self⟩

theorem parent_mem_names (hr : r ∈ h) {parent : String} (hp : r.parent = some parent) : parent ∈ h.names :=
  List.mem_flatMap.2 ⟨r, hr, List.mem_cons_of_mem _ (by simp [hp])⟩

/-! ### What a renamed record breaks -/

section

variable {f : String → String}

private theorem findIdx_congr {α : Type} {p q : α → Bool} {l : List α} (hpq : ∀ a ∈ l, p a = q a) :
    l.findIdx p = l.findIdx q := by
  induction l with
  | nil => rfl
  | cons a l ih =>
    rw [List.findIdx_cons, List.findIdx_cons, hpq a List.mem_cons_self,
      ih fun b hb => hpq b (List.mem_cons_of_mem a hb)]

theorem find?_isRoot_rename (position : Nat) :
    ((h.rename f).take position).find? Record.isRoot =
      ((h.take position).find? Record.isRoot).map (Record.rename f) := by
  have hroot : Record.isRoot ∘ Record.rename f = Record.isRoot := by
    funext r
    cases hparent : r.parent <;> simp [Record.isRoot, Record.rename, hparent]
  rw [rename, ← List.map_take, List.find?_map, hroot]

variable (hf : Set.InjOn f {name | name ∈ h.names})

include hf

theorem rename_beq {a b : String} (ha : a ∈ h.names) (hb : b ∈ h.names) : (f a == f b) = (a == b) := by
  rw [Bool.eq_iff_iff, beq_iff_eq, beq_iff_eq, hf.eq_iff ha hb]

theorem findIdx_rename {name : String} (hname : name ∈ h.names) :
    (h.rename f).findIdx (·.id == f name) = h.findIdx (·.id == name) := by
  rw [rename, List.findIdx_map]
  exact findIdx_congr fun s hs => rename_beq hf (id_mem_names hs) hname

theorem any_take_rename {name : String} (hname : name ∈ h.names) (position : Nat) :
    ((h.rename f).take position).any (·.id == f name) = (h.take position).any (·.id == name) := by
  rw [rename, ← List.map_take, List.any_map, Bool.eq_iff_iff, List.any_eq_true, List.any_eq_true]
  refine exists_congr fun s => and_congr_right fun hs => ?_
  show (f s.id == f name) = true ↔ (s.id == name) = true
  rw [rename_beq hf (id_mem_names (List.mem_of_mem_take hs)) hname]

theorem repetition_rename (hr : r ∈ h) (position : Nat) :
    (h.rename f).repetition position (r.rename f) = (h.repetition position r).map (Breach.rename f) := by
  have hfirst : (h.rename f).findIdx (·.id == (r.rename f).id) = h.findIdx (·.id == r.id) :=
    findIdx_rename hf (id_mem_names hr)
  rw [repetition, repetition, hfirst]
  by_cases hlt : h.findIdx (·.id == r.id) < position
  · simp only [if_pos hlt]
    rfl
  · simp only [if_neg hlt]
    rfl

theorem parentage_rename (hr : r ∈ h) (position : Nat) :
    (h.rename f).parentage position (r.rename f) = (h.parentage position r).map (Breach.rename f) := by
  unfold parentage
  rw [find?_isRoot_rename]
  cases hparent : r.parent with
  | none =>
    have hparent' : (r.rename f).parent = none := by simp [Record.rename, hparent]
    simp only [hparent']
    by_cases h0 : position = 0
    · simp only [if_pos h0]
      rfl
    · simp only [if_neg h0]
      cases (h.take position).find? Record.isRoot <;> rfl
  | some parent =>
    have hparent' : (r.rename f).parent = some (f parent) := by simp [Record.rename, hparent]
    have hname := parent_mem_names hr hparent
    have hself : f parent = (r.rename f).id ↔ parent = r.id := hf.eq_iff hname (id_mem_names hr)
    simp only [hparent', hself, any_take_rename hf hname]
    split_ifs <;> rfl

theorem faultsAt_rename (hr : r ∈ h) (position : Nat) :
    (h.rename f).faultsAt position (r.rename f) = (h.faultsAt position r).map (Violation.rename f) := by
  rw [faultsAt, faultsAt, repetition_rename hf hr, parentage_rename hf hr, ← List.map_append, List.map_map,
    List.map_map]
  rfl

theorem faults_rename : (h.rename f).faults = h.faults.map (Violation.rename f) := by
  by_cases hne : h = []
  · subst hne
    rfl
  · have hne' : h.rename f ≠ [] := by simpa [rename] using hne
    rw [faults, faults, if_neg hne, if_neg hne', List.map_flatMap, rename, List.zipIdx_map, List.flatMap_map]
    apply List.flatMap_congr
    rintro ⟨r, position⟩ hmem
    exact faultsAt_rename hf (List.mem_of_getElem? (List.mem_zipIdx_iff_getElem?.1 hmem)) position

end

end History

/-- The report on a history whose ids are renamed, without giving two of them the same name, is the report on the
history with the same ids renamed: the verdict, the count, the kinds of the violations, their positions and their
order stay. -/
theorem verifyWith_rename (policy : Policy) {h : History} {f : String → String}
    (hf : Set.InjOn f {name | name ∈ h.names}) :
    verifyWith policy (h.rename f) = (verifyWith policy h).rename f := by
  have hlength : (h.rename f).length = h.length := List.length_map _
  rw [verifyWith_eq, verifyWith_eq, Report.rename_ofViolations, History.faults_rename hf, Policy.kept_map, hlength]

/-- A root whose id is empty, a repeated id with a parent that is recorded later, and a record that names itself. -/
def crossed : History :=
  [.root "", .child "a" "", .child "a" "b", .child "b" "b"]

/-- Gives the empty id and `b` each other's name, and one name to all others. -/
def crossing (id : String) : String :=
  if id = "" then "b" else if id = "b" then "" else "x"

theorem verifyWith_rename_crossed :
    Set.InjOn crossing {name | name ∈ crossed.names} ∧
      verifyWith .collect (crossed.rename crossing) =
        .failed [⟨some 2, .duplicateId "x" 1⟩, ⟨some 2, .missingParent "" "x"⟩, ⟨some 3, .selfReference ""⟩] := by
  have hnames : ∀ a ∈ crossed.names, ∀ b ∈ crossed.names, crossing a = crossing b → a = b := by decide
  have hf : Set.InjOn crossing {name | name ∈ crossed.names} := fun a ha b hb => hnames a ha b hb
  refine ⟨hf, ?_⟩
  rw [verifyWith_rename .collect hf]
  decide

end Lineage
