import Lineage.Proofs.Derivation
import Mathlib.Data.List.Basic

/-!
# Appending to a history

What a record breaks is read off the records before it, so nothing that is appended changes it: the violations of
a history stay, and those of the records that are appended come behind them (`History.faults_append`).
-/

namespace Lineage

namespace History

variable {h : History}

/-! ### Violations of a longer history -/

theorem repetition_append {position : Nat} {r : Record} (hr : h[position]? = some r) (k : History) :
    repetition (h ++ k) position r = h.repetition position r := by
  have hfirst : (h ++ k).findIdx (·.id == r.id) = h.findIdx (·.id == r.id) := by
    have hlt : h.findIdx (·.id == r.id) < h.length :=
      List.findIdx_lt_length_of_exists ⟨r, List.mem_of_getElem? hr, by simp⟩
    rw [List.findIdx_append, if_pos hlt]
  rw [repetition, repetition, hfirst]

theorem parentage_append {position : Nat} (hle : position ≤ h.length) (r : Record) (k : History) :
    parentage (h ++ k) position r = h.parentage position r := by
  rw [parentage, parentage, List.take_append_of_le_length hle]

theorem faultsAt_append {position : Nat} {r : Record} (hr : h[position]? = some r) (k : History) :
    faultsAt (h ++ k) position r = h.faultsAt position r := by
  obtain ⟨hlt, -⟩ := List.getElem?_eq_some_iff.1 hr
  rw [faultsAt, faultsAt, repetition_append hr, parentage_append (Nat.le_of_lt hlt)]

/-- What the records commit that are appended to a history. -/
def furtherFaults (h k : History) : List Violation :=
  (k.zipIdx h.length).flatMap fun entry => faultsAt (h ++ k) entry.2 entry.1

/-- The violations of a history stay when records are appended, and those of these records come behind them. -/
theorem faults_append (hne : h ≠ []) (k : History) : faults (h ++ k) = h.faults ++ h.furtherFaults k := by
  have hne' : h ++ k ≠ [] := List.append_ne_nil_of_left_ne_nil hne k
  have hold : (h.zipIdx.flatMap fun entry => faultsAt (h ++ k) entry.2 entry.1) =
      h.zipIdx.flatMap fun entry => h.faultsAt entry.2 entry.1 := by
    apply List.flatMap_congr
    rintro ⟨r, position⟩ hmem
    exact faultsAt_append (List.mem_zipIdx_iff_getElem?.1 hmem) k
  rw [faults, faults, if_neg hne, if_neg hne', List.zipIdx_append, List.flatMap_append, hold, Nat.zero_add]
  rfl

theorem position_of_mem_furtherFaults {k : History} {v : Violation} (hv : v ∈ h.furtherFaults k) :
    ∃ position, v.position = some position ∧ h.length ≤ position := by
  obtain ⟨⟨r, position⟩, hentry, hv⟩ := List.mem_flatMap.1 hv
  obtain ⟨b, -, rfl⟩ := List.mem_map.1 hv
  exact ⟨position, rfl, (List.mem_zipIdx hentry).1⟩

/-! ### Sound histories -/

theorem Sound.of_append {k : History} (hne : h ≠ []) (hs : Sound (h ++ k)) : h.Sound := by
  rw [← faults_eq_nil_iff, faults_append hne, List.append_eq_nil_iff] at hs
  exact faults_eq_nil_iff.1 hs.1

theorem furtherFaults_singleton_eq_nil_iff (hne : h ≠ []) {r : Record} :
    h.furtherFaults [r] = [] ↔ (∃ s ∈ h, r.parent = some s.id) ∧ ∀ s ∈ h, s.id ≠ r.id := by
  have hr : (h ++ [r])[h.length]? = some r := by simp
  have hfurther : h.furtherFaults [r] = faultsAt (h ++ [r]) h.length r := by simp [furtherFaults]
  have hids : r.id ∉ h.map Record.id ↔ ∀ s ∈ h, s.id ≠ r.id := by simp
  have hlength : h.length ≠ 0 := fun h0 => hne (List.length_eq_zero_iff.1 h0)
  rw [hfurther, faultsAt_eq_nil_iff, repetition_eq_nil_iff hr, parentage_eq_nil_iff, List.take_left, if_neg hlength,
    hids]
  constructor
  · rintro ⟨hfresh, parent, hparent, -, hmem⟩
    obtain ⟨s, hs, rfl⟩ := List.mem_map.1 hmem
    exact ⟨⟨s, hs, hparent⟩, hfresh⟩
  · rintro ⟨⟨s, hs, hparent⟩, hfresh⟩
    exact ⟨hfresh, s.id, hparent, hfresh s hs, List.mem_map_of_mem hs⟩

theorem sound_append_singleton_iff (hne : h ≠ []) {r : Record} :
    Sound (h ++ [r]) ↔ h.Sound ∧ (∃ s ∈ h, r.parent = some s.id) ∧ ∀ s ∈ h, s.id ≠ r.id := by
  rw [← faults_eq_nil_iff, faults_append hne, List.append_eq_nil_iff, faults_eq_nil_iff,
    furtherFaults_singleton_eq_nil_iff hne]

end History

/-! ### Reports -/

theorem violations_verifyWith (policy : Policy) (h : History) :
    (verifyWith policy h).violations = policy.kept h.faults := by
  rw [verifyWith_eq, Report.violations_ofViolations]

/-- A report that stops at the first violation is final: what is appended does not change it. -/
theorem verifyWith_failFast_append {h : History} (hne : h ≠ []) (hf : h.faults ≠ []) (k : History) :
    verifyWith .failFast (h ++ k) = verifyWith .failFast h := by
  obtain ⟨v, vs, hvs⟩ := List.exists_cons_of_ne_nil hf
  rw [verifyWith_eq, verifyWith_eq, History.faults_append hne, hvs]
  rfl

theorem isVerified_verifyWith_iff (policy : Policy) (h : History) :
    (verifyWith policy h).isVerified = true ↔ h.Sound := by
  cases hreport : verifyWith policy h with
  | verified n =>
    have hs := (verifyWith_eq_verified_iff.1 hreport).1
    simp [Report.isVerified, hs]
  | failed vs =>
    have hs : ¬h.Sound := fun hs => by
      have hverified : verifyWith policy h = .verified h.length := verifyWith_eq_verified_iff.2 ⟨hs, rfl⟩
      cases hreport.symm.trans hverified
    simp [Report.isVerified, hs]

/-- Appending cures no violation.  Those of a history come first among those of a longer one, and all others are at
later positions; so what begins a verified history is verified, and one more record keeps it verified exactly when
its parent is in it and its id is not.  Where the report stops at the first violation, it stays as it is. -/
theorem violations_append {h : History} (hne : h ≠ []) :
    (∀ k : History, ∃ further, (verify (h ++ k)).violations = (verify h).violations ++ further ∧
        ∀ v ∈ further, ∃ position, v.position = some position ∧ h.length ≤ position) ∧
      (∀ policy k, (verifyWith policy (h ++ k)).isVerified = true → (verifyWith policy h).isVerified = true) ∧
      (∀ policy r, (verifyWith policy (h ++ [r])).isVerified = true ↔
        (verifyWith policy h).isVerified = true ∧ (∃ s ∈ h, r.parent = some s.id) ∧ ∀ s ∈ h, s.id ≠ r.id) ∧
      ((verifyWith .failFast h).isVerified = false →
        ∀ k : History, verifyWith .failFast (h ++ k) = verifyWith .failFast h) := by
  refine ⟨fun k => ⟨h.furtherFaults k, ?_, fun v => History.position_of_mem_furtherFaults⟩, fun policy k hs => ?_,
    fun policy r => ?_, fun hfailed k => ?_⟩
  · rw [verify, verify, violations_verifyWith, violations_verifyWith]
    exact History.faults_append hne k
  · rw [isVerified_verifyWith_iff] at hs ⊢
    exact hs.of_append hne
  · rw [isVerified_verifyWith_iff, isVerified_verifyWith_iff]
    exact History.sound_append_singleton_iff hne
  · apply verifyWith_failFast_append hne
    rw [ne_eq, History.faults_eq_nil_iff, ← isVerified_verifyWith_iff .failFast, hfailed]
    exact Bool.false_ne_true

/-- A record whose parent is recorded too late. -/
def tooEarly : History :=
  [.root "a", .child "b" "c"]

/-- That the parent follows does not cure the violation. -/
theorem violations_append_tooEarly :
    tooEarly ≠ [] ∧
      (∃ further, (verify (tooEarly ++ [.child "c" "a"])).violations =
          (verify tooEarly).violations ++ further ∧
        ∀ v ∈ further, ∃ position, v.position = some position ∧ tooEarly.length ≤ position) ∧
      (verifyWith .failFast tooEarly).isVerified = false ∧
      verifyWith .failFast (tooEarly ++ [.child "c" "a"]) = verifyWith .failFast tooEarly := by
  have hne : tooEarly ≠ [] := List.cons_ne_nil _ _
  have hfailed : (verifyWith .failFast tooEarly).isVerified = false := by decide
  obtain ⟨hfurther, -, -, hfinal⟩ := violations_append hne
  exact ⟨hne, hfurther _, hfailed, hfinal hfailed _⟩

end Lineage
