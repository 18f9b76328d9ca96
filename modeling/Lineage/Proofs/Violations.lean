import Lineage.Proofs.Pass

/-!
# The violations of a history

`History.faults` lists the violations of a history without any state: what the record at a position breaks is
read off the records before it.  The forward pass reports exactly this list, in this order (`scan_eq`), or its
first entry when it is to stop there.
-/

namespace Lineage

namespace History

/-- An id that an earlier record has, with the position of the first record that has it. -/
def repetition (h : History) (position : Nat) (r : Record) : List Breach :=
  let first := h.findIdx (·.id == r.id)
  if first < position then [.duplicateId r.id first] else []

/-- What the parent of the record at a position breaks, or that there is none. -/
def parentage (h : History) (position : Nat) (r : Record) : List Breach :=
  match r.parent with
  | none =>
    if position = 0 then []
    else
      match (h.take position).find? Record.isRoot with
      | some root => [.multipleRoots r.id root.id]
      | none => [.misplacedRoot r.id]
  | some parent =>
    if position = 0 then .rootHasParent r.id parent :: if parent = r.id then [.selfReference r.id] else []
    else if parent = r.id then [.selfReference r.id]
    else if (h.take position).any (·.id == parent) then []
    else [.missingParent parent r.id]

def faultsAt (h : History) (position : Nat) (r : Record) : List Violation :=
  (h.repetition position r ++ h.parentage position r).map (Violation.atPosition position)

/-- All violations of a history, in recorded order. -/
def faults (h : History) : List Violation :=
  if h = [] then [⟨none, .emptyHistory⟩] else h.zipIdx.flatMap fun entry => h.faultsAt entry.2 entry.1

end History

/-- What is kept of a list of violations. -/
def Policy.kept : Policy → List Violation → List Violation
  | .collect, vs => vs
  | .failFast, vs => vs.take 1

theorem Policy.kept_eq_nil_iff (policy : Policy) (vs : List Violation) : policy.kept vs = [] ↔ vs = [] := by
  cases policy with
  | collect => rfl
  | failFast => cases vs <;> simp [kept]

theorem Report.ofViolations_eq_verified_iff {n m : Nat} {vs : List Violation} :
    ofViolations n vs = .verified m ↔ vs = [] ∧ m = n := by
  cases vs with
  | nil => simp [ofViolations, eq_comm]
  | cons v vs => simp [ofViolations]

theorem Report.violations_ofViolations (n : Nat) (vs : List Violation) :
    (ofViolations n vs).violations = vs := by
  cases vs <;> rfl

/-! ### One record -/

section

variable {p : Pass} {past rest : History} {r : Record}

private theorem findIdx_append_cons (past rest : History) (r : Record) :
    (past ++ r :: rest).findIdx (·.id == r.id) = (past.position? r.id).getD past.length := by
  rw [List.findIdx_append, History.position?]
  by_cases hr : past.findIdx (·.id == r.id) < past.length
  · rw [if_pos hr, List.findIdx?_eq_some_of_exists (by simpa using hr)]
    rfl
  · have hn : past.findIdx? (·.id == r.id) = none := by
      rw [List.findIdx?_eq_none_iff_findIdx_eq]
      have hle : past.findIdx (·.id == r.id) ≤ past.length := List.findIdx_le_length
      omega
    rw [if_neg hr, hn]
    simp [List.findIdx_cons]

private theorem duplicates_eq (hp : p.Knows past) :
    p.duplicates r = History.repetition (past ++ r :: rest) past.length r := by
  unfold Pass.duplicates History.repetition
  rw [findIdx_append_cons, hp.seen]
  cases hf : past.position? r.id with
  | none => simp
  | some first =>
    have hlt : first < past.length := by
      rw [History.position?, List.findIdx?_eq_some_iff_findIdx_eq] at hf
      exact hf.1
    simp [hlt]

private theorem parentage_eq (hp : p.Knows past) :
    (if past.length = 0 then Pass.firstParentage r else p.laterParentage r) =
      History.parentage (past ++ r :: rest) past.length r := by
  unfold Pass.firstParentage Pass.laterParentage History.parentage
  rw [List.take_left, hp.root, History.root?]
  cases hr : r.parent with
  | none =>
    by_cases h0 : past.length = 0
    · simp [h0]
    · simp only [h0, ↓reduceIte]
      cases past.find? Record.isRoot <;> rfl
  | some parent =>
    have hself : r.isSelfReferencing = true ↔ parent = r.id := by simp [Record.isSelfReferencing, hr]
    simp only [hself, hp.contains]

/-- What a check adds to the violations of a pass that knows the records so far. -/
theorem violations_check (rest : History) (r : Record) (hp : p.Knows past) :
    (p.check past.length r).violations.toList =
      p.violations.toList ++ History.faultsAt (past ++ r :: rest) past.length r := by
  have hb : p.breaches past.length r = History.repetition (past ++ r :: rest) past.length r ++
      History.parentage (past ++ r :: rest) past.length r := by
    unfold Pass.breaches
    rw [duplicates_eq hp, parentage_eq hp]
  unfold Pass.check History.faultsAt
  rw [hb]
  simp

end

/-! ### A whole pass -/

section

variable {ε : Type} {gate : Nat → Except ε Unit} (hg : ∀ i, gate i = .ok ())

include hg

private theorem scanFrom_collect {p : Pass} {past : History} (hp : p.Knows past) (rest : History) :
    ∃ q, scanFrom gate .collect past.length p rest = .ok q ∧
      q.violations.toList = p.violations.toList ++
        (rest.zipIdx past.length).flatMap fun entry => History.faultsAt (past ++ rest) entry.2 entry.1 := by
  induction rest generalizing p past with
  | nil => exact ⟨p, rfl, by simp⟩
  | cons r rest ih =>
    -- the pass knows one record more, and the same history is left behind and ahead of it
    have hc := violations_check rest r hp
    obtain ⟨q, hq, hv⟩ := ih (hp.check r)
    rw [List.length_append, List.length_singleton] at hq hv
    refine ⟨q, ?_, ?_⟩
    · rw [scanFrom, hg]
      exact hq
    · rw [hv, hc, List.append_assoc, List.append_assoc]
      rfl

private theorem scanFrom_failFast {p : Pass} {past : History} (hp : p.Knows past) (h0 : p.violations = #[])
    (rest : History) :
    ∃ q, scanFrom gate .failFast past.length p rest = .ok q ∧
      q.violations.toList =
        ((rest.zipIdx past.length).flatMap fun entry =>
          History.faultsAt (past ++ rest) entry.2 entry.1).take 1 := by
  induction rest generalizing p past with
  | nil => exact ⟨p, rfl, by simp [h0]⟩
  | cons r rest ih =>
    have hc := violations_check rest r hp
    rw [h0, List.nil_append] at hc
    rw [scanFrom, hg, List.zipIdx_cons, List.flatMap_cons, ← hc]
    by_cases he : (p.check past.length r).violations = #[]
    · obtain ⟨q, hq, hv⟩ := ih (hp.check r) he
      rw [List.length_append, List.length_singleton] at hq hv
      refine ⟨q, ?_, ?_⟩
      · simpa [he] using hq
      · rw [hv, he, List.append_assoc]
        rfl
    · have hne : (p.check past.length r).violations.toList ≠ [] := by simpa using he
      refine ⟨{ p.check past.length r with violations := (p.check past.length r).violations.take 1 }, ?_, ?_⟩
      · simp [he]
      · obtain ⟨v, vs, hvs⟩ := List.exists_cons_of_ne_nil hne
        simp [hvs]

/-- A scan whose gate is open reports the faults of the history, as far as the policy keeps them. -/
theorem scan_eq (policy : Policy) (h : History) :
    scan gate policy h = .ok (.ofViolations h.length (policy.kept h.faults)) := by
  cases h with
  | nil => cases policy <;> rfl
  | cons r rest =>
    have hf : (r :: rest).zipIdx.flatMap (fun entry => History.faultsAt (r :: rest) entry.2 entry.1) =
        History.faults (r :: rest) := by
      simp [History.faults]
    cases policy with
    | collect =>
      obtain ⟨q, hq, hv⟩ := scanFrom_collect hg Pass.knows_empty (r :: rest)
      rw [List.length_nil, List.nil_append, hf] at hv
      rw [List.length_nil] at hq
      simp only [scan, hq, Except.map, hv]
      rfl
    | failFast =>
      obtain ⟨q, hq, hv⟩ := scanFrom_failFast hg Pass.knows_empty rfl (r :: rest)
      rw [List.length_nil, List.nil_append, hf] at hv
      rw [List.length_nil] at hq
      simp only [scan, hq, Except.map, hv]
      rfl

end

theorem verifyWith_eq (policy : Policy) (h : History) :
    verifyWith policy h = .ofViolations h.length (policy.kept h.faults) := by
  have hs : scan (fun _ => (.ok () : Except Empty Unit)) policy h = _ := scan_eq (fun _ => rfl) policy h
  rw [verifyWith, hs]

theorem Verifier.run_eq {v : Verifier} (hv : v.flag ≠ some true) (h : History) :
    v.run h = .ok (.ofViolations h.length (v.policy.kept h.faults)) :=
  scan_eq (fun i => by simp [checkpoint, hv]) v.policy h

/-- A verification that collects reports every fault of the history and nothing else, and certifies exactly the
histories without faults. -/
theorem verify_reports_faults (h : History) :
    (verify h).violations = h.faults ∧ ∀ n, verify h = .verified n ↔ h.faults = [] ∧ n = h.length := by
  rw [verify, verifyWith_eq, Policy.kept, Report.violations_ofViolations]
  refine ⟨rfl, fun n => ?_⟩
  exact Report.ofViolations_eq_verified_iff

end Lineage
