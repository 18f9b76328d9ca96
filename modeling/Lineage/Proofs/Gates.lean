import Lineage.Proofs.Answer
import Lineage.Proofs.Appending
import Lineage.Proofs.Location

/-!
# Gates

A gate is asked before every record, and a policy may end the pass at a violation, so the two race for the first
say.  A scan can be taken apart at any record (`scanFrom_append`), and what comes behind that record does not count
before it; so whichever of the two comes first decides, and a scan that the gate does not stop is one without a
gate (`scan_gated`).
-/

namespace Lineage

variable {ε : Type} {gate gate' : Nat → Except ε Unit} {policy : Policy} {h k : History}

/-- The gate refuses here for the first time, there is a record here, and the policy has not ended the pass at a
violation before. -/
structure Stops (gate : Nat → Except ε Unit) (policy : Policy) (h : History) (position : Nat) (e : ε) : Prop where
  inside : position < h.length
  refused : gate position = .error e
  passed : ∀ i < position, gate i = .ok ()
  going : policy = .collect ∨ ∀ v ∈ (verify h).violations, ∀ p, v.position = some p → position ≤ p

/-- A gate lets so many records pass, or there is a first one before which it refuses. -/
theorem passes_or_refuses (gate : Nat → Except ε Unit) (n : Nat) :
    (∀ i < n, gate i = .ok ()) ∨ ∃ p e, p < n ∧ gate p = .error e ∧ ∀ i < p, gate i = .ok () := by
  induction n with
  | zero => exact .inl fun i hi => absurd hi (Nat.not_lt_zero i)
  | succ n ih =>
    rcases ih with hopen | ⟨p, e, hp, hrefused, hopen⟩
    · cases hn : gate n with
      | error e => exact .inr ⟨n, e, Nat.lt_succ_self n, hn, hopen⟩
      | ok _ =>
        refine .inl fun i hi => ?_
        rcases Nat.lt_succ_iff_lt_or_eq.1 hi with hi | rfl
        · exact hopen i hi
        · exact hn
    · exact .inr ⟨p, e, by omega, hrefused, hopen⟩

/-! ### Scans in two parts -/

private theorem not_over_iff {p : Pass} :
    ¬(policy = .failFast ∧ !p.violations.isEmpty) ↔ (policy = .failFast → p.violations = #[]) := by
  simp

/-- Of some violations one is kept. -/
private theorem isEmpty_take_one (vs : Array Violation) : (vs.take 1).isEmpty = vs.isEmpty := by
  rw [Bool.eq_iff_iff]
  simp

/-- A scan goes through the first records, and on from there unless it is over. -/
theorem scanFrom_append {p : Pass} (h0 : policy = .failFast → p.violations = #[]) (position : Nat)
    (k rest : History) :
    scanFrom gate policy position p (k ++ rest) = (do
      let q ← scanFrom gate policy position p k
      if policy = .failFast ∧ !q.violations.isEmpty then .ok q
      else scanFrom gate policy (position + k.length) q rest) := by
  induction k generalizing position p with
  | nil =>
    show _ = if policy = .failFast ∧ !p.violations.isEmpty then _ else _
    rw [if_neg (not_over_iff.2 h0)]
    rfl
  | cons r k ih =>
    rw [List.cons_append, scanFrom, scanFrom]
    cases gate position with
    | error e => rfl
    | ok _ =>
      by_cases hover : policy = .failFast ∧ !(p.check position r).violations.isEmpty
      · have hkept : policy = .failFast ∧ !((p.check position r).violations.take 1).isEmpty := by
          rwa [isEmpty_take_one]
        simp only [if_pos hover]
        exact (if_pos hkept).symm
      · have hrest := ih (not_over_iff.1 hover) (position + 1)
        simp only [if_neg hover, hrest, List.length_cons, Nat.add_assoc, Nat.add_comm 1]

theorem scanFrom_congr {position : Nat} {p : Pass}
    (hg : ∀ i, position ≤ i → i < position + h.length → gate i = gate' i) :
    scanFrom gate policy position p h = scanFrom gate' policy position p h := by
  induction h generalizing position p with
  | nil => rfl
  | cons r rest ih =>
    have hhere : gate position = gate' position := hg position (Nat.le_refl _) (by simp)
    have hrest : ∀ i, position + 1 ≤ i → i < position + 1 + rest.length → gate i = gate' i :=
      fun i hle hlt => hg i (by omega) (by rw [List.length_cons]; omega)
    rw [scanFrom, scanFrom, hhere]
    simp only [ih hrest]

/-- A pass that the policy has not ended knows all records that it went through. -/
theorem knows_of_scanFrom {p q : Pass} {past : History} (hp : p.Knows past)
    (hq : scanFrom gate policy past.length p k = .ok q) (hgoing : policy = .failFast → q.violations = #[]) :
    q.Knows (past ++ k) := by
  induction k generalizing p past with
  | nil =>
    cases hq
    rwa [List.append_nil]
  | cons r k ih =>
    rw [scanFrom] at hq
    cases hgate : gate past.length with
    | error e =>
      rw [hgate] at hq
      cases hq
    | ok _ =>
      simp only [hgate] at hq
      split at hq
      next hover =>
        cases hq
        have hnone : (p.check past.length r).violations.take 1 = #[] := hgoing hover.1
        rw [← isEmpty_take_one, hnone] at hover
        simp at hover
      next =>
        have hknows := hp.check r
        rw [← List.length_singleton (a := r), ← List.length_append] at hq
        have hall := ih hknows hq
        rwa [List.append_assoc] at hall

/-! ### Violations before a record -/

namespace History

/-- Violations before a record are those of the history that ends there. -/
theorem faults_eq_nil_iff_forall_le (hne : k ≠ []) (rest : History) :
    k.faults = [] ↔ ∀ v ∈ (k ++ rest).faults, ∀ p, v.position = some p → k.length ≤ p := by
  rw [faults_append hne]
  constructor
  · intro hnil v hv p hp
    rw [hnil, List.nil_append] at hv
    obtain ⟨p', hp', hle⟩ := position_of_mem_furtherFaults hv
    obtain rfl := Option.some.inj (hp.symm.trans hp')
    exact hle
  · intro hall
    refine List.eq_nil_iff_forall_not_mem.2 fun v hv => ?_
    obtain ⟨p, hlt, hp⟩ := exists_position_of_mem_faults hne hv
    have hle := hall v (List.mem_append_left _ hv) p hp
    omega

end History

/-! ### Scans that a gate stops -/

theorem scan_congr (hg : ∀ i < h.length, gate i = gate' i) : scan gate policy h = scan gate' policy h := by
  have hfrom : scanFrom gate policy 0 .empty h = scanFrom gate' policy 0 .empty h :=
    scanFrom_congr fun i _ hi => hg i (by omega)
  cases h with
  | nil => rfl
  | cons r rest => simp only [scan, hfrom]

/-- A scan that is asked for no more than the gate lets pass. -/
theorem scan_of_open (policy : Policy) (hg : ∀ i < h.length, gate i = .ok ()) :
    scan gate policy h = .ok (.ofViolations h.length (policy.kept h.faults)) := by
  have hopen : scan gate policy h = scan (fun _ => .ok ()) policy h := scan_congr hg
  rw [hopen]
  exact scan_eq (fun _ => rfl) policy h

/-- The pass behind the report of such a scan. -/
theorem exists_scanFrom (policy : Policy) (hne : h ≠ []) (hg : ∀ i < h.length, gate i = .ok ()) :
    ∃ q, scanFrom gate policy 0 .empty h = .ok q ∧ q.violations.toList = policy.kept h.faults := by
  have hscan := scan_of_open policy hg
  obtain ⟨r, rest, rfl⟩ := List.exists_cons_of_ne_nil hne
  obtain ⟨q, hq, hreport⟩ := map_eq_ok_iff.1 hscan
  have hviolations := congrArg Report.violations hreport
  rw [Report.violations_ofViolations, Report.violations_ofViolations] at hviolations
  exact ⟨q, hq, hviolations.symm⟩

variable {position : Nat} {e : ε}

namespace Stops

theorem length_take (hs : Stops gate policy h position e) : (h.take position).length = position :=
  List.length_take_of_le (Nat.le_of_lt hs.inside)

/-- A policy that ends a pass at a violation has seen none so far. -/
theorem faults_take_eq_nil (hs : Stops gate .failFast h position e) (hne : h.take position ≠ []) :
    History.faults (h.take position) = [] := by
  have hbehind := hs.going.resolve_left Policy.noConfusion
  rw [verify, violations_verifyWith] at hbehind
  rw [History.faults_eq_nil_iff_forall_le hne (h.drop position), List.take_append_drop, hs.length_take]
  exact hbehind

/-- Where a gate stops a scan, the pass knows the records before, and what comes behind them had no say. -/
theorem reached (hs : Stops gate policy h position e) :
    ∃ q : Pass, q.Knows (h.take position) ∧
      ∀ rest, scanFrom gate policy 0 .empty (h.take position ++ rest) = scanFrom gate policy position q rest := by
  have hlength := hs.length_take
  by_cases hne : h.take position = []
  · obtain rfl : position = 0 := by rw [← hlength, hne, List.length_nil]
    exact ⟨.empty, Pass.knows_empty, fun rest => rfl⟩
  · obtain ⟨q, hq, hviolations⟩ := exists_scanFrom policy hne (hlength.symm ▸ hs.passed)
    have hgoing : policy = .failFast → q.violations = #[] := by
      rintro rfl
      rw [hs.faults_take_eq_nil hne] at hviolations
      exact Array.toList_eq_nil_iff.1 hviolations
    refine ⟨q, knows_of_scanFrom Pass.knows_empty hq hgoing, fun rest => ?_⟩
    rw [scanFrom_append (fun _ => rfl), hq, hlength, Nat.zero_add]
    exact if_neg (not_over_iff.2 hgoing)

theorem scan_eq_error (hs : Stops gate policy h position e) : scan gate policy h = .error e := by
  obtain ⟨q, -, hq⟩ := hs.reached
  have hfrom : scanFrom gate policy 0 .empty h = .error e := by
    rw [← List.take_append_drop position h, hq, List.drop_eq_getElem_cons hs.inside, scanFrom, hs.refused]
  obtain ⟨r, rest, rfl⟩ := List.exists_cons_of_ne_nil (List.length_pos_iff.1 (Nat.zero_lt_of_lt hs.inside))
  simp only [scan, hfrom, Except.map]

end Stops

/-- A pass that a violation has ended does not come to the records behind it, nor to their gate. -/
theorem scan_of_faults (hne : k ≠ []) (hf : k.faults ≠ []) (hg : ∀ i < k.length, gate i = .ok ()) (rest : History) :
    scan gate .failFast (k ++ rest) = .ok (verifyWith .failFast (k ++ rest)) := by
  obtain ⟨q, hq, hviolations⟩ := exists_scanFrom .failFast hne hg
  have hover : q.violations ≠ #[] := by
    intro hnone
    rw [hnone] at hviolations
    exact hf ((Policy.kept_eq_nil_iff .failFast _).1 hviolations.symm)
  have hfrom : scanFrom gate .failFast 0 .empty (k ++ rest) = .ok q := by
    rw [scanFrom_append (fun _ => rfl), hq]
    exact if_pos ⟨rfl, by simpa using hover⟩
  have hkept : Policy.kept .failFast (k ++ rest).faults = q.violations.toList := by
    obtain ⟨v, vs, hvs⟩ := List.exists_cons_of_ne_nil hf
    rw [hviolations, History.faults_append hne, hvs]
    rfl
  obtain ⟨r, k, rfl⟩ := List.exists_cons_of_ne_nil hne
  rw [verifyWith_eq, hkept]
  simp only [List.cons_append] at hfrom ⊢
  simp only [scan, hfrom, Except.map]

/-- A scan that no gate stops reports what there is to report. -/
theorem scan_of_not_stops (hs : ∀ position e, ¬Stops gate policy h position e) :
    scan gate policy h = .ok (verifyWith policy h) := by
  rcases passes_or_refuses gate h.length with hopen | ⟨position, e, hinside, hrefused, hpassed⟩
  · rw [verifyWith_eq]
    exact scan_of_open policy hopen
  · -- the gate refuses but does not stop the scan, so a violation has ended the pass before
    have hlength : (h.take position).length = position := List.length_take_of_le (Nat.le_of_lt hinside)
    have hover : ¬(policy = .collect ∨ _) := fun hgoing => hs position e ⟨hinside, hrefused, hpassed, hgoing⟩
    obtain ⟨hpolicy, hearlier⟩ := not_or.1 hover
    obtain rfl : policy = .failFast := by
      cases policy with
      | collect => exact absurd rfl hpolicy
      | failFast => rfl
    have hne : h.take position ≠ [] := by
      intro hnil
      apply hearlier
      intro v hv p hp
      rw [← hlength, hnil]
      exact Nat.zero_le p
    have hf : History.faults (h.take position) ≠ [] := by
      rw [ne_eq, History.faults_eq_nil_iff_forall_le hne (h.drop position), List.take_append_drop, hlength]
      rwa [verify, violations_verifyWith] at hearlier
    have hscan := scan_of_faults hne hf (hlength.symm ▸ hpassed) (h.drop position)
    rwa [List.take_append_drop] at hscan

theorem scan_eq_error_iff {e : ε} :
    scan gate policy h = .error e ↔ ∃ position, Stops gate policy h position e := by
  constructor
  · intro hscan
    by_contra hnone
    have hnot : ∀ position e', ¬Stops gate policy h position e' := by
      intro position e' hs
      obtain rfl := Except.error.inj (hscan.symm.trans hs.scan_eq_error)
      exact hnone ⟨position, hs⟩
    cases hscan.symm.trans (scan_of_not_stops hnot)
  · rintro ⟨position, hs⟩
    exact hs.scan_eq_error

theorem scan_eq_ok_iff {report : Report} :
    scan gate policy h = .ok report ↔
      report = verifyWith policy h ∧ ∀ position e, ¬Stops gate policy h position e := by
  constructor
  · intro hscan
    have hnot : ∀ position e, ¬Stops gate policy h position e := by
      intro position e hs
      cases hscan.symm.trans hs.scan_eq_error
    exact ⟨Except.ok.inj (hscan.symm.trans (scan_of_not_stops hnot)), hnot⟩
  · rintro ⟨rfl, hnot⟩
    exact scan_of_not_stops hnot

/-- The gate of a flag that may be set at any time: `flag` tells how it is found at each position. -/
def Policy.watching (policy : Policy) (flag : Nat → Option Bool) (position : Nat) : Except Interrupted Unit :=
  Verifier.checkpoint ⟨policy, flag position⟩ position

theorem scan_watching_eq_error_iff {flag : Nat → Option Bool} {stop : Interrupted} :
    scan (policy.watching flag) policy h = .error stop ↔
      Stops (policy.watching flag) policy h stop.position stop := by
  rw [scan_eq_error_iff]
  constructor
  · rintro ⟨position, hs⟩
    have hrefused := hs.refused
    unfold Policy.watching Verifier.checkpoint at hrefused
    split at hrefused
    · cases hrefused
      exact hs
    · cases hrefused
  · intro hs
    exact ⟨stop.position, hs⟩

/-- A scan is stopped with a refusal of its gate exactly where the gate first refuses, unless there is no record or
the policy has ended the pass at a violation before.  The records up to there have been taken in by then and what
comes behind them has not been looked at, so a flag tells the position of the first record that was not examined.
In every other case the gate has no say: the report is the one on the whole history.  A verifier's run is such a
scan, with a flag that does not change. -/
theorem scan_gated (gate : Nat → Except ε Unit) (policy : Policy) (h : History) :
    (∀ e, scan gate policy h = .error e ↔ ∃ position, Stops gate policy h position e) ∧
      (∀ report, scan gate policy h = .ok report ↔
        report = verifyWith policy h ∧ ∀ position e, ¬Stops gate policy h position e) ∧
      (∀ position e, Stops gate policy h position e → ∃ q : Pass, q.Knows (h.take position) ∧
        ∀ rest, scanFrom gate policy 0 .empty (h.take position ++ rest) = scanFrom gate policy position q rest) ∧
      (∀ flag stop, scan (policy.watching flag) policy h = .error stop ↔
        Stops (policy.watching flag) policy h stop.position stop) ∧
      ∀ v : Verifier, v.run h = scan (v.policy.watching fun _ => v.flag) v.policy h :=
  ⟨fun _ => scan_eq_error_iff, fun _ => scan_eq_ok_iff, fun _ _ hs => hs.reached,
    fun _ _ => scan_watching_eq_error_iff, fun _ => rfl⟩

/-- A root, a record without its parent, and one more. -/
def gatedHistory : History :=
  [.root "a", .child "b" "c", .child "d" "a"]

def refusingFrom (n position : Nat) : Except Nat Unit :=
  if position < n then .ok () else .error position

/-- A gate that refuses before the record with a violation comes first under either policy; one that refuses behind
it comes too late where the pass ends at the violation. -/
theorem scan_gated_race :
    Stops (refusingFrom 1) .failFast gatedHistory 1 1 ∧
      scan (refusingFrom 1) .failFast gatedHistory = .error 1 ∧
      scan (refusingFrom 2) .collect gatedHistory = .error 2 ∧
      scan (refusingFrom 2) .failFast gatedHistory = .ok (verifyWith .failFast gatedHistory) ∧
      ∃ q : Pass, q.Knows (gatedHistory.take 1) ∧
        ∀ rest, scanFrom (refusingFrom 1) .failFast 0 .empty (gatedHistory.take 1 ++ rest) =
          scanFrom (refusingFrom 1) .failFast 1 q rest := by
  have hviolations : (verify gatedHistory).violations = [⟨some 1, .missingParent "c" "b"⟩] := by decide
  have hearly : Stops (refusingFrom 1) .failFast gatedHistory 1 1 := by
    refine ⟨by decide, rfl, by decide, .inr fun v hv p hp => ?_⟩
    rw [hviolations, List.mem_singleton] at hv
    subst hv
    exact Nat.le_of_eq (Option.some.inj hp)
  have hlate : Stops (refusingFrom 2) .collect gatedHistory 2 2 := ⟨by decide, rfl, by decide, .inl rfl⟩
  have hnever : ∀ position e, ¬Stops (refusingFrom 2) .failFast gatedHistory position e := by
    rintro position e ⟨-, hrefused, -, hgoing⟩
    have hmem : ⟨some 1, .missingParent "c" "b"⟩ ∈ (verify gatedHistory).violations := by simp [hviolations]
    have hle := hgoing.resolve_left Policy.noConfusion _ hmem 1 rfl
    rw [refusingFrom, if_pos (by omega)] at hrefused
    cases hrefused
  obtain ⟨hearlyError, -, hreached, -⟩ := scan_gated (refusingFrom 1) .failFast gatedHistory
  obtain ⟨hlateError, -⟩ := scan_gated (refusingFrom 2) .collect gatedHistory
  obtain ⟨-, hneverOk, -⟩ := scan_gated (refusingFrom 2) .failFast gatedHistory
  exact ⟨hearly, (hearlyError 1).2 ⟨1, hearly⟩, (hlateError 2).2 ⟨2, hlate⟩, (hneverOk _).2 ⟨rfl, hnever⟩,
    hreached 1 1 hearly⟩

end Lineage
