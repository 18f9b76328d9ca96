import Lineage.Proofs.Json.Step

/-!
# Texts that are cut off

The reader may only stop where a value is complete.  In the text of an array that is not before its last
bracket, since from a complete value no further byte but blanks and digits leads on.  So no text that ends
before that bracket has a value of any kind (`read_array_cut`).
-/

namespace Lineage.Json

theorem Numeral.kind_of_value {n : Numeral} {j : Json} (h : n.value = .ok j) : j.kind = .number := by
  unfold value at h
  split at h
  · cases h; rfl
  · split at h
    · cases h; rfl
    · cases h

namespace State

/-! ### Words -/

/-- A word that is being read stands for no array, and its letters are neither brackets nor quotes. -/
def Spelled : State → Prop
  | .reading (.word left value) _ => value.kind ≠ .array ∧ ∀ b ∈ left, Neutral b
  | _ => True

variable {s t : State} {b : UInt8}

theorem deliver_eq_done {j i : Json} {outer : List Frame} (h : deliver j outer = .done i) : outer = [] ∧ j = i := by
  cases outer with
  | nil => exact ⟨rfl, State.done.inj h⟩
  | cons frame outer => cases frame <;> cases h

theorem spelled_deliver (j : Json) (outer : List Frame) : (deliver j outer).Spelled := by
  cases outer with
  | nil => trivial
  | cons frame outer => cases frame <;> trivial

theorem Step.spelled (h : Step s b t) (hs : s.Spelled) : t.Spelled := by
  induction h with
  | blank => exact hs
  | begin opens begins =>
    cases begins with
    | null => exact ⟨by decide, by simp [Neutral]⟩
    | true => exact ⟨by decide, by simp [Neutral]⟩
    | false => exact ⟨by decide, by simp [Neutral]⟩
    | _ => trivial
  | closeItems before turn outer => exact spelled_deliver _ outer
  | closeFields before turn outer => exact spelled_deliver _ outer
  | endText role content outer s =>
    cases role with
    | value => exact spelled_deliver _ outer
    | name before => trivial
  | word b left value outer => exact ⟨hs.1, fun c hc => hs.2 c (List.mem_cons_of_mem _ hc)⟩
  | endWord b value outer => exact spelled_deliver value outer
  | settle ends step ih => exact ih (spelled_deliver _ _)
  | _ => trivial

theorem spelled_of_feedAll {bytes : Bytes} (h : s.feedAll bytes = .ok t) (hs : s.Spelled) : t.Spelled :=
  feedAll_induction (P := fun _ u => u.Spelled) h hs fun _ _ _ _ hu hstep => hstep.spelled hu

/-! ### Complete values -/

/-- The text could end here. -/
def Complete : State → Prop
  | .done _ => True
  | .reading (.number _) [] => True
  | _ => False

theorem complete_of_finish {j : Json} (h : s.finish = .ok j) : s.Complete := by
  cases s with
  | done j => trivial
  | reading place outer =>
    cases place with
    | number n =>
      cases outer with
      | nil => trivial
      | cons frame outer =>
        obtain ⟨i, -, hi⟩ := bind_eq_ok_iff.1 h
        cases frame <;> cases hi
    | _ => cases h

/-- What follows a complete value is neutral, and leaves it complete. -/
theorem Step.complete (h : Step s b t) (hs : s.Complete) : Neutral b ∧ t.Complete := by
  induction h with
  | blank waits space => exact ⟨neutral_of_isSpace space, hs⟩
  | begin opens begins => cases opens <;> cases hs
  | number n n' hb outer =>
    cases outer with
    | nil => exact ⟨hb, trivial⟩
    | cons frame outer => cases hs
  | @settle s t b j outer ends step ih =>
    cases ends with
    | word => cases hs
    | number value =>
      cases outer with
      | nil => exact ih trivial
      | cons frame outer => cases hs
  | _ => cases hs

theorem complete_of_feedAll {bytes : Bytes} (h : s.feedAll bytes = .ok t) (hs : s.Complete) : t.Complete :=
  feedAll_induction (P := fun _ u => u.Complete) h hs fun _ _ _ _ hu hstep => (hstep.complete hu).2

/-! ### The end of an array -/

theorem eq_done_of_finish_array {items : List Json} (h : s.finish = .ok (.array items)) :
    s = .done (.array items) := by
  have hs := complete_of_finish h
  cases s with
  | done j =>
    cases h
    rfl
  | reading place outer =>
    cases place with
    | number n =>
      cases outer with
      | nil =>
        obtain ⟨i, hi, hj⟩ := bind_eq_ok_iff.1 h
        cases hj
        simp only [Numeral.finish] at hi
        split at hi
        · cases Numeral.kind_of_value hi
        · cases hi
      | cons frame outer => cases hs
    | _ => cases hs

/-- An array that is complete was so before a blank, or the byte is its last bracket. -/
theorem Step.closes {items : List Json} (h : Step s b t) (hs : s.Spelled) (ht : t = .done (.array items)) :
    (isSpace b = true ∧ s = t) ∨ b = 0x5D := by
  induction h with
  | blank waits space => exact .inl ⟨space, rfl⟩
  | closeItems => exact .inr rfl
  | closeFields before turn outer => cases (deliver_eq_done ht).2
  | endText role content outer text =>
    cases role with
    | value => cases (deliver_eq_done ht).2
    | name before => cases ht
  | endWord b value outer =>
    obtain ⟨-, rfl⟩ := deliver_eq_done ht
    exact absurd rfl hs.1
  | @settle s t b j outer ends step ih =>
    rcases ih (spelled_deliver j outer) ht with ⟨-, heq⟩ | hb
    · -- a word or a number that ends here would have to be the array
      obtain ⟨-, rfl⟩ := deliver_eq_done (heq.trans ht)
      cases ends with
      | word => exact absurd rfl hs.1
      | number value => cases Numeral.kind_of_value value
    · exact .inr hb
  | _ => cases ht

/-- An array is over with its last bracket, and after that there are only blanks. -/
theorem exists_close {text : Bytes} {items : List Json} (h : start.feedAll text = .ok (.done (.array items))) :
    ∃ body blanks s, text = (body ++ [0x5D]) ++ blanks ∧ (∀ b ∈ blanks, isSpace b = true) ∧
      start.feedAll body = .ok s ∧ s.feed 0x5D = .ok (.done (.array items)) := by
  induction text using List.reverseRecOn with
  | nil => cases h
  | append_singleton text b ih =>
    obtain ⟨s, hs, hb⟩ := feedAll_append_eq_ok_iff.1 h
    rw [feedAll_singleton] at hb
    rcases (step_of_feed hb).closes (spelled_of_feedAll hs trivial) rfl with ⟨hspace, rfl⟩ | rfl
    · obtain ⟨body, blanks, s, rfl, hblanks, hbody, hclose⟩ := ih hs
      refine ⟨body, blanks ++ [b], s, List.append_assoc _ _ _, fun c hc => ?_, hbody, hclose⟩
      rcases List.mem_append.1 hc with hc | hc
      · exact hblanks c hc
      · exact List.mem_singleton.1 hc ▸ hspace
    · exact ⟨text, [], s, (List.append_nil _).symm, List.forall_mem_nil _, hs, hb⟩

end State

/-- The text of an array is a text that ends with the last bracket of that array, and blanks.  No text that ends
before the bracket has a value. -/
theorem read_array_cut {text : Bytes} {items : List Json} (h : read text = .ok (.array items)) :
    ∃ array blanks, text = array ++ blanks ∧ array.getLast? = some 0x5D ∧ (∀ b ∈ blanks, isSpace b = true) ∧
      read array = .ok (.array items) ∧
      ∀ torn, torn <+: array → torn ≠ array → ∃ fault, read torn = .error fault := by
  obtain ⟨s, hs, hfinish⟩ := read_eq_ok_iff.1 h
  obtain rfl := State.eq_done_of_finish_array hfinish
  obtain ⟨body, blanks, u, rfl, hblanks, hbody, hclose⟩ := State.exists_close hs
  refine ⟨body ++ [0x5D], blanks, rfl, List.getLast?_concat, hblanks, ?_, fun torn htorn hne => ?_⟩
  · refine read_eq_ok_iff.2 ⟨.done (.array items), ?_, rfl⟩
    rw [State.feedAll_append_ok hbody, State.feedAll_singleton, hclose]
  · obtain ⟨rest, rfl⟩ := (List.prefix_concat_iff.1 htorn).resolve_left hne
    cases hread : read torn with
    | error fault => exact ⟨fault, rfl⟩
    | ok j =>
      -- the value that ends in the middle would still be complete before the bracket
      obtain ⟨v, hv, hj⟩ := read_eq_ok_iff.1 hread
      obtain ⟨v', hv', hrest⟩ := State.feedAll_append_eq_ok_iff.1 hbody
      obtain rfl : v = v' := Except.ok.inj (hv.symm.trans hv')
      have hu := State.complete_of_feedAll hrest (State.complete_of_finish hj)
      exact absurd ((State.step_of_feed hclose).complete hu).1 (by decide)

end Lineage.Json
