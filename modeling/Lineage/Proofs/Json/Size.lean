import Lineage.Proofs.Json.Cut

/-!
# The size of an array and of its text

Every item of an array takes a byte of the text at least, and so does its bracket.  What the reader has gathered
is weighed by that count (`State.weight`); no byte adds more than one to it (`Step.weight_le`), so an array has
fewer items than its text has bytes.
-/

namespace Lineage.Json

/-- The items of an array and its bracket.  Any other value counts once. -/
def weight : Json → Nat
  | .array items => items.length + 1
  | _ => 1

theorem weight_of_kind_ne {j : Json} (h : j.kind ≠ .array) : j.weight = 1 := by
  cases j with
  | array items => exact absurd rfl h
  | _ => rfl

def Frame.weight : Frame → Nat
  | .items before => before.length + 1
  | .field _ _ => 0

/-- A value that is being read counts from its first byte on. -/
def Place.weight : Place → Nat
  | .items before _ => before.length + 1
  | .word _ _ | .number _ | .text .value _ _ => 1
  | .value | .fields _ _ | .colon _ _ | .text (.name _) _ _ => 0

/-- What the containers around a place have gathered. -/
def outerWeight : List Frame → Nat
  | [] => 0
  | frame :: outer => frame.weight + outerWeight outer

namespace State

def weight : State → Nat
  | .done j => j.weight
  | .reading place outer => place.weight + outerWeight outer

@[simp]
theorem weight_reading (place : Place) (outer : List Frame) :
    (reading place outer).weight = place.weight + outerWeight outer :=
  rfl

variable {s t : State} {b : UInt8} {outer : List Frame}

theorem weight_deliver_le (j : Json) (outer : List Frame) :
    (deliver j outer).weight ≤ j.weight + outerWeight outer := by
  have hj : 1 ≤ j.weight := by cases j <;> simp [Json.weight]
  cases outer with
  | nil => exact Nat.le_add_right _ _
  | cons frame outer =>
    cases frame with
    | items before =>
      simp only [deliver, weight_reading, Place.weight, outerWeight, Frame.weight, List.length_cons]
      omega
    | field before name =>
      simp only [deliver, weight_reading, Place.weight, outerWeight, Frame.weight]
      omega

theorem Opens.weight_eq (h : Opens s outer) : s.weight = outerWeight outer := by
  cases h <;> simp [Place.weight, outerWeight, Frame.weight]

theorem Begins.weight_le {place : Place} (h : Begins b place) : place.weight ≤ 1 := by
  cases h <;> simp [Place.weight]

theorem Ends.weight_eq {j : Json} (h : Ends s j outer) (hs : s.Spelled) : s.weight = j.weight + outerWeight outer := by
  cases h with
  | word value outer => rw [weight_of_kind_ne hs.1]; rfl
  | number value outer =>
    rw [weight_of_kind_ne (by rw [Numeral.kind_of_value value]; decide)]
    rfl

/-- A byte adds one item at most to what was gathered. -/
theorem Step.weight_le (h : Step s b t) (hs : s.Spelled) : t.weight ≤ s.weight + 1 := by
  induction h with
  | begin opens begins =>
    have hplace := begins.weight_le
    rw [opens.weight_eq, weight_reading]
    omega
  | closeItems before turn outer =>
    -- the items were counted one by one, and the bracket with them
    have hclosed := weight_deliver_le (.array before.reverse) outer
    rw [Json.weight, List.length_reverse] at hclosed
    exact Nat.le_succ_of_le hclosed
  | closeFields before turn outer =>
    have hclosed : _ ≤ 1 + outerWeight outer := weight_deliver_le (.object before.reverse) outer
    simp only [weight_reading, Place.weight]
    omega
  | colon before name outer => simp [Place.weight, outerWeight, Frame.weight]
  | text role content content' escapes outer => cases role <;> exact Nat.le_succ _
  | endText role content outer s =>
    cases role with
    | value => exact Nat.le_succ_of_le (weight_deliver_le (.string s) outer)
    | name before => exact Nat.le_succ _
  | endWord b value outer =>
    have hended := weight_deliver_le value outer
    rw [weight_of_kind_ne hs.1] at hended
    exact Nat.le_succ_of_le hended
  | @settle s t b j outer ends step ih =>
    -- the value that ends here was counted when it began
    have hstep := ih (spelled_deliver j outer)
    have hended := weight_deliver_le j outer
    rw [ends.weight_eq hs]
    omega
  | _ => exact Nat.le_succ _

theorem weight_le_of_feedAll {bytes : Bytes} (h : s.feedAll bytes = .ok t) (hs : s.Spelled) :
    t.weight ≤ s.weight + bytes.length := by
  have hrun : t.Spelled ∧ t.weight ≤ s.weight + bytes.length := by
    refine feedAll_induction (P := fun read u => u.Spelled ∧ u.weight ≤ s.weight + read.length) h
      ⟨hs, Nat.le_refl _⟩ ?_
    rintro read u b v ⟨hu, hle⟩ hstep
    refine ⟨hstep.spelled hu, ?_⟩
    have hadded := hstep.weight_le hu
    rw [List.length_append, List.length_singleton]
    omega
  exact hrun.2

end State

/-- An array has fewer items than its text has bytes. -/
theorem length_lt_of_read {text : Bytes} {items : List Json} (h : read text = .ok (.array items)) :
    items.length < text.length := by
  obtain ⟨s, hs, hfinish⟩ := read_eq_ok_iff.1 h
  obtain rfl := State.eq_done_of_finish_array hfinish
  have hle := State.weight_le_of_feedAll hs trivial
  have hstart : State.start.weight = 0 := rfl
  rw [hstart, Nat.zero_add] at hle
  exact hle

end Lineage.Json
