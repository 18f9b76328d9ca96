import Lineage.Json.Writer
import Lineage.Proofs.Json.Feed
import Lineage.Proofs.Utf8

/-!
# Integers survive writing and reading

The digits of a number that fits into 64 bits make the reader hold exactly that number (`feedAll_digits`), and
the byte after them ends it.
-/

namespace Lineage.Json

/-- The byte of a decimal digit. -/
def digitByte (d : Nat) : UInt8 :=
  UInt8.ofNat (0x30 + d)

private theorem encodeChar_digitChar : ∀ d < 10, Utf8.encodeChar (Nat.digitChar d) = [digitByte d] := by
  decide

private theorem digitByte_facts : ∀ d < 10,
    Numeral.Part.isDigit (digitByte d) = true ∧ Numeral.digit (digitByte d) = d ∧
      Numeral.Part.first (digitByte d) = if d = 0 then .zero else .whole := by
  decide

private theorem digitByte_ne : ∀ d < 10,
    digitByte d ≠ 0x22 ∧ digitByte d ≠ 0x5B ∧ digitByte d ≠ 0x7B ∧ digitByte d ≠ 0x6E ∧ digitByte d ≠ 0x74 ∧
      digitByte d ≠ 0x66 ∧ digitByte d ≠ 0x2D := by
  decide

/-- A digit may be the first byte of a value. -/
theorem opens_digitByte : ∀ d < 10, isSpace (digitByte d) = false ∧ digitByte d ≠ 0x5D := by
  decide

theorem integerText_of_nonneg {n : Int} (h : 0 ≤ n) : integerText n = Nat.toDigits 10 n.toNat := by
  rw [integerText, Int.toString_eq_repr, Int.repr_eq_if, if_pos h, Nat.toList_repr]

theorem integerText_of_neg {n : Int} (h : n < 0) : integerText n = '-' :: Nat.toDigits 10 (-n).toNat := by
  rw [integerText, Int.toString_eq_repr, Int.repr_eq_if, if_neg (by omega), String.toList_append,
    Nat.toList_repr]
  rfl

namespace Numeral

/-- The whole number that has been read so far, when no digit has been left out. -/
def whole (negative : Bool) (m : Nat) : Numeral :=
  { minus with negative := negative, part := if m = 0 then .zero else .whole, significand := m }

theorem feed_minus {d : Nat} (hd : d < 10) : minus.feed (digitByte d) = .more (whole true d) := by
  obtain ⟨h1, h2, h3⟩ := digitByte_facts d hd
  have hmax : d ≤ maxSignificand := Nat.le_trans (Nat.le_of_lt hd) (by decide)
  by_cases h0 : d = 0
  · subst h0
    simp [feed, minus, Part.next, h1, h3, take, wholeDigit, fits, h2, whole, hmax]
  · simp [feed, minus, Part.next, h1, h3, take, wholeDigit, fits, h2, whole, hmax, h0]

/-- One more digit, as long as the number fits. -/
theorem feed_whole (negative : Bool) {q d : Nat} (hq : q ≠ 0) (hd : d < 10) (hm : q * 10 + d ≤ maxSignificand) :
    (whole negative q).feed (digitByte d) = .more (whole negative (q * 10 + d)) := by
  obtain ⟨h1, h2, -⟩ := digitByte_facts d hd
  have h0 : q * 10 + d ≠ 0 := by omega
  rw [whole, whole, if_neg hq, if_neg h0]
  simp [feed, minus, Part.next, h1, take, wholeDigit, fits, h2, hm]

theorem value_whole (m : Nat) : (whole false m).value = .ok (.integer m) := by
  by_cases h0 : m = 0
  · simp [value, integer?, whole, minus, h0]
  · simp [value, integer?, whole, minus, h0]

theorem value_whole_negative {m : Nat} (h0 : 0 < m) (hm : m ≤ maxNegative) :
    (whole true m).value = .ok (.integer (-m)) := by
  have hne : m ≠ 0 := by omega
  simp [value, integer?, whole, minus, hne, h0, hm]

theorem feed_ended (negative : Bool) (m : Nat) {b : UInt8} (hb : State.EndsNumber b) :
    (whole negative m).feed b = .ended := by
  obtain ⟨h1, h2, h3⟩ := hb
  by_cases h0 : m = 0
  · simp [feed, whole, h0, Part.next, Part.afterWhole, h1, h2, h3]
  · simp [feed, whole, h0, Part.next, Part.afterWhole, h1, h2, h3]

theorem finish_whole (negative : Bool) (m : Nat) : (whole negative m).finish = (whole negative m).value := by
  by_cases h0 : m = 0
  · simp [finish, whole, h0, Part.mayEnd]
  · simp [finish, whole, h0, Part.mayEnd]

end Numeral

namespace State

open Numeral (whole)

variable {outer : List Frame}

theorem feed_deliver (j : Json) (outer : List Frame) (b : UInt8) :
    (deliver j outer).feed b = (deliver j outer).structural b := by
  cases outer with
  | nil => rfl
  | cons frame outer => cases frame <;> rfl

/-- A number that has been read to its end settles as the state after its value. -/
theorem settles_whole {negative : Bool} {m : Nat} {j : Json} (hv : (whole negative m).value = .ok j) :
    Settles (.reading (.number (whole negative m)) outer) (deliver j outer) where
  feed b hb := by
    rw [feed_deliver]
    simp only [feed, Numeral.feed_ended negative m hb, hv]
  finish := by
    have hf := (Numeral.finish_whole negative m).trans hv
    cases outer with
    | nil => simp [finish, hf, deliver, bind, Except.bind]
    | cons frame outer => cases frame <;> simp [finish, hf, deliver, bind, Except.bind]

theorem begin_digit (outer : List Frame) {d : Nat} (hd : d < 10) :
    begin outer (digitByte d) = .ok (.reading (.number (whole false d)) outer) := by
  obtain ⟨h1, h2, h3⟩ := digitByte_facts d hd
  have hn := digitByte_ne d hd
  have hof : Numeral.ofDigit (digitByte d) = whole false d := by
    simp [Numeral.ofDigit, whole, Numeral.minus, h2, h3]
  simp [begin, hn, h1, hof]

/-- From a state that a digit makes a number, the digits of a number lead to that number. -/
theorem feedAll_digits {s : State} {negative : Bool}
    (hs : ∀ d < 10, s.feed (digitByte d) = .ok (.reading (.number (whole negative d)) outer)) (m : Nat)
    (hm : m ≤ Numeral.maxSignificand) :
    s.feedAll (Utf8.encode (Nat.toDigits 10 m)) = .ok (.reading (.number (whole negative m)) outer) := by
  -- the last digit is taken off, as the text has the first one in front
  induction m using Nat.strongRecOn with
  | ind m ih =>
    by_cases h : m < 10
    · rw [Nat.toDigits_of_lt_base h, Utf8.encode, List.flatMap_singleton, encodeChar_digitChar m h]
      exact feedAll_cons_ok (hs m h) []
    · have hd : m % 10 < 10 := Nat.mod_lt m (by decide)
      have hfit : m / 10 * 10 + m % 10 = m := Nat.div_add_mod' m 10
      have hlast : feed (.reading (.number (whole negative (m / 10))) outer) (digitByte (m % 10)) =
          .ok (.reading (.number (whole negative m)) outer) := by
        have hfeed := Numeral.feed_whole negative (q := m / 10) (by omega) hd (by omega)
        rw [hfit] at hfeed
        simp only [feed, hfeed]
      rw [Nat.toDigits_of_base_le (by decide) (by omega), Utf8.encode_append,
        feedAll_append_ok (ih (m / 10) (by omega) (by omega)), Utf8.encode, List.flatMap_singleton,
        encodeChar_digitChar _ hd]
      exact feedAll_cons_ok hlast []

end State

end Lineage.Json
