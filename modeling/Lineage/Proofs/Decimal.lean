import Lineage.Proofs.Json.Integer

/-!
# Decimal text

`Decimal.Writes` says which text an integer has: its digits without a zero in front of them, and before them a minus
sign when the integer is negative.  Every integer has exactly one such text (`writes_iff`), and no two integers have
the same one.
-/

namespace Lineage.Decimal

/-- The digits of a number.  The first one is zero only if it is the only one. -/
structure Digits (cs : List Char) (m : Nat) : Prop where
  nonempty : cs ≠ []
  digits : ∀ c ∈ cs, c.isDigit
  lead : cs.head? = some '0' → cs = ['0']
  value : Nat.ofDigitChars 10 cs 0 = m

/-- The text is the one of the integer: no plus sign, no minus sign before zero, and no zero that could be left out. -/
inductive Writes : Int → List Char → Prop where
  | nonneg {m : Nat} {cs : List Char} (digits : Digits cs m) : Writes m cs
  | negative {m : Nat} {cs : List Char} (digits : Digits cs m) (pos : 0 < m) : Writes (-m) ('-' :: cs)

/-! ### Digits of natural numbers -/

theorem digitChar_of_isDigit {c : Char} (h : c.isDigit) : c.toNat - 48 < 10 ∧ Nat.digitChar (c.toNat - 48) = c := by
  rw [Char.isDigit_iff_toNat] at h
  change 48 ≤ c.toNat ∧ c.toNat ≤ 57 at h
  have hlt : c.toNat - 48 < 10 := by omega
  refine ⟨hlt, Char.toNat_inj.1 ?_⟩
  rw [Nat.toNat_digitChar_of_lt_ten hlt]
  omega

/-- Digits behind a number that is not zero are its last digits. -/
theorem toDigits_append {cs : List Char} (h : ∀ c ∈ cs, c.isDigit) {front : Nat} (hfront : 0 < front) :
    Nat.toDigits 10 front ++ cs = Nat.toDigits 10 (Nat.ofDigitChars 10 cs front) := by
  induction cs generalizing front with
  | nil => rw [List.append_nil, Nat.ofDigitChars_nil]
  | cons c cs ih =>
    obtain ⟨hlt, hc⟩ := digitChar_of_isDigit (h c (List.mem_cons_self ..))
    have hone := Nat.toDigits_append_toDigits (by decide : 1 < 10) hfront hlt
    rw [Nat.toDigits_of_lt_base hlt, hc] at hone
    have hpos : 0 < 10 * front + (c.toNat - 48) := by omega
    have hrest := ih (fun d hd => h d (List.mem_cons_of_mem c hd)) hpos
    rw [Nat.ofDigitChars_cons, ← List.singleton_append, ← List.append_assoc, hone]
    exact hrest

/-- Digits without a zero in front are those of their number. -/
theorem Digits.eq_toDigits {cs : List Char} {m : Nat} (h : Digits cs m) : cs = Nat.toDigits 10 m := by
  obtain ⟨c, rest, rfl⟩ := List.exists_cons_of_ne_nil h.nonempty
  obtain ⟨hlt, hc⟩ := digitChar_of_isDigit (h.digits c (List.mem_cons_self ..))
  have hvalue := h.value
  by_cases h0 : c.toNat - 48 = 0
  · -- a zero in front is the only digit
    rw [h0] at hc
    have hone := h.lead (by rw [← hc]; rfl)
    rw [hone] at hvalue ⊢
    rw [← hvalue]
    rfl
  · have hrest := toDigits_append (fun d hd => h.digits d (List.mem_cons_of_mem c hd)) (Nat.pos_of_ne_zero h0)
    rw [Nat.toDigits_of_lt_base hlt, hc] at hrest
    rw [Nat.ofDigitChars_cons, Nat.mul_zero, Nat.zero_add] at hvalue
    rw [← hvalue]
    exact hrest

theorem head?_toDigits {m : Nat} (h : 0 < m) : (Nat.toDigits 10 m).head? ≠ some '0' := by
  induction m using Nat.strongRecOn with
  | ind m ih =>
    by_cases h10 : m < 10
    · rw [Nat.toDigits_of_lt_base h10, List.head?_cons, ne_eq, Option.some.injEq, Nat.digitChar_eq_zero]
      omega
    · -- the first digit is that of the number without its last digit
      have hrest := ih (m / 10) (by omega) (by omega)
      obtain ⟨c, cs, hcs⟩ := List.exists_cons_of_ne_nil (Nat.toDigits_ne_nil (n := m / 10) (b := 10))
      rw [Nat.toDigits_of_base_le (by decide) (by omega), hcs]
      rwa [hcs] at hrest

theorem digits_toDigits (m : Nat) : Digits (Nat.toDigits 10 m) m where
  nonempty := Nat.toDigits_ne_nil
  digits _ hc := Nat.isDigit_of_mem_toDigits (by decide) (by decide) hc
  lead hzero := by
    by_cases h0 : m = 0
    · rw [h0, Nat.toDigits_zero]
    · exact absurd hzero (head?_toDigits (Nat.pos_of_ne_zero h0))
  value := Nat.ofDigitChars_ten_toDigits

/-! ### Integers -/

theorem writes_integerText (n : Int) : Writes n (Json.integerText n) := by
  by_cases h : 0 ≤ n
  · rw [Json.integerText_of_nonneg h]
    obtain ⟨m, rfl⟩ := Int.eq_ofNat_of_zero_le h
    exact .nonneg (digits_toDigits m)
  · obtain ⟨m, rfl⟩ := Int.exists_eq_neg_ofNat (by omega : n ≤ 0)
    have hpos : 0 < m := by omega
    rw [Json.integerText_of_neg (by omega), Int.neg_neg]
    exact .negative (digits_toDigits m) hpos

/-- The text of an integer is the one it is given. -/
theorem writes_iff {n : Int} {cs : List Char} : Writes n cs ↔ cs = Json.integerText n := by
  constructor
  · intro h
    cases h with
    | nonneg digits =>
      rw [Json.integerText_of_nonneg (Int.natCast_nonneg _)]
      exact digits.eq_toDigits
    | negative digits pos =>
      rw [Json.integerText_of_neg (by omega), Int.neg_neg]
      exact congrArg _ digits.eq_toDigits
  · rintro rfl
    exact writes_integerText n

theorem Writes.ne_nil {n : Int} {cs : List Char} (h : Writes n cs) : cs ≠ [] := by
  cases h with
  | nonneg digits => exact digits.nonempty
  | negative _ _ => exact List.cons_ne_nil _ _

theorem not_digits_minus (cs : List Char) (m : Nat) : ¬Digits ('-' :: cs) m := by
  intro h
  have hminus := h.digits '-' (List.mem_cons_self ..)
  exact absurd hminus (by decide)

/-- Two integers do not have the same text. -/
theorem Writes.unique {m n : Int} {cs : List Char} (h : Writes m cs) (h' : Writes n cs) : m = n := by
  cases h with
  | nonneg digits =>
    cases h' with
    | nonneg digits' => rw [← digits.value, ← digits'.value]
    | negative _ _ => exact absurd digits (not_digits_minus _ _)
  | negative digits _ =>
    cases h' with
    | nonneg digits' => exact absurd digits' (not_digits_minus _ _)
    | negative digits' _ => rw [← digits.value, ← digits'.value]

end Lineage.Decimal
