import Lineage.Text.Utf8

/-!
# Text survives UTF-8

The bytes of a character make the decoder give that character and nothing else, so decoding what was encoded
gives back the text.
-/

namespace Lineage.Utf8

/-- The numbers of characters leave out the surrogates. -/
theorem toNat_of_char (c : Char) : c.toNat < 0xD800 ∨ 0xDFFF < c.toNat ∧ c.toNat < 0x110000 := by
  have := c.valid
  simpa [UInt32.isValidChar, Nat.isValidChar] using this

theorem toNat_byte {n : Nat} (h : n < 0x100) : (UInt8.ofNat n).toNat = n := by
  rw [UInt8.toNat_ofNat']
  omega

theorem encodeChar_ascii {c : Char} (h : c.toNat < 0x80) : encodeChar c = [UInt8.ofNat c.toNat] := by
  simp [encodeChar, h]

/-- No byte of a character outside ASCII is an ASCII character. -/
theorem le_of_mem_encodeChar {c : Char} (h : 0x80 ≤ c.toNat) : ∀ b ∈ encodeChar c, 0x80 ≤ b.toNat := by
  have hv := toNat_of_char c
  have hbyte : ∀ n, 0x80 ≤ n → n < 0x100 → 0x80 ≤ (UInt8.ofNat n).toNat := by
    intro n hl hh
    rw [toNat_byte hh]
    exact hl
  unfold encodeChar
  generalize c.toNat = n at *
  simp only [show ¬n < 0x80 by omega, ↓reduceIte]
  split
  · simp only [List.forall_mem_cons]
    exact ⟨hbyte _ (by omega) (by omega), hbyte _ (by omega) (by omega), by simp⟩
  split
  · simp only [List.forall_mem_cons]
    exact ⟨hbyte _ (by omega) (by omega), hbyte _ (by omega) (by omega), hbyte _ (by omega) (by omega), by simp⟩
  · simp only [List.forall_mem_cons]
    exact ⟨hbyte _ (by omega) (by omega), hbyte _ (by omega) (by omega), hbyte _ (by omega) (by omega),
      hbyte _ (by omega) (by omega), by simp⟩

/-- A byte of ASCII is only found in the character that it is. -/
theorem eq_of_mem_encodeChar {c : Char} {b : UInt8} (hb : b.toNat < 0x80) (h : b ∈ encodeChar c) :
    c = Char.ofNat b.toNat := by
  by_cases hc : c.toNat < 0x80
  · rw [encodeChar_ascii hc, List.mem_singleton] at h
    rw [h, toNat_byte (by omega), Char.ofNat_toNat]
  · have := le_of_mem_encodeChar (by omega) b h
    omega

theorem encode_append (as bs : List Char) : encode (as ++ bs) = encode as ++ encode bs :=
  List.flatMap_append

/-! ### First bytes -/

private theorem opened?_two {k : Nat} (hl : 2 ≤ k) (hh : k < 0x20) :
    opened? (UInt8.ofNat (0xC0 + k)) = some ⟨k, 1, 0x80, 0xBF⟩ := by
  have hb := toNat_byte (n := 0xC0 + k) (by omega)
  unfold opened?
  simp only [UInt8.lt_iff_toNat_lt, hb, UInt8.toNat_ofNat]
  rw [if_neg (by omega), if_pos (by omega)]
  simp

private theorem opened?_three {k : Nat} (hh : k < 0x10) :
    opened? (UInt8.ofNat (0xE0 + k)) =
      some ⟨k, 2, if k = 0 then 0xA0 else 0x80, if k = 0xD then 0x9F else 0xBF⟩ := by
  have hb := toNat_byte (n := 0xE0 + k) (by omega)
  unfold opened?
  simp only [UInt8.lt_iff_toNat_lt, hb, UInt8.toNat_ofNat, ← UInt8.toNat_inj]
  rw [if_neg (by omega), if_neg (by omega), if_pos (by omega)]
  simp only [Nat.add_sub_cancel_left]
  congr 3
  · simp
  · simp only [eq_iff_iff]
    omega

private theorem opened?_four {k : Nat} (hh : k < 5) :
    opened? (UInt8.ofNat (0xF0 + k)) =
      some ⟨k, 3, if k = 0 then 0x90 else 0x80, if k = 4 then 0x8F else 0xBF⟩ := by
  have hb := toNat_byte (n := 0xF0 + k) (by omega)
  unfold opened?
  simp only [UInt8.lt_iff_toNat_lt, hb, UInt8.toNat_ofNat, ← UInt8.toNat_inj]
  rw [if_neg (by omega), if_neg (by omega), if_neg (by omega), if_pos (by omega)]
  simp only [Nat.add_sub_cancel_left]
  congr 3
  · simp
  · simp only [eq_iff_iff]
    omega

namespace Decoder

private theorem feed_first {units : List (Option Char)} {b : UInt8} {o : Opened} (ho : opened? b = some o) :
    feed ⟨units, none⟩ b = ⟨units, some o⟩ := by
  have hb : ¬b < 0x80 := by
    intro hlt
    have hlt' : b < 0xC2 := by
      rw [UInt8.lt_iff_toNat_lt] at hlt ⊢
      exact Nat.lt_trans hlt (by decide)
    simp [opened?, hlt'] at ho
  simp [feed, begin, hb, ho]

variable {units : List (Option Char)} {bits more k : Nat} {low high : UInt8}

private theorem tail_in_range (hk : k < 0x40) (hl : low.toNat ≤ 0x80 + k) (hh : 0x80 + k ≤ high.toNat) :
    low ≤ UInt8.ofNat (0x80 + k) ∧ UInt8.ofNat (0x80 + k) ≤ high := by
  rw [UInt8.le_iff_toNat_le, UInt8.le_iff_toNat_le, toNat_byte (by omega)]
  exact ⟨hl, hh⟩

/-- A byte in the range of a character that has been opened, but not its last. -/
private theorem feed_next (hk : k < 0x40) (hl : low.toNat ≤ 0x80 + k) (hh : 0x80 + k ≤ high.toNat) :
    feed ⟨units, some ⟨bits, more + 2, low, high⟩⟩ (UInt8.ofNat (0x80 + k)) =
      ⟨units, some ⟨bits * 0x40 + k, more + 1, 0x80, 0xBF⟩⟩ := by
  have hb := toNat_byte (n := 0x80 + k) (by omega)
  have hm : ¬more + 2 ≤ 1 := by omega
  simp only [feed, tail_in_range hk hl hh, hb, hm, and_self, ↓reduceIte, Nat.add_sub_cancel_left]
  rfl

private theorem feed_last (hk : k < 0x40) (hl : low.toNat ≤ 0x80 + k) (hh : 0x80 + k ≤ high.toNat) :
    feed ⟨units, some ⟨bits, 1, low, high⟩⟩ (UInt8.ofNat (0x80 + k)) =
      ⟨some (Char.ofNat (bits * 0x40 + k)) :: units, none⟩ := by
  have hb := toNat_byte (n := 0x80 + k) (by omega)
  simp only [feed, tail_in_range hk hl hh, hb, Nat.le_refl, and_self, ↓reduceIte, Nat.add_sub_cancel_left]

private theorem feed_two {n : Nat} (hl : 0x80 ≤ n) (hh : n < 0x800) :
    [UInt8.ofNat (0xC0 + n / 0x40), UInt8.ofNat (0x80 + n % 0x40)].foldl feed ⟨units, none⟩ =
      ⟨some (Char.ofNat n) :: units, none⟩ := by
  have hn : n / 0x40 * 0x40 + n % 0x40 = n := Nat.div_add_mod' n 0x40
  simp only [List.foldl_cons, List.foldl_nil]
  rw [feed_first (opened?_two (by omega) (by omega)), feed_last (by omega) (by simp) (by simp; omega), hn]

/-- No overlong form comes after the first byte 0xE0, and no surrogate after 0xED. -/
private theorem feed_three {n : Nat} (hl : 0x800 ≤ n) (hh : n < 0x10000) (hv : n < 0xD800 ∨ 0xDFFF < n) :
    [UInt8.ofNat (0xE0 + n / 0x1000), UInt8.ofNat (0x80 + n / 0x40 % 0x40),
        UInt8.ofNat (0x80 + n % 0x40)].foldl feed ⟨units, none⟩ =
      ⟨some (Char.ofNat n) :: units, none⟩ := by
  have hn : (n / 0x1000 * 0x40 + n / 0x40 % 0x40) * 0x40 + n % 0x40 = n := by omega
  have hlow : (if n / 0x1000 = 0 then 0xA0 else 0x80 : UInt8).toNat ≤ 0x80 + n / 0x40 % 0x40 := by
    by_cases h0 : n / 0x1000 = 0
    · rw [if_pos h0]
      show 0xA0 ≤ _
      omega
    · rw [if_neg h0]
      exact Nat.le_add_right 0x80 _
  have hhigh : 0x80 + n / 0x40 % 0x40 ≤ (if n / 0x1000 = 0xD then 0x9F else 0xBF : UInt8).toNat := by
    by_cases hd : n / 0x1000 = 0xD
    · rw [if_pos hd]
      show _ ≤ 0x9F
      omega
    · rw [if_neg hd]
      show _ ≤ 0xBF
      omega
  simp only [List.foldl_cons, List.foldl_nil]
  rw [feed_first (opened?_three (by omega)), feed_next (by omega) hlow hhigh,
    feed_last (by omega) (by simp) (by simp; omega), hn]

/-- No overlong form comes after the first byte 0xF0, and no number beyond the last character after 0xF4. -/
private theorem feed_four {n : Nat} (hl : 0x10000 ≤ n) (hh : n < 0x110000) :
    [UInt8.ofNat (0xF0 + n / 0x40000), UInt8.ofNat (0x80 + n / 0x1000 % 0x40),
        UInt8.ofNat (0x80 + n / 0x40 % 0x40), UInt8.ofNat (0x80 + n % 0x40)].foldl feed ⟨units, none⟩ =
      ⟨some (Char.ofNat n) :: units, none⟩ := by
  have hn : ((n / 0x40000 * 0x40 + n / 0x1000 % 0x40) * 0x40 + n / 0x40 % 0x40) * 0x40 + n % 0x40 = n := by
    omega
  have hlow : (if n / 0x40000 = 0 then 0x90 else 0x80 : UInt8).toNat ≤ 0x80 + n / 0x1000 % 0x40 := by
    by_cases h0 : n / 0x40000 = 0
    · rw [if_pos h0]
      show 0x90 ≤ _
      omega
    · rw [if_neg h0]
      exact Nat.le_add_right 0x80 _
  have hhigh : 0x80 + n / 0x1000 % 0x40 ≤ (if n / 0x40000 = 4 then 0x8F else 0xBF : UInt8).toNat := by
    by_cases hd : n / 0x40000 = 4
    · rw [if_pos hd]
      show _ ≤ 0x8F
      omega
    · rw [if_neg hd]
      show _ ≤ 0xBF
      omega
  simp only [List.foldl_cons, List.foldl_nil]
  rw [feed_first (opened?_four (by omega)), feed_next (by omega) hlow hhigh,
    feed_next (by omega) (by simp) (by simp; omega), feed_last (by omega) (by simp) (by simp; omega), hn]

/-- The bytes of a character are read as that character. -/
theorem feed_encodeChar (units : List (Option Char)) (c : Char) :
    (encodeChar c).foldl feed ⟨units, none⟩ = ⟨some c :: units, none⟩ := by
  have hv := toNat_of_char c
  have hc := Char.ofNat_toNat c
  unfold encodeChar
  generalize c.toNat = n at *
  subst hc
  by_cases h1 : n < 0x80
  · have hb := toNat_byte (n := n) (by omega)
    have hlt : UInt8.ofNat n < 0x80 := by
      rw [UInt8.lt_iff_toNat_lt, hb]
      exact h1
    simp [h1, feed, begin, hlt, hb]
  by_cases h2 : n < 0x800
  · simp only [h1, h2, ↓reduceIte]
    exact feed_two (by omega) h2
  by_cases h3 : n < 0x10000
  · simp only [h1, h2, h3, ↓reduceIte]
    exact feed_three (by omega) h3 (by omega)
  · simp only [h1, h2, h3, ↓reduceIte]
    exact feed_four (by omega) (by omega)

theorem feed_encode (units : List (Option Char)) (cs : List Char) :
    (encode cs).foldl feed ⟨units, none⟩ = ⟨(cs.map some).reverse ++ units, none⟩ := by
  induction cs generalizing units with
  | nil => rfl
  | cons c cs ih =>
    show ((encodeChar c ++ encode cs).foldl feed ⟨units, none⟩) = _
    rw [List.foldl_append, feed_encodeChar, ih]
    simp

end Decoder

theorem units_encode (cs : List Char) : units (encode cs) = cs.map some := by
  unfold units
  rw [Decoder.start, Decoder.feed_encode, Decoder.finish]
  simp

/-- Decoding the bytes of a text gives the text. -/
theorem decode?_encode (cs : List Char) : decode? (encode cs) = some cs := by
  unfold decode?
  rw [units_encode]
  induction cs with
  | nil => rfl
  | cons c cs ih =>
    rw [List.map_cons, List.mapM_cons]
    simp [ih]

end Lineage.Utf8
