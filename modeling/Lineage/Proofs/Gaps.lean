import Lineage.Proofs.Utf8
import Mathlib.Data.List.Infix

/-!
# Text with gaps

`Utf8.HasUnits` says which characters and gaps a byte string has, without a decoder: a gap is the longest start of a
character that is never completed, or a byte that begins no character.  The decoder finds these units
(`hasUnits_units`), because the state it keeps admits exactly the characters that begin with the bytes read last
(`Opened.Begun`).
-/

namespace Lineage.Utf8

/-- The bytes, in front of the rest, stand for no character and are replaced as one. -/
inductive Gap (rest : Bytes) : Bytes → Prop
  | stray {b : UInt8} (dead : ∀ c, ¬[b] <+: encodeChar c) : Gap rest [b]
  | torn {bytes : Bytes} {c : Char} (nonempty : bytes ≠ []) (starts : bytes <+: encodeChar c)
    (unfinished : bytes ≠ encodeChar c) (longest : ∀ b, rest.head? = some b → ∀ c, ¬(bytes ++ [b]) <+: encodeChar c) :
    Gap rest bytes

/-- The bytes are those of the characters, with gaps between them. -/
inductive HasUnits : Bytes → List (Option Char) → Prop
  | nil : HasUnits [] []
  | char (c : Char) {rest : Bytes} {us : List (Option Char)} (next : HasUnits rest us) :
    HasUnits (encodeChar c ++ rest) (some c :: us)
  | gap {bytes rest : Bytes} {us : List (Option Char)} (gap : Gap rest bytes) (next : HasUnits rest us) :
    HasUnits (bytes ++ rest) (none :: us)

/-! ### Bytes behind the first -/

/-- A number without its last digits, so many of them, of six bits each. -/
def above : Nat → Nat → Nat
  | 0, n => n
  | k + 1, n => above k n / 0x40

/-- The last bytes, so many, of the character with this number. -/
def trail : Nat → Nat → Bytes
  | 0, _ => []
  | k + 1, n => UInt8.ofNat (0x80 + above k n % 0x40) :: trail k n

theorem above_one (n : Nat) : above 1 n = n / 0x40 :=
  rfl

theorem above_two (n : Nat) : above 2 n = n / 0x1000 :=
  Nat.div_div_eq_div_mul n 0x40 0x40

theorem above_three (n : Nat) : above 3 n = n / 0x40000 := by
  rw [above, above_two, Nat.div_div_eq_div_mul]

theorem exists_above_eq (k m : Nat) : ∃ n, above k n = m := by
  induction k generalizing m with
  | zero => exact ⟨m, rfl⟩
  | succ k ih =>
    obtain ⟨n, hn⟩ := ih (m * 0x40)
    exact ⟨n, by rw [above, hn, Nat.mul_div_cancel m (by decide)]⟩

theorem encodeChar_two {c : Char} (hl : 0x80 ≤ c.toNat) (hh : c.toNat < 0x800) :
    encodeChar c = UInt8.ofNat (0xC0 + above 1 c.toNat) :: trail 1 c.toNat := by
  simp only [encodeChar, if_neg (Nat.not_lt.2 hl), if_pos hh]
  rfl

theorem encodeChar_three {c : Char} (hl : 0x800 ≤ c.toNat) (hh : c.toNat < 0x10000) :
    encodeChar c = UInt8.ofNat (0xE0 + above 2 c.toNat) :: trail 2 c.toNat := by
  have h1 : ¬c.toNat < 0x80 := by omega
  simp only [encodeChar, if_neg h1, if_neg (Nat.not_lt.2 hl), if_pos hh, above_two]
  rfl

theorem encodeChar_four {c : Char} (hl : 0x10000 ≤ c.toNat) :
    encodeChar c = UInt8.ofNat (0xF0 + above 3 c.toNat) :: trail 3 c.toNat := by
  have h1 : ¬c.toNat < 0x80 := by omega
  have h2 : ¬c.toNat < 0x800 := by omega
  simp only [encodeChar, trail, if_neg h1, if_neg h2, if_neg (Nat.not_lt.2 hl), above_two, above_three]
  rfl

/-- The first byte of a character tells how many follow. -/
theorem first_cases {b : UInt8} {c : Char} (h : [b] <+: encodeChar c) :
    (c.toNat < 0x80 ∧ b.toNat = c.toNat) ∨
      (0x80 ≤ c.toNat ∧ c.toNat < 0x800 ∧ b.toNat = 0xC0 + c.toNat / 0x40) ∨
      (0x800 ≤ c.toNat ∧ c.toNat < 0x10000 ∧ b.toNat = 0xE0 + c.toNat / 0x1000) ∨
      (0x10000 ≤ c.toNat ∧ b.toNat = 0xF0 + c.toNat / 0x40000) := by
  have hv := toNat_of_char c
  by_cases h1 : c.toNat < 0x80
  · rw [encodeChar_ascii h1, List.cons_prefix_cons] at h
    rw [h.1, toNat_byte (by omega)]
    exact .inl ⟨h1, rfl⟩
  by_cases h2 : c.toNat < 0x800
  · rw [encodeChar_two (by omega) h2, List.cons_prefix_cons] at h
    rw [h.1, above_one, toNat_byte (by omega)]
    exact .inr (.inl ⟨by omega, h2, rfl⟩)
  by_cases h3 : c.toNat < 0x10000
  · rw [encodeChar_three (by omega) h3, List.cons_prefix_cons] at h
    rw [h.1, above_two, toNat_byte (by omega)]
    exact .inr (.inr (.inl ⟨by omega, h3, rfl⟩))
  · rw [encodeChar_four (by omega), List.cons_prefix_cons] at h
    rw [h.1, above_three, toNat_byte (by omega)]
    exact .inr (.inr (.inr ⟨by omega, rfl⟩))

/-- The number of a character that is made of a number. -/
theorem toNat_ofNat {n : Nat} (h : n.isValidChar) : (Char.ofNat n).toNat = n := by
  rw [Char.ofNat, dif_pos h]
  rfl

/-- A byte of ASCII is the character with its number. -/
theorem encodeChar_ofNat {b : UInt8} (hb : b.toNat < 0x80) : encodeChar (Char.ofNat b.toNat) = [b] := by
  have hnum : (Char.ofNat b.toNat).toNat = b.toNat := toNat_ofNat (.inl (Nat.lt_trans hb (by decide)))
  rw [encodeChar_ascii (by rw [hnum]; exact hb), hnum, UInt8.ofNat_toNat]

namespace Opened

/-- The numbers that a character may turn out to have when `k + 1` bytes are still to come. -/
def Admits (o : Opened) (k n : Nat) : Prop :=
  above (k + 1) n = o.bits ∧ o.low.toNat ≤ 0x80 + above k n % 0x40 ∧ 0x80 + above k n % 0x40 ≤ o.high.toNat

/-- The bytes are the first of a character, of which `k + 1` are still to come.  Exactly the characters that begin
with these bytes are admitted, and there is one. -/
structure Begun (o : Opened) (k : Nat) (bytes : Bytes) : Prop where
  more : o.more = k + 1
  range : 0x80 ≤ o.low.toNat ∧ o.low.toNat ≤ o.high.toNat ∧ o.high.toNat ≤ 0xBF
  bytes_ne_nil : bytes ≠ []
  valid : ∀ n, o.Admits k n → n.isValidChar
  encode : ∀ c : Char, o.Admits k c.toNat → encodeChar c = bytes ++ trail (k + 1) c.toNat
  admits : ∀ c, bytes <+: encodeChar c → o.Admits k c.toNat

variable {b : UInt8} {o : Opened} {k : Nat} {bytes : Bytes}

theorem admits_zero_iff {n : Nat} :
    o.Admits 0 n ↔ n / 0x40 = o.bits ∧ o.low.toNat ≤ 0x80 + n % 0x40 ∧ 0x80 + n % 0x40 ≤ o.high.toNat :=
  Iff.rfl

theorem admits_one_iff {n : Nat} :
    o.Admits 1 n ↔
      n / 0x1000 = o.bits ∧ o.low.toNat ≤ 0x80 + n / 0x40 % 0x40 ∧ 0x80 + n / 0x40 % 0x40 ≤ o.high.toNat := by
  rw [Admits, above_one, above_two]

theorem admits_two_iff {n : Nat} :
    o.Admits 2 n ↔
      n / 0x40000 = o.bits ∧ o.low.toNat ≤ 0x80 + n / 0x1000 % 0x40 ∧ 0x80 + n / 0x1000 % 0x40 ≤ o.high.toNat := by
  rw [Admits, above_two, above_three]

/-- A first byte that leaves some bits of the number to be read. -/
theorem begun_first {lead : Nat} (hb : b.toNat = lead + o.bits) (hmore : o.more = k + 1)
    (hrange : 0x80 ≤ o.low.toNat ∧ o.low.toNat ≤ o.high.toNat ∧ o.high.toNat ≤ 0xBF)
    (hvalid : ∀ n, o.Admits k n → n.isValidChar)
    (hencode : ∀ c : Char, o.Admits k c.toNat →
      encodeChar c = UInt8.ofNat (lead + above (k + 1) c.toNat) :: trail (k + 1) c.toNat)
    (hadmits : ∀ c, [b] <+: encodeChar c → o.Admits k c.toNat) : o.Begun k [b] where
  more := hmore
  range := hrange
  bytes_ne_nil := List.cons_ne_nil b []
  valid := hvalid
  encode c hc := by
    rw [hencode c hc, hc.1, ← hb, UInt8.ofNat_toNat]
    rfl
  admits := hadmits

private theorem begun_two (hb : b.toNat = 0xC0 + o.bits) (hbits : 2 ≤ o.bits ∧ o.bits < 0x20) (hmore : o.more = 1)
    (hlow : o.low.toNat = 0x80) (hhigh : o.high.toNat = 0xBF) : o.Begun 0 [b] := by
  refine begun_first hb hmore (by omega) ?_ ?_ ?_
  · intro n hin
    obtain ⟨hn, -, -⟩ := admits_zero_iff.1 hin
    left
    omega
  · intro c hin
    obtain ⟨hn, -, -⟩ := admits_zero_iff.1 hin
    exact encodeChar_two (by omega) (by omega)
  · intro c hc
    have hv := toNat_of_char c
    have hfirst := first_cases hc
    refine admits_zero_iff.2 ⟨?_, ?_, ?_⟩ <;> omega

/-- No overlong form comes after the first byte 0xE0, and no surrogate after 0xED. -/
private theorem begun_three (hb : b.toNat = 0xE0 + o.bits) (hbits : o.bits < 0x10) (hmore : o.more = 2)
    (hlow : o.low.toNat = if o.bits = 0 then 0xA0 else 0x80)
    (hhigh : o.high.toNat = if o.bits = 0xD then 0x9F else 0xBF) : o.Begun 1 [b] := by
  refine begun_first hb hmore (by split_ifs at hlow hhigh <;> omega) ?_ ?_ ?_
  · intro n hin
    obtain ⟨hn, hl, hh⟩ := admits_one_iff.1 hin
    unfold Nat.isValidChar
    split_ifs at hlow hhigh <;> omega
  · intro c hin
    obtain ⟨hn, hl, hh⟩ := admits_one_iff.1 hin
    refine encodeChar_three ?_ ?_ <;> split_ifs at hlow hhigh <;> omega
  · intro c hc
    have hv := toNat_of_char c
    have hfirst := first_cases hc
    refine admits_one_iff.2 ⟨?_, ?_, ?_⟩ <;> split_ifs at hlow hhigh <;> omega

/-- No overlong form comes after the first byte 0xF0, and no number beyond the last character after 0xF4. -/
private theorem begun_four (hb : b.toNat = 0xF0 + o.bits) (hbits : o.bits < 5) (hmore : o.more = 3)
    (hlow : o.low.toNat = if o.bits = 0 then 0x90 else 0x80)
    (hhigh : o.high.toNat = if o.bits = 4 then 0x8F else 0xBF) : o.Begun 2 [b] := by
  refine begun_first hb hmore (by split_ifs at hlow hhigh <;> omega) ?_ ?_ ?_
  · intro n hin
    obtain ⟨hn, hl, hh⟩ := admits_two_iff.1 hin
    unfold Nat.isValidChar
    split_ifs at hlow hhigh <;> omega
  · intro c hin
    obtain ⟨hn, hl, hh⟩ := admits_two_iff.1 hin
    refine encodeChar_four ?_
    split_ifs at hlow hhigh <;> omega
  · intro c hc
    have hv := toNat_of_char c
    have hfirst := first_cases hc
    refine admits_two_iff.2 ⟨?_, ?_, ?_⟩ <;> split_ifs at hlow hhigh <;> omega

theorem begun_of_opened? (h : opened? b = some o) : ∃ k, o.Begun k [b] := by
  simp only [opened?, UInt8.lt_iff_toNat_lt, ← UInt8.toNat_inj, UInt8.toNat_ofNat] at h
  split at h
  · cases h
  split at h
  · obtain rfl := Option.some.inj h
    exact ⟨0, begun_two (by simp only; omega) (by simp only; omega) rfl rfl rfl⟩
  split at h
  · obtain rfl := Option.some.inj h
    refine ⟨1, begun_three (by simp only; omega) (by simp only; omega) rfl ?_ ?_⟩
    · simp only [show b.toNat - 0xE0 = 0 ↔ b.toNat = 0xE0 by omega]
      split <;> rfl
    · simp only [show b.toNat - 0xE0 = 0xD ↔ b.toNat = 0xED by omega]
      split <;> rfl
  split at h
  · obtain rfl := Option.some.inj h
    refine ⟨2, begun_four (by simp only; omega) (by simp only; omega) rfl ?_ ?_⟩
    · simp only [show b.toNat - 0xF0 = 0 ↔ b.toNat = 0xF0 by omega]
      split <;> rfl
    · simp only [show b.toNat - 0xF0 = 4 ↔ b.toNat = 0xF4 by omega]
      split <;> rfl
  · cases h

theorem not_starts_of_opened? (hb : 0x80 ≤ b.toNat) (h : opened? b = none) (c : Char) : ¬[b] <+: encodeChar c := by
  intro hc
  have hv := toNat_of_char c
  have hfirst := first_cases hc
  simp only [opened?, UInt8.lt_iff_toNat_lt, UInt8.toNat_ofNat] at h
  split at h
  · omega
  split at h
  · cases h
  split at h
  · cases h
  split at h
  · cases h
  · omega

/-! ### The next byte -/

namespace Begun

variable (h : o.Begun k bytes)

include h

theorem exists_admitted : ∃ c : Char, o.Admits k c.toNat := by
  obtain ⟨hl, hlh, hh⟩ := h.range
  obtain ⟨n, hn⟩ := exists_above_eq k (o.bits * 0x40 + (o.low.toNat - 0x80))
  have hadmits : o.Admits k n := by
    unfold Admits
    rw [above, hn]
    omega
  refine ⟨Char.ofNat n, ?_⟩
  rwa [toNat_ofNat (h.valid n hadmits)]

theorem gap (rest : Bytes) (hlongest : ∀ b, rest.head? = some b → ∀ c, ¬(bytes ++ [b]) <+: encodeChar c) :
    Gap rest bytes := by
  obtain ⟨c, hc⟩ := h.exists_admitted
  have hcode := h.encode c hc
  refine .torn (c := c) h.bytes_ne_nil ⟨_, hcode.symm⟩ ?_ hlongest
  rw [hcode]
  simp [trail]

/-- Which characters begin with one more byte. -/
theorem append_starts_iff {b : UInt8} {c : Char} :
    (bytes ++ [b]) <+: encodeChar c ↔ o.Admits k c.toNat ∧ b.toNat = 0x80 + above k c.toNat % 0x40 := by
  -- the bytes are the first of the character, so the next of its trail decides
  have hbyte : ∀ n, b = UInt8.ofNat (0x80 + above k n % 0x40) ↔ b.toNat = 0x80 + above k n % 0x40 := by
    intro n
    rw [← UInt8.toNat_inj, toNat_byte (by omega)]
  have hstarts : o.Admits k c.toNat → ((bytes ++ [b]) <+: encodeChar c ↔ b.toNat = 0x80 + above k c.toNat % 0x40) := by
    intro hc
    rw [h.encode c hc, List.prefix_append_right_inj, trail, List.cons_prefix_cons, hbyte]
    simp
  constructor
  · intro hpre
    have hc := h.admits c ((List.prefix_append bytes [b]).trans hpre)
    exact ⟨hc, (hstarts hc).1 hpre⟩
  · rintro ⟨hc, hb⟩
    exact (hstarts hc).2 hb

/-- A byte out of range continues no character that begins so. -/
theorem not_append_starts {b : UInt8} (hb : ¬(o.low ≤ b ∧ b ≤ o.high)) (c : Char) :
    ¬(bytes ++ [b]) <+: encodeChar c := by
  rw [h.append_starts_iff]
  rintro ⟨⟨-, hl, hh⟩, hbyte⟩
  rw [← hbyte] at hl hh
  exact hb ⟨UInt8.le_iff_toNat_le.2 hl, UInt8.le_iff_toNat_le.2 hh⟩

end Begun

/-- A byte in range leaves its bits. -/
theorem Begun.next {b : UInt8} (h : o.Begun (k + 1) bytes) (hb : o.low ≤ b ∧ b ≤ o.high) :
    Begun ⟨o.bits * 0x40 + (b.toNat - 0x80), o.more - 1, 0x80, 0xBF⟩ k (bytes ++ [b]) := by
  obtain ⟨hl, hlh, hh⟩ := h.range
  rw [UInt8.le_iff_toNat_le, UInt8.le_iff_toNat_le] at hb
  have hadmits : ∀ n, Admits ⟨o.bits * 0x40 + (b.toNat - 0x80), o.more - 1, 0x80, 0xBF⟩ k n ↔
      o.Admits (k + 1) n ∧ b.toNat = 0x80 + above (k + 1) n % 0x40 := by
    intro n
    unfold Admits
    simp only [above, UInt8.toNat_ofNat]
    omega
  refine ⟨?_, ?_, by simp, ?_, ?_, ?_⟩
  · rw [h.more]
    rfl
  · simp only [UInt8.toNat_ofNat]
    omega
  · exact fun n hn => h.valid n ((hadmits n).1 hn).1
  · intro c hc
    obtain ⟨hold, hbyte⟩ := (hadmits c.toNat).1 hc
    rw [h.encode c hold, trail, ← hbyte, UInt8.ofNat_toNat, List.append_assoc, List.singleton_append]
  · intro c hc
    exact (hadmits c.toNat).2 (h.append_starts_iff.1 hc)

theorem Begun.last {b : UInt8} (h : o.Begun 0 bytes) (hb : o.low ≤ b ∧ b ≤ o.high) :
    encodeChar (Char.ofNat (o.bits * 0x40 + (b.toNat - 0x80))) = bytes ++ [b] := by
  obtain ⟨hl, hlh, hh⟩ := h.range
  rw [UInt8.le_iff_toNat_le, UInt8.le_iff_toNat_le] at hb
  have hadmits : o.Admits 0 (o.bits * 0x40 + (b.toNat - 0x80)) := by
    unfold Admits
    simp only [above]
    omega
  have hnum := toNat_ofNat (h.valid _ hadmits)
  have hcode := h.encode (Char.ofNat (o.bits * 0x40 + (b.toNat - 0x80))) (hnum.symm ▸ hadmits)
  rw [hcode, hnum]
  have hbyte : 0x80 + (o.bits * 0x40 + (b.toNat - 0x80)) % 0x40 = b.toNat := by omega
  rw [trail, trail, above, hbyte, UInt8.ofNat_toNat]

end Opened

/-! ### The whole byte string -/

namespace Decoder

/-- Reading the rest adds the units of these bytes. -/
def Finds (d : Decoder) (rest bytes : Bytes) : Prop :=
  ∃ us, (rest.foldl feed d).finish = d.units.reverse ++ us ∧ HasUnits bytes us

variable {units : List (Option Char)} {u : Option Char} {rest bytes bytes' : Bytes} {opened : Option Opened}

theorem Finds.unit (h : Finds ⟨u :: units, opened⟩ rest bytes)
    (hu : ∀ us, HasUnits bytes us → HasUnits bytes' (u :: us)) :
    ∃ us, (rest.foldl feed ⟨u :: units, opened⟩).finish = units.reverse ++ us ∧ HasUnits bytes' us := by
  obtain ⟨us, hfinish, hus⟩ := h
  refine ⟨u :: us, ?_, hu us hus⟩
  rw [hfinish, List.reverse_cons, List.append_assoc, List.singleton_append]

/-- What the decoder finds in the rest, between two characters and within one. -/
structure FindsAll (rest : Bytes) : Prop where
  between : ∀ units, Finds ⟨units, none⟩ rest rest
  within : ∀ units o k bytes, o.Begun k bytes → Finds ⟨units, some o⟩ rest (bytes ++ rest)

theorem finds_begin (h : FindsAll rest) (units : List (Option Char)) (b : UInt8) :
    ∃ us, (rest.foldl feed (begin units b)).finish = units.reverse ++ us ∧ HasUnits (b :: rest) us := by
  unfold begin
  by_cases hb : b < 0x80
  · rw [if_pos hb]
    rw [UInt8.lt_iff_toNat_lt] at hb
    refine (h.between _).unit fun us hus => ?_
    have hunits := HasUnits.char (Char.ofNat b.toNat) hus
    rwa [encodeChar_ofNat hb] at hunits
  · rw [if_neg hb]
    cases ho : opened? b with
    | some o =>
      obtain ⟨k, hbegun⟩ := Opened.begun_of_opened? ho
      exact h.within units o k [b] hbegun
    | none =>
      rw [UInt8.lt_iff_toNat_lt, Nat.not_lt] at hb
      exact (h.between _).unit fun us hus => .gap (.stray (Opened.not_starts_of_opened? hb ho)) hus

theorem findsAll (rest : Bytes) : FindsAll rest := by
  -- both states at once: a byte that ends a character too early is read again as a first one
  induction rest with
  | nil =>
    refine ⟨fun units => ⟨[], by simp [finish], .nil⟩, fun units o k bytes hbegun => ⟨[none], by simp [finish], ?_⟩⟩
    exact .gap (hbegun.gap [] fun b hb => by cases hb) .nil
  | cons b rest ih =>
    refine ⟨fun units => finds_begin ih units b, fun units o k bytes hbegun => ?_⟩
    unfold Finds
    rw [List.foldl_cons, feed]
    simp only
    by_cases hb : o.low ≤ b ∧ b ≤ o.high
    · rw [if_pos hb, hbegun.more]
      cases k with
      | zero =>
        rw [if_pos (Nat.le_refl 1)]
        refine (ih.between _).unit fun us hus => ?_
        have hunits := HasUnits.char (Char.ofNat (o.bits * 0x40 + (b.toNat - 0x80))) hus
        rwa [hbegun.last hb, List.append_assoc, List.singleton_append] at hunits
      | succ k =>
        have hnext := ih.within units _ k _ (hbegun.next hb)
        rw [List.append_assoc, hbegun.more] at hnext
        rw [if_neg (by omega)]
        exact hnext
    · -- the byte that does not go on with the character begins the next one
      rw [if_neg hb]
      obtain ⟨us, hfinish, hus⟩ := finds_begin ih (none :: units) b
      refine ⟨none :: us, ?_, ?_⟩
      · rw [hfinish, List.reverse_cons, List.append_assoc, List.singleton_append]
      · exact .gap (hbegun.gap (b :: rest) fun b' hb' => by cases hb'; exact hbegun.not_append_starts hb) hus

end Decoder

/-! ### What units tell of the bytes -/

theorem encodeChar_ne_nil (c : Char) : encodeChar c ≠ [] := by
  simp only [encodeChar]
  split_ifs <;> simp

section

variable {bytes rest : Bytes} {us : List (Option Char)}

theorem Gap.ne_nil (h : Gap rest bytes) : bytes ≠ [] := by
  cases h with
  | stray _ => exact List.cons_ne_nil _ []
  | torn nonempty _ _ _ => exact nonempty

/-- No character of ASCII is lost in a gap. -/
theorem Gap.le_of_mem (h : Gap rest bytes) : ∀ b ∈ bytes, 0x80 ≤ b.toNat := by
  intro b hb
  by_contra hlt
  rw [Nat.not_le] at hlt
  cases h with
  | stray dead =>
    obtain rfl := List.mem_singleton.1 hb
    apply dead (Char.ofNat b.toNat)
    rw [encodeChar_ofNat hlt]
  | @torn _ c nonempty starts unfinished _ =>
    by_cases hc : c.toNat < 0x80
    · -- such a character has one byte, so no start of it is unfinished
      rw [encodeChar_ascii hc] at starts unfinished
      rcases List.prefix_cons_iff.1 starts with hnil | ⟨more, rfl, hmore⟩
      · exact nonempty hnil
      · rw [List.prefix_nil.1 hmore] at unfinished
        exact unfinished rfl
    · have hle := le_of_mem_encodeChar (Nat.not_lt.1 hc) b (starts.subset hb)
      omega

theorem HasUnits.eq_nil_iff (h : HasUnits bytes us) : us = [] ↔ bytes = [] := by
  cases h with
  | nil => simp
  | char c next => simp [encodeChar_ne_nil]
  | gap gap next => simp [gap.ne_nil]

end

/-! ### The units that are found -/

/-- The units of a byte string are its characters and its gaps. -/
theorem hasUnits_units (bytes : Bytes) : HasUnits bytes (units bytes) := by
  obtain ⟨us, hfinish, hus⟩ := (Decoder.findsAll bytes).between []
  rwa [units, Decoder.start, hfinish]

end Lineage.Utf8
