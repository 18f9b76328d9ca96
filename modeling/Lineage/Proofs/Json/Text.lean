import Lineage.Json.Writer
import Lineage.Proofs.Json.Feed
import Lineage.Proofs.Utf8

/-!
# Strings survive writing and reading

A character is written as itself or as an escape, and either way the reader appends the bytes of that character
to the content of the string (`feedAll_escape`).  At the closing quote the content is decoded again.
-/

namespace Lineage.Json

namespace State

variable (role : Role) (content : Bytes) (outer : List Frame)

/-! ### Characters that stand for themselves -/

/-- The byte stands for itself inside a string. -/
def Plain (b : UInt8) : Prop :=
  b ≠ 0x22 ∧ b ≠ 0x5C ∧ ¬b < 0x20

private theorem plain_iff {b : UInt8} : Plain b ↔ b.toNat ≠ 0x22 ∧ b.toNat ≠ 0x5C ∧ 0x20 ≤ b.toNat := by
  simp [Plain, ← UInt8.toNat_inj, UInt8.lt_iff_toNat_lt]

theorem plain_encodeChar {c : Char} (hq : c ≠ '"') (hb : c ≠ '\\') (hc : ¬c.toNat < 0x20) :
    ∀ b ∈ Utf8.encodeChar c, Plain b := by
  intro b hmem
  rw [plain_iff]
  by_cases ha : c.toNat < 0x80
  · have hq' : c.toNat ≠ 0x22 := fun h => hq (by rw [← Char.ofNat_toNat c, h])
    have hb' : c.toNat ≠ 0x5C := fun h => hb (by rw [← Char.ofNat_toNat c, h])
    rw [Utf8.encodeChar_ascii ha, List.mem_singleton] at hmem
    rw [hmem, Utf8.toNat_byte (by omega)]
    omega
  · have := Utf8.le_of_mem_encodeChar (by omega) b hmem
    omega

theorem feedAll_plain {bytes : Bytes} (h : ∀ b ∈ bytes, Plain b) :
    feedAll (.reading (.text role content .none) outer) bytes =
      .ok (.reading (.text role (bytes.reverse ++ content) .none) outer) := by
  induction bytes generalizing content with
  | nil => rfl
  | cons b bs ih =>
    obtain ⟨h1, h2, h3⟩ := h b (List.mem_cons_self ..)
    have hb : feed (.reading (.text role content .none) outer) b =
        .ok (.reading (.text role (b :: content) .none) outer) := by
      simp [feed, textByte, h1, h2, h3]
    rw [feedAll_cons_ok hb, ih _ fun b' hb' => h b' (List.mem_cons_of_mem _ hb')]
    simp

/-! ### Escapes -/

private theorem hexNumber?_digits : ∀ n < 0x20,
    hexNumber? [0x30, 0x30, UInt8.ofNat (hexDigit (n / 16)).toNat, UInt8.ofNat (hexDigit n).toNat] = some n := by
  decide

private theorem encode_hex : ∀ n < 0x20,
    Utf8.encode ['\\', 'u', '0', '0', hexDigit (n / 16), hexDigit n] =
      [0x5C, 0x75, 0x30, 0x30, UInt8.ofNat (hexDigit (n / 16)).toNat, UInt8.ofNat (hexDigit n).toNat] := by
  decide

private theorem feedAll_hex {c : Char} (hc : c.toNat < 0x20) :
    feedAll (.reading (.text role content .none) outer)
        (Utf8.encode ['\\', 'u', '0', '0', hexDigit (c.toNat / 16), hexDigit c.toNat]) =
      .ok (.reading (.text role ((Utf8.encodeChar c).reverse ++ content) .none) outer) := by
  have hn := hexNumber?_digits c.toNat hc
  have hlow : isLowHalf c.toNat = false := by
    simp [isLowHalf]
    omega
  have hhigh : isHighHalf c.toNat = false := by
    simp [isHighHalf]
    omega
  rw [encode_hex c.toNat hc]
  generalize UInt8.ofNat (hexDigit (c.toNat / 16)).toNat = x at *
  generalize UInt8.ofNat (hexDigit c.toNat).toNat = y at *
  have hlast : feed (.reading (.text role content (.hex none [x, 0x30, 0x30])) outer) y =
      .ok (.reading (.text role ((Utf8.encodeChar c).reverse ++ content) .none) outer) := by
    show hexEscape role content outer none [0x30, 0x30, x, y] = _
    simp [hexEscape, hn, hlow, hhigh]
  calc
    _ = feedAll (.reading (.text role content (.hex none [x, 0x30, 0x30])) outer) [y] := rfl
    _ = _ := feedAll_cons_ok hlast []

/-- A character, written as the writer does, is appended to the content. -/
theorem feedAll_escape (c : Char) :
    feedAll (.reading (.text role content .none) outer) (Utf8.encode (escape c)) =
      .ok (.reading (.text role ((Utf8.encodeChar c).reverse ++ content) .none) outer) := by
  unfold escape
  split
  · subst_vars; rfl
  split
  · subst_vars; rfl
  split
  · subst_vars; rfl
  split
  · subst_vars; rfl
  split
  · subst_vars; rfl
  split
  · subst_vars; rfl
  split
  · subst_vars; rfl
  split
  · exact feedAll_hex role content outer ‹_›
  · have hp := plain_encodeChar ‹c ≠ '"'› ‹c ≠ '\\'› ‹_›
    rw [Utf8.encode, List.flatMap_singleton, feedAll_plain role content outer hp]

theorem feedAll_escapes (cs : List Char) :
    feedAll (.reading (.text role content .none) outer) (Utf8.encode (cs.flatMap escape)) =
      .ok (.reading (.text role ((Utf8.encode cs).reverse ++ content) .none) outer) := by
  induction cs generalizing content with
  | nil => rfl
  | cons c cs ih =>
    have hcons : Utf8.encode (c :: cs) = Utf8.encodeChar c ++ Utf8.encode cs := rfl
    rw [List.flatMap_cons, Utf8.encode_append, feedAll_append_ok (feedAll_escape role content outer c), ih, hcons]
    simp

/-- The state after the closing quote of a string. -/
def afterText (s : String) : State :=
  match role with
  | .value => deliver (.string s) outer
  | .name before => .reading (.colon before s) outer

theorem closeText_encode (s : String) :
    closeText role (Utf8.encode s.toList).reverse outer = .ok (afterText role outer s) := by
  unfold closeText
  simp only [List.reverse_reverse, Utf8.decode?_encode, String.ofList_toList]
  cases role <;> rfl

/-- A string in quotes, from behind the first of them. -/
theorem feedAll_quoted (s : String) :
    feedAll (.reading (.text role [] .none) outer) (Utf8.encode (s.toList.flatMap escape ++ ['"'])) =
      .ok (afterText role outer s) := by
  have hclose : feed (.reading (.text role ((Utf8.encode s.toList).reverse ++ []) .none) outer) 0x22 =
      .ok (afterText role outer s) := by
    rw [List.append_nil]
    exact closeText_encode role outer s
  rw [Utf8.encode_append, feedAll_append_ok (feedAll_escapes role [] outer s.toList)]
  exact feedAll_cons_ok hclose []

end State

end Lineage.Json
