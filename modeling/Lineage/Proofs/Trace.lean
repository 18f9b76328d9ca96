import Lineage.Audit
import Lineage.Proofs.Gaps

/-!
# Traces are shown as they are

A text that is valid is read as it is, and where it is not, what is replaced holds no line break.  So the lines of a
trace are those of its bytes (`FileTree.readTrace_lines`).
-/

namespace Lineage

namespace Trace

/-! ### Lines of a text -/

theorem lines_cons (c : Char) (rest : List Char) : lines (c :: rest) = addChar c (lines rest) :=
  rfl

theorem lines_eq_nil_iff {text : List Char} : lines text = [] ↔ text = [] := by
  cases text with
  | nil => simp [lines]
  | cons c rest =>
    rw [lines_cons]
    unfold addChar
    split_ifs
    · simp
    · split <;> simp

theorem lineCount_newline (rest : List Char) : lineCount ('\n' :: rest) = lineCount rest + 1 := by
  rw [lineCount, lines_cons]
  unfold addChar
  rw [if_pos rfl, List.length_cons, lineCount]

theorem lineCount_cons {c : Char} (hc : c ≠ '\n') (rest : List Char) :
    lineCount (c :: rest) = max 1 (lineCount rest) := by
  rw [lineCount, lines_cons]
  unfold addChar lineCount
  rw [if_neg hc]
  cases lines rest with
  | nil => rfl
  | cons line more => simp

theorem lineCount_pos {rest : List Char} (h : rest ≠ []) : 0 < lineCount rest := by
  rw [lineCount, List.length_pos_iff, ne_eq, lines_eq_nil_iff]
  exact h

/-- Every line break ends a line, and what stands behind the last one is a line too. -/
theorem lineCount_eq (text : List Char) :
    lineCount text = text.count '\n' + if text = [] ∨ text.getLast? = some '\n' then 0 else 1 := by
  induction text with
  | nil => rfl
  | cons c rest ih =>
    by_cases hc : c = '\n'
    · subst hc
      rw [lineCount_newline, ih, List.count_cons_self]
      cases rest with
      | nil => rfl
      | cons d rest =>
        rw [List.getLast?_cons_cons]
        simp only [List.cons_ne_nil, false_or]
        omega
    · rw [lineCount_cons hc, List.count_cons_of_ne hc]
      cases rest with
      | nil => simp [hc, lineCount, lines]
      | cons d rest =>
        have hpos := lineCount_pos (List.cons_ne_nil d rest)
        rw [Nat.max_eq_right hpos, ih, List.getLast?_cons_cons]
        simp only [List.cons_ne_nil, false_or]

end Trace

namespace Utf8

/-! ### Line breaks in bytes -/

theorem newline_mem_encodeChar_iff {c : Char} : 0x0A ∈ encodeChar c ↔ c = '\n' := by
  constructor
  · exact fun h => eq_of_mem_encodeChar (by decide) h
  · rintro rfl
    decide

theorem count_newline_encodeChar (c : Char) : (encodeChar c).count 0x0A = [c].count '\n' := by
  by_cases hc : c = '\n'
  · subst hc
    decide
  · rw [List.count_eq_zero_of_not_mem fun h => hc (newline_mem_encodeChar_iff.1 h), List.count_singleton]
    simp [hc]

theorem getLast?_encodeChar (c : Char) : (encodeChar c).getLast? = some 0x0A ↔ [c].getLast? = some '\n' := by
  constructor
  · intro h
    rw [newline_mem_encodeChar_iff.1 (List.mem_of_getLast? h)]
    rfl
  · intro h
    obtain rfl : c = '\n' := Option.some.inj h
    rfl

/-- The text that the units leave, with every gap replaced. -/
def filled (us : List (Option Char)) : List Char :=
  us.map (·.getD replacement)

variable {bytes : Bytes} {us : List (Option Char)}

theorem filled_cons (u : Option Char) (us : List (Option Char)) : filled (u :: us) = [u.getD replacement] ++ filled us :=
  rfl

theorem HasUnits.count_newline (h : HasUnits bytes us) : (filled us).count '\n' = bytes.count 0x0A := by
  induction h with
  | nil => rfl
  | char c next ih =>
    rw [filled_cons, List.count_append, List.count_append, ih, count_newline_encodeChar]
    rfl
  | gap gap next ih =>
    have hnone := List.count_eq_zero_of_not_mem fun hmem => absurd (gap.le_of_mem 0x0A hmem) (by decide)
    rw [filled_cons, List.count_append, List.count_append, ih, hnone]
    rfl

/-- One more unit at the front changes nothing at the end, unless it is alone. -/
private theorem ends_append {piece : List Char} {front : Bytes} {text : List Char} (hnil : text = [] ↔ bytes = [])
    (hfront : piece.getLast? = some '\n' ↔ front.getLast? = some 0x0A)
    (h : text.getLast? = some '\n' ↔ bytes.getLast? = some 0x0A) :
    (piece ++ text).getLast? = some '\n' ↔ (front ++ bytes).getLast? = some 0x0A := by
  by_cases hbytes : bytes = []
  · rwa [hnil.2 hbytes, hbytes, List.append_nil, List.append_nil]
  · rwa [List.getLast?_append_of_ne_nil _ (mt hnil.1 hbytes), List.getLast?_append_of_ne_nil _ hbytes]

theorem HasUnits.filled_eq_nil_iff (h : HasUnits bytes us) : filled us = [] ↔ bytes = [] := by
  rw [filled, List.map_eq_nil_iff, h.eq_nil_iff]

theorem HasUnits.getLast?_newline (h : HasUnits bytes us) :
    (filled us).getLast? = some '\n' ↔ bytes.getLast? = some 0x0A := by
  induction h with
  | nil => simp [filled]
  | char c next ih =>
    rw [filled_cons]
    exact ends_append next.filled_eq_nil_iff (getLast?_encodeChar c).symm ih
  | gap gap next ih =>
    rw [filled_cons]
    refine ends_append next.filled_eq_nil_iff ?_ ih
    constructor
    · intro h
      exact absurd h (by decide)
    · -- no byte of a gap is a line break, nor is what replaces it
      intro h
      exact absurd (gap.le_of_mem _ (List.mem_of_getLast? h)) (by decide)

/-! ### Valid text -/

theorem encodeChar_eq_utf8EncodeChar (c : Char) : encodeChar c = String.utf8EncodeChar c := by
  have hv := toNat_of_char c
  simp only [encodeChar, String.utf8EncodeChar, show c.val.toNat = c.toNat from rfl]
  generalize c.toNat = n at *
  by_cases h1 : n < 0x80
  · rw [if_pos h1, if_pos (by omega)]
  by_cases h2 : n < 0x800
  · rw [if_neg h1, if_pos h2, if_neg (by omega), if_pos (by omega), Nat.mod_eq_of_lt (by omega : n / 0x40 < 0x20)]
    simp only [Nat.add_comm]
  by_cases h3 : n < 0x10000
  · rw [if_neg h1, if_neg h2, if_pos h3, if_neg (by omega), if_neg (by omega), if_pos (by omega),
      Nat.mod_eq_of_lt (by omega : n / 0x1000 < 0x10)]
    simp only [Nat.add_comm]
  · rw [if_neg h1, if_neg h2, if_neg h3, if_neg (by omega), if_neg (by omega), if_neg (by omega),
      Nat.mod_eq_of_lt (by omega : n / 0x40000 < 8)]
    simp only [Nat.add_comm]

theorem encode_eq_flatMap (cs : List Char) : (encode cs).toByteArray = cs.utf8Encode := by
  have hcode : encodeChar = String.utf8EncodeChar := funext encodeChar_eq_utf8EncodeChar
  rw [encode, List.utf8Encode, hcode]

theorem isValidUTF8_iff : bytes.toByteArray.IsValidUTF8 ↔ ∃ cs, bytes = encode cs := by
  constructor
  · rintro ⟨cs, hcs⟩
    rw [← encode_eq_flatMap, List.toByteArray_inj] at hcs
    exact ⟨cs, hcs⟩
  · rintro ⟨cs, rfl⟩
    exact ⟨cs, encode_eq_flatMap cs⟩

theorem lossy_encode (cs : List Char) : lossy (encode cs) = cs := by
  rw [lossy, units_encode, List.map_map]
  exact List.map_id cs

/-- What is valid is read as it is, and what is not is not what its text encodes to. -/
theorem encode_lossy_eq_iff : encode (lossy bytes) = bytes ↔ bytes.toByteArray.IsValidUTF8 := by
  rw [isValidUTF8_iff]
  constructor
  · exact fun h => ⟨_, h.symm⟩
  · rintro ⟨cs, rfl⟩
    rw [lossy_encode]

end Utf8

/-! ### Trace files -/

theorem Trace.lineCount_text (content : Bytes) :
    lineCount (text content) =
      content.count 0x0A + if content ≠ [] ∧ content.getLast? ≠ some 0x0A then 1 else 0 := by
  have hunits := Utf8.hasUnits_units content
  rw [text, show Utf8.lossy content = Utf8.filled (Utf8.units content) from rfl, lineCount_eq, hunits.count_newline]
  simp only [hunits.filled_eq_nil_iff, hunits.getLast?_newline]
  by_cases hnil : content = []
  · simp [hnil]
  · by_cases hlast : content.getLast? = some 0x0A
    · simp [hlast]
    · simp [hnil, hlast]

theorem FileTree.readTrace_of_read {t : FileTree} {path : String} {content : Bytes} (h : t.read path = .ok content) :
    t.readTrace path = .ok (Trace.text content) := by
  rw [readTrace, contentAt, naming, h]
  rfl

/-- The text of a trace file is that of its bytes with every gap replaced.  It has a line for every line break in the
bytes, and one more for what stands behind the last of them, and it encodes to the bytes of the file exactly when
these are valid. -/
theorem readTrace_lines {t : FileTree} {path : String} {content : Bytes} (h : t.read path = .ok content) :
    ∃ text, t.readTrace path = .ok text ∧
      Trace.lineCount text =
        content.count 0x0A + (if content ≠ [] ∧ content.getLast? ≠ some 0x0A then 1 else 0) ∧
      (Utf8.encode text = content ↔ content.toByteArray.IsValidUTF8) ∧
      ∃ us, Utf8.HasUnits content us ∧ text = us.map (·.getD Utf8.replacement) :=
  ⟨_, FileTree.readTrace_of_read h, Trace.lineCount_text content, Utf8.encode_lossy_eq_iff, _,
    Utf8.hasUnits_units content, rfl⟩

/-- The start of a character of three bytes in front of a line break, and a start of four bytes behind it. -/
def tornTrace : Bytes :=
  [0x6F, 0xE2, 0x82, 0x0A, 0xF0, 0x9F, 0x98]

def tornTree : FileTree :=
  (FileTree.fresh 0).set ["work", "trace.log"] (.file tornTrace 0 false)

/-- What is torn is one gap each, and the line break between them stays. -/
theorem readTrace_lines_torn :
    tornTree.read "trace.log" = .ok tornTrace ∧
      ∃ text, tornTree.readTrace "trace.log" = .ok text ∧ Trace.lineCount text = 2 ∧
        text = ['o', '\uFFFD', '\n', '\uFFFD'] ∧ ¬tornTrace.toByteArray.IsValidUTF8 := by
  have hread : tornTree.read "trace.log" = .ok tornTrace := by rfl
  obtain ⟨text, htext, hlines, hvalid, -⟩ := readTrace_lines hread
  obtain rfl := Except.ok.inj (htext.symm.trans (FileTree.readTrace_of_read hread))
  have hshown : Trace.text tornTrace = ['o', '\uFFFD', '\n', '\uFFFD'] := by decide
  refine ⟨hread, _, htext, hlines, hshown, ?_⟩
  rw [← hvalid, hshown]
  decide

end Lineage
