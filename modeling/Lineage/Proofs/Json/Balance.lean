import Lineage.Proofs.Json.Integer
import Lineage.Proofs.Json.Nesting
import Lineage.Proofs.Json.Place

/-!
# Brackets of written texts

In the text of a tree the nesting comes back to where it began without ever going below (`passes_write`),
whatever numbers are in the tree and however deep it is.  So a written array that is cut off has no value
(`read_written_cut`), even one that could not be read back as a whole.
-/

namespace Lineage.Json

open Nesting (feed_neutral feed_inside)

/-! ### Written texts -/

/-- From one side of a string to the other, the bytes leave open what was open and close nothing else on their
way. -/
structure Passes (before after : Quoting) (bytes : Bytes) : Prop where
  ends : ∀ depth, Nesting.feedAll ⟨depth, before⟩ bytes = ⟨depth, after⟩
  above : ∀ depth, ∀ torn, torn <+: bytes → depth ≤ (Nesting.feedAll ⟨depth, before⟩ torn).depth

namespace Passes

variable {q r t : Quoting} {as bs : Bytes} {b : UInt8}

theorem nil (q : Quoting) : Passes q q [] where
  ends _ := rfl
  above depth torn h := by
    rw [List.prefix_nil.1 h]
    exact Nat.le_refl depth

theorem singleton (h : ∀ depth, Nesting.feed ⟨depth, q⟩ b = ⟨depth, r⟩) : Passes q r [b] where
  ends := h
  above depth torn htorn := by
    rcases List.prefix_cons_iff.1 htorn with rfl | ⟨rest, rfl, hrest⟩
    · exact Nat.le_refl depth
    · rw [List.prefix_nil.1 hrest]
      show depth ≤ (Nesting.feed _ b).depth
      exact Nat.le_of_eq (by rw [h])

theorem append (h : Passes q r as) (h' : Passes r t bs) : Passes q t (as ++ bs) where
  ends depth := by rw [Nesting.feedAll_append, h.ends, h'.ends]
  above depth torn htorn := by
    rcases List.prefix_or_prefix_of_prefix htorn (List.prefix_append as bs) with hle | hle
    · exact h.above depth torn hle
    · obtain ⟨rest, rfl⟩ := hle
      rw [Nesting.feedAll_append, h.ends]
      exact h'.above depth rest ((List.prefix_append_right_inj as).1 htorn)

theorem cons (h : ∀ depth, Nesting.feed ⟨depth, q⟩ b = ⟨depth, r⟩) (h' : Passes r t bs) :
    Passes q t (b :: bs) :=
  (singleton h).append h'

theorem of_forall (h : ∀ b ∈ bs, ∀ depth, Nesting.feed ⟨depth, q⟩ b = ⟨depth, q⟩) : Passes q q bs := by
  induction bs with
  | nil => exact nil q
  | cons b bs ih => exact cons (h b (List.mem_cons_self ..)) (ih fun c hc => h c (List.mem_cons_of_mem _ hc))

/-- Between brackets the depth is one more. -/
theorem above_bracket {opening : UInt8}
    (ho : ∀ depth, Nesting.feed ⟨depth, .outside⟩ opening = ⟨depth + 1, .outside⟩)
    (h : Passes .outside .outside bs) (depth : Nat) {torn : Bytes} (htorn : torn <+: opening :: bs)
    (hne : torn ≠ []) : depth + 1 ≤ (Nesting.feedAll ⟨depth, .outside⟩ torn).depth := by
  obtain ⟨rest, rfl, hrest⟩ := (List.prefix_cons_iff.1 htorn).resolve_left hne
  show depth + 1 ≤ (Nesting.feedAll (Nesting.feed _ opening) rest).depth
  rw [ho]
  exact h.above (depth + 1) rest hrest

theorem bracket {opening closing : UInt8}
    (ho : ∀ depth, Nesting.feed ⟨depth, .outside⟩ opening = ⟨depth + 1, .outside⟩)
    (hc : ∀ depth, Nesting.feed ⟨depth + 1, .outside⟩ closing = ⟨depth, .outside⟩)
    (h : Passes .outside .outside bs) : Passes .outside .outside (opening :: bs ++ [closing]) := by
  have hends : ∀ depth, Nesting.feedAll ⟨depth, .outside⟩ (opening :: bs ++ [closing]) = ⟨depth, .outside⟩ := by
    intro depth
    rw [Nesting.feedAll_concat]
    show Nesting.feed (Nesting.feedAll (Nesting.feed _ opening) bs) closing = _
    rw [ho, h.ends, hc]
  refine ⟨hends, fun depth torn htorn => ?_⟩
  rcases List.prefix_concat_iff.1 htorn with rfl | htorn
  · exact Nat.le_of_eq (by rw [hends])
  · by_cases hne : torn = []
    · subst hne
      exact Nat.le_refl depth
    · exact Nat.le_of_succ_le (above_bracket ho h depth htorn hne)

end Passes

/-! ### Characters -/

/-- The character neither begins nor ends a container or a string. -/
def NeutralChar (c : Char) : Prop :=
  c ≠ '"' ∧ c ≠ '[' ∧ c ≠ ']' ∧ c ≠ '\x7b' ∧ c ≠ '\x7d'

instance (c : Char) : Decidable (NeutralChar c) :=
  inferInstanceAs (Decidable (_ ∧ _ ∧ _ ∧ _ ∧ _))

theorem neutral_of_all {cs : List Char} (h : cs.all (fun c => decide (NeutralChar c)) = true) :
    ∀ c ∈ cs, NeutralChar c := by
  simpa using h

theorem passes_neutral {cs : List Char} (h : ∀ c ∈ cs, NeutralChar c) :
    Passes .outside .outside (Utf8.encode cs) := by
  apply Passes.of_forall
  intro b hb
  obtain ⟨c, hc, hmem⟩ := List.mem_flatMap.1 hb
  obtain ⟨h1, h2, h3, h4, h5⟩ := h c hc
  apply feed_neutral
  refine ⟨?_, ?_, ?_, ?_, ?_⟩
  · rintro rfl
    exact h1 (Utf8.eq_of_mem_encodeChar (by decide) hmem)
  · rintro rfl
    exact h2 (Utf8.eq_of_mem_encodeChar (by decide) hmem)
  · rintro rfl
    exact h3 (Utf8.eq_of_mem_encodeChar (by decide) hmem)
  · rintro rfl
    exact h4 (Utf8.eq_of_mem_encodeChar (by decide) hmem)
  · rintro rfl
    exact h5 (Utf8.eq_of_mem_encodeChar (by decide) hmem)

/-- Characters in a string that are neither quotes nor backslashes. -/
theorem passes_inside {cs : List Char} (h : ∀ c ∈ cs, c ≠ '"' ∧ c ≠ '\\') :
    Passes .inside .inside (Utf8.encode cs) := by
  apply Passes.of_forall
  intro b hb
  obtain ⟨c, hc, hmem⟩ := List.mem_flatMap.1 hb
  obtain ⟨quote, slash⟩ := h c hc
  apply feed_inside
  · rintro rfl
    exact quote (Utf8.eq_of_mem_encodeChar (by decide) hmem)
  · rintro rfl
    exact slash (Utf8.eq_of_mem_encodeChar (by decide) hmem)

/-- A backslash and an ASCII character, and others that are neither quotes nor backslashes. -/
private theorem passes_escaped {c : Char} {b : UInt8} (hb : Utf8.encodeChar c = [b]) {cs : List Char}
    (h : ∀ c ∈ cs, c ≠ '"' ∧ c ≠ '\\') : Passes .inside .inside (Utf8.encode ('\\' :: c :: cs)) := by
  have htext : Utf8.encode ('\\' :: c :: cs) = 0x5C :: b :: Utf8.encode cs := by
    show Utf8.encodeChar '\\' ++ (Utf8.encodeChar c ++ Utf8.encode cs) = _
    rw [hb]
    rfl
  rw [htext]
  exact .cons (r := .escaped) (fun _ => rfl) (.cons (fun _ => rfl) (passes_inside h))

private theorem hexDigit_ne (n : Nat) : hexDigit n ≠ '"' ∧ hexDigit n ≠ '\\' := by
  have hdigit : ∀ m < 16, Nat.digitChar m ≠ '"' ∧ Nat.digitChar m ≠ '\\' := by decide
  exact hdigit (n % 16) (Nat.mod_lt n (by decide))

theorem passes_escape (c : Char) : Passes .inside .inside (Utf8.encode (escape c)) := by
  unfold escape
  split
  · exact passes_escaped rfl (List.forall_mem_nil _)
  split
  · exact passes_escaped rfl (List.forall_mem_nil _)
  split
  · exact passes_escaped rfl (List.forall_mem_nil _)
  split
  · exact passes_escaped rfl (List.forall_mem_nil _)
  split
  · exact passes_escaped rfl (List.forall_mem_nil _)
  split
  · exact passes_escaped rfl (List.forall_mem_nil _)
  split
  · exact passes_escaped rfl (List.forall_mem_nil _)
  split
  · refine passes_escaped rfl ?_
    simp only [List.forall_mem_cons]
    exact ⟨by decide, by decide, hexDigit_ne _, hexDigit_ne _, List.forall_mem_nil _⟩
  · exact passes_inside fun d hd => List.mem_singleton.1 hd ▸ ⟨‹_›, ‹_›⟩

theorem passes_quoted (s : String) : Passes .outside .outside (Utf8.encode (quoted s)) := by
  have hcontent : ∀ cs : List Char, Passes .inside .inside (Utf8.encode (cs.flatMap escape)) := by
    intro cs
    induction cs with
    | nil => exact .nil .inside
    | cons c cs ih =>
      rw [List.flatMap_cons, Utf8.encode_append]
      exact (passes_escape c).append ih
  have htext : Utf8.encode (quoted s) = 0x22 :: (Utf8.encode (s.toList.flatMap escape) ++ [0x22]) := by
    show Utf8.encodeChar '"' ++ Utf8.encode (s.toList.flatMap escape ++ ['"']) = _
    rw [Utf8.encode_append]
    rfl
  rw [htext]
  exact .cons (r := .inside) (fun _ => rfl) ((hcontent s.toList).append (.singleton fun _ => rfl))

/-! ### Numbers -/

private theorem neutral_digit {c : Char} (h : c.isDigit = true) : NeutralChar c := by
  refine ⟨?_, ?_, ?_, ?_, ?_⟩
  all_goals
    rintro rfl
    exact absurd h (by decide)

private theorem neutral_toDigits (n : Nat) : ∀ c ∈ Nat.toDigits 10 n, NeutralChar c :=
  fun _ hc => neutral_digit (Nat.isDigit_of_mem_toDigits (by decide) (by decide) hc)

theorem neutral_integerText (n : Int) : ∀ c ∈ integerText n, NeutralChar c := by
  by_cases hn : 0 ≤ n
  · rw [integerText_of_nonneg hn]
    exact neutral_toDigits n.toNat
  · rw [integerText_of_neg (by omega), List.forall_mem_cons]
    exact ⟨by decide, neutral_toDigits (-n).toNat⟩

/-- The characters of a number that has a point or an exponent. -/
private theorem neutral_pointed {digits : List Char} (h : ∀ c ∈ digits, NeutralChar c) (whole : Int) :
    ∀ c ∈ Shortest.pointed digits whole, NeutralChar c := by
  have hzeros : ∀ n, ∀ c ∈ List.replicate n '0', NeutralChar c := by
    intro n c hc
    rw [(List.mem_replicate.1 hc).2]
    decide
  have hor : ∀ cs : List Char, (∀ c ∈ cs, NeutralChar c) →
      ∀ c ∈ if cs.isEmpty then ['0'] else cs, NeutralChar c := by
    intro cs hcs
    split
    · exact neutral_of_all (by decide)
    · exact hcs
  unfold Shortest.pointed
  simp only [List.forall_mem_append, List.forall_mem_cons]
  refine ⟨hor _ ?_, by decide, hor _ ?_⟩
  · exact List.forall_mem_append.2 ⟨fun c hc => h c (List.mem_of_mem_take hc), hzeros _⟩
  · exact List.forall_mem_append.2 ⟨hzeros _, fun c hc => h c (List.mem_of_mem_drop hc)⟩

private theorem neutral_write {digits : List Char} (h : ∀ c ∈ digits, NeutralChar c) (e : Int) :
    ∀ c ∈ floatLayout.write digits e, NeutralChar c := by
  have hpower : ∀ c ∈ 'e' :: (if 0 ≤ e then ['+'] else ['-']) ++ Nat.toDigits 10 e.natAbs, NeutralChar c := by
    refine List.forall_mem_append.2 ⟨?_, neutral_toDigits _⟩
    split <;> exact neutral_of_all (by decide)
  unfold Shortest.Layout.write
  split
  · exact neutral_pointed h (e + 1)
  · simp only
    split
    · exact hpower
    · exact List.forall_mem_cons.2 ⟨h _ (List.mem_cons_self ..), hpower⟩
    · rw [List.forall_mem_cons] at h
      refine List.forall_mem_cons.2 ⟨h.1, List.forall_mem_cons.2 ⟨by decide, ?_⟩⟩
      exact List.forall_mem_append.2 ⟨h.2, hpower⟩

private theorem neutral_digits (m : Nat) (q : Int) (edge : Bool) :
    ∀ c ∈ (Shortest.digits m q edge).1, NeutralChar c := by
  intro c hc
  simp only [Shortest.digits, Shortest.digitsOf, List.mem_reverse] at hc
  exact neutral_toDigits _ c (List.mem_reverse.1 (List.dropWhile_subset _ hc))

theorem neutral_floatText (f : Float) : ∀ c ∈ floatText f, NeutralChar c := by
  have hsigned : ∀ (negative : Prop) [Decidable negative] (text : List Char), (∀ c ∈ text, NeutralChar c) →
      ∀ c ∈ if negative then '-' :: text else text, NeutralChar c := by
    intro negative _ text htext
    split
    · exact List.forall_mem_cons.2 ⟨by decide, htext⟩
    · exact htext
  unfold floatText
  split
  · apply hsigned
    split
    · exact neutral_write (neutral_of_all (by decide)) 0
    · split
      rename_i ds e heq
      have hds : ∀ c ∈ ds, NeutralChar c := by
        split at heq
        · obtain rfl : _ = ds := congrArg Prod.fst heq
          exact neutral_digits _ _ _
        · obtain rfl : _ = ds := congrArg Prod.fst heq
          exact neutral_digits _ _ _
      exact neutral_write hds e
  · exact neutral_of_all (by decide)

/-! ### Trees -/

private theorem passes_blank {cs : List Char} (h : Blank cs) : Passes .outside .outside (Utf8.encode cs) := by
  apply passes_neutral
  intro c hc
  rcases h c hc with rfl | rfl
  · decide
  · decide

variable {l : Layout}

private theorem passes_colon (hl : l.Blanks) : Passes .outside .outside (Utf8.encode l.colon) := by
  obtain ⟨cs, hcolon, hcs⟩ := hl.colon
  rw [hcolon]
  exact .cons (fun _ => rfl) (passes_blank hcs)

private theorem encode_bracketed {opening closing : Char} {b c : UInt8} (hb : Utf8.encodeChar opening = [b])
    (hc : Utf8.encodeChar closing = [c]) (body : List Char) :
    Utf8.encode (opening :: body ++ [closing]) = b :: Utf8.encode body ++ [c] := by
  rw [Utf8.encode_append, Utf8.encode, List.flatMap_cons, hb, Utf8.encode, List.flatMap_singleton, hc]
  rfl

namespace Layout

/-- What stands between the brackets of an array. -/
def arrayBody (l : Layout) (depth : Nat) : List Json → List Char
  | [] => []
  | j :: js => l.lineBreak (depth + 1) ++ l.write (depth + 1) j ++ l.writeItems (depth + 1) js ++ l.lineBreak depth

/-- What stands between the brackets of an object. -/
def objectBody (l : Layout) (depth : Nat) : Fields Json → List Char
  | [] => []
  | (name, j) :: fs =>
    l.lineBreak (depth + 1) ++ quoted name ++ l.colon ++ l.write (depth + 1) j ++ l.writeFields (depth + 1) fs ++
      l.lineBreak depth

theorem encode_write_array (l : Layout) (depth : Nat) (items : List Json) :
    Utf8.encode (l.write depth (.array items)) = 0x5B :: Utf8.encode (l.arrayBody depth items) ++ [0x5D] := by
  have htext : l.write depth (.array items) = '[' :: l.arrayBody depth items ++ [']'] := by
    cases items with
    | nil =>
      rw [write]
      rfl
    | cons j js => simp only [write, arrayBody, List.append_assoc, List.cons_append]
  rw [htext]
  exact encode_bracketed rfl rfl _

theorem encode_write_object (l : Layout) (depth : Nat) (fields : Fields Json) :
    Utf8.encode (l.write depth (.object fields)) = 0x7B :: Utf8.encode (l.objectBody depth fields) ++ [0x7D] := by
  have htext : l.write depth (.object fields) = '\x7b' :: l.objectBody depth fields ++ ['\x7d'] := by
    cases fields with
    | nil =>
      rw [write]
      rfl
    | cons f fs => simp only [write, objectBody, List.append_assoc, List.cons_append]
  rw [htext]
  exact encode_bracketed rfl rfl _

end Layout

mutual

theorem passes_write (hl : l.Blanks) (depth : Nat) :
    ∀ j : Json, Passes .outside .outside (Utf8.encode (l.write depth j))
  | .null => by
    rw [Layout.write]
    exact passes_neutral (neutral_of_all (by decide))
  | .bool true => by
    rw [Layout.write]
    exact passes_neutral (neutral_of_all (by decide))
  | .bool false => by
    rw [Layout.write]
    exact passes_neutral (neutral_of_all (by decide))
  | .integer n => by
    rw [Layout.write]
    exact passes_neutral (neutral_integerText n)
  | .float f => by
    rw [Layout.write]
    exact passes_neutral (neutral_floatText f)
  | .string s => by
    rw [Layout.write]
    exact passes_quoted s
  | .array items => by
    rw [Layout.encode_write_array]
    exact .bracket (fun _ => rfl) (fun _ => rfl) (passes_arrayBody hl depth items)
  | .object fields => by
    rw [Layout.encode_write_object]
    exact .bracket (fun _ => rfl) (fun _ => rfl) (passes_objectBody hl depth fields)

theorem passes_arrayBody (hl : l.Blanks) (depth : Nat) :
    ∀ items : List Json, Passes .outside .outside (Utf8.encode (l.arrayBody depth items))
  | [] => .nil .outside
  | j :: js => by
    simp only [Layout.arrayBody, Utf8.encode_append]
    exact (((passes_blank (hl.lineBreak _)).append (passes_write hl (depth + 1) j)).append
      (passes_writeItems hl (depth + 1) js)).append (passes_blank (hl.lineBreak _))

theorem passes_objectBody (hl : l.Blanks) (depth : Nat) :
    ∀ fields : List (String × Json), Passes .outside .outside (Utf8.encode (l.objectBody depth fields))
  | [] => .nil .outside
  | (name, j) :: fs => by
    simp only [Layout.objectBody, Utf8.encode_append]
    exact (((((passes_blank (hl.lineBreak _)).append (passes_quoted name)).append (passes_colon hl)).append
      (passes_write hl (depth + 1) j)).append (passes_writeFields hl (depth + 1) fs)).append
        (passes_blank (hl.lineBreak _))

theorem passes_writeItems (hl : l.Blanks) (depth : Nat) :
    ∀ items : List Json, Passes .outside .outside (Utf8.encode (l.writeItems depth items))
  | [] => by
    rw [Layout.writeItems]
    exact .nil .outside
  | j :: js => by
    have htext : Utf8.encode (l.writeItems depth (j :: js)) =
        0x2C :: (Utf8.encode (l.lineBreak depth) ++ (Utf8.encode (l.write depth j) ++
          Utf8.encode (l.writeItems depth js))) := by
      rw [Layout.writeItems]
      simp only [Utf8.encode_append, List.append_assoc]
      rfl
    rw [htext]
    exact .cons (fun _ => rfl) ((passes_blank (hl.lineBreak _)).append
      ((passes_write hl depth j).append (passes_writeItems hl depth js)))

theorem passes_writeFields (hl : l.Blanks) (depth : Nat) :
    ∀ fields : List (String × Json), Passes .outside .outside (Utf8.encode (l.writeFields depth fields))
  | [] => by
    rw [Layout.writeFields]
    exact .nil .outside
  | (name, j) :: fs => by
    have htext : Utf8.encode (l.writeFields depth ((name, j) :: fs)) =
        0x2C :: (Utf8.encode (l.lineBreak depth) ++ (Utf8.encode (quoted name) ++ (Utf8.encode l.colon ++
          (Utf8.encode (l.write depth j) ++ Utf8.encode (l.writeFields depth fs))))) := by
      rw [Layout.writeFields]
      simp only [Utf8.encode_append, List.append_assoc]
      rfl
    rw [htext]
    exact .cons (fun _ => rfl) ((passes_blank (hl.lineBreak _)).append ((passes_quoted name).append
      ((passes_colon hl).append ((passes_write hl depth j).append (passes_writeFields hl depth fs)))))

end

/-! ### Arrays that are cut off -/

/-- No text that ends before the text of an array does has a value. -/
theorem read_written_cut (hl : l.Blanks) {items : List Json} {torn : Bytes}
    (htorn : torn <+: Bytes.ofString (l.text (.array items)))
    (hne : torn ≠ Bytes.ofString (l.text (.array items))) : ∃ fault, read torn = .error fault := by
  rw [Bytes.ofString, Layout.text, String.toList_ofList, Layout.encode_write_array] at htorn hne
  have hbody := (List.prefix_concat_iff.1 htorn).resolve_left hne
  cases hread : read torn with
  | error fault => exact ⟨fault, rfl⟩
  | ok j =>
    by_cases hempty : torn = []
    · subst hempty
      cases hread
    · have hdepth := Passes.above_bracket (fun _ => rfl) (passes_arrayBody hl 0 items) 0 hbody hempty
      rw [nesting_of_read hread] at hdepth
      cases hdepth

end Lineage.Json
