import Lineage.Text.Table

/-!
# What is read off a table

A line break in a cell begins a new line of its row, so no line has one, and splitting what was rendered gives the
lines back (`Table.splitOn_render`).  Only the first line of a row shows its first cell.  So in a table whose first
cells are single words, a row is found by its first cell, its label, on exactly one line
(`Table.filter_splitOn_render`).
-/

namespace Lineage

section

variable {α : Type} {x : α} {sep l : List α} {xss : List (List α)}

theorem mem_of_mem_intercalate (h : x ∈ sep.intercalate xss) : x ∈ sep ∨ ∃ xs ∈ xss, x ∈ xs := by
  induction xss with
  | nil => cases h
  | cons xs xss ih =>
    cases xss with
    | nil =>
      rw [List.intercalate_singleton] at h
      exact .inr ⟨xs, List.mem_cons_self .., h⟩
    | cons ys xss =>
      rw [List.intercalate_cons_cons, List.mem_append, List.mem_append] at h
      rcases h with (h | h) | h
      · exact .inr ⟨xs, List.mem_cons_self .., h⟩
      · exact .inl h
      · exact (ih h).imp_right fun ⟨zs, hzs, hx⟩ => ⟨zs, List.mem_cons_of_mem _ hzs, hx⟩

theorem filter_intercalate {p : α → Bool} (hsep : ∀ s ∈ sep, p s = false) :
    (sep.intercalate xss).filter p = xss.flatMap (List.filter p) := by
  induction xss with
  | nil => rfl
  | cons xs xss ih =>
    cases xss with
    | nil => simp
    | cons ys xss =>
      have hnone : sep.filter p = [] := List.filter_eq_nil_iff.2 fun s hs => by simp [hsep s hs]
      rw [List.intercalate_cons_cons, List.filter_append, List.filter_append, hnone, List.append_nil, ih]
      rfl

theorem not_mem_of_mem_splitOn [BEq α] [LawfulBEq α] {xs : List α} (h : l ∈ xs.splitOn x) : x ∉ l := by
  induction xs generalizing l with
  | nil =>
    rw [List.splitOn_nil, List.mem_singleton] at h
    subst h
    exact List.not_mem_nil
  | cons y ys ih =>
    rw [List.splitOn_cons_eq_if_modifyHead] at h
    cases hy : y == x with
    | true =>
      rw [hy, if_pos rfl] at h
      rcases List.mem_cons.1 h with rfl | h
      · exact List.not_mem_nil
      · exact ih h
    | false =>
      rw [hy, if_neg Bool.false_ne_true] at h
      cases hsplit : ys.splitOn x with
      | nil => exact absurd hsplit (List.splitOn_ne_nil x ys)
      | cons first rest =>
        rw [hsplit] at h ih
        rcases List.mem_cons.1 h with rfl | h
        · rw [List.mem_cons, not_or]
          exact ⟨fun hx => (beq_eq_false_iff_ne.1 hy) hx.symm, ih (List.mem_cons_self ..)⟩
        · exact ih (List.mem_cons_of_mem _ h)

/-- Two words before a mark are the same when one of them begins the other and its mark. -/
theorem append_singleton_prefix_iff {as bs rest : List α} (has : x ∉ as) (hbs : x ∉ bs) :
    as ++ [x] <+: bs ++ x :: rest ↔ bs = as := by
  induction as generalizing bs with
  | nil =>
    cases bs with
    | nil => simp
    | cons b bs =>
      have hb : x ≠ b := fun h => hbs (h ▸ List.mem_cons_self ..)
      simp [hb]
  | cons a as ih =>
    have ha : a ≠ x := fun h => has (h ▸ List.mem_cons_self ..)
    cases bs with
    | nil => simp [ha]
    | cons b bs =>
      rw [List.cons_append, List.cons_append, List.cons_prefix_cons,
        ih (fun h => has (List.mem_cons_of_mem _ h)) (fun h => hbs (List.mem_cons_of_mem _ h)), List.cons.injEq,
        eq_comm]

end

namespace Table

variable {t : Table} {w : Nat} {ws : List Nat} {cell label name : String} {cells : List (List Char)} {row : List String}

/-! ### Lines without line breaks -/

theorem Rule.not_mem_line {r : Rule} {c : Char} (h : c ∉ [r.left, r.fill, r.cross, r.right]) (ws : List Nat) :
    c ∉ r.line ws := by
  simp only [List.mem_cons, List.not_mem_nil, or_false, not_or] at h
  obtain ⟨hleft, hfill, hcross, hright⟩ := h
  have hbody : c ∉ [r.cross].intercalate (ws.map fun w => List.replicate (w + 2) r.fill) := by
    intro hc
    rcases mem_of_mem_intercalate hc with hc | ⟨l, hl, hc⟩
    · exact hcross (List.mem_singleton.1 hc)
    · obtain ⟨w, -, rfl⟩ := List.mem_map.1 hl
      exact hfill (List.eq_of_mem_replicate hc)
  simp [line, hleft, hright, hbody]

theorem not_mem_padded {text : List Char} (h : '\n' ∉ text) (w : Nat) : '\n' ∉ padded w text := by
  simp [padded, h]

theorem not_mem_textLine (h : ∀ text ∈ cells, '\n' ∉ text) (ws : List Nat) : '\n' ∉ textLine ws cells := by
  have hbody : '\n' ∉ ['┆'].intercalate (ws.zipWith padded cells) := by
    intro hc
    rcases mem_of_mem_intercalate hc with hc | ⟨l, hl, hc⟩
    · exact absurd hc (by decide)
    · obtain ⟨i, hi, rfl⟩ := List.getElem_of_mem hl
      rw [List.getElem_zipWith] at hc
      exact not_mem_padded (h _ (List.getElem_mem _)) _ hc
  simp [textLine, hbody]

theorem not_mem_rowLines (ws : List Nat) (row : List String) : ∀ l ∈ rowLines ws row, '\n' ∉ l := by
  intro l hl
  obtain ⟨i, -, rfl⟩ := List.mem_map.1 hl
  apply not_mem_textLine
  intro text htext
  rw [List.map_map] at htext
  obtain ⟨cell, -, rfl⟩ := List.mem_map.1 htext
  show '\n' ∉ (cellLines cell)[i]?.getD []
  cases hline : (cellLines cell)[i]? with
  | none => exact List.not_mem_nil
  | some text => exact not_mem_of_mem_splitOn (List.mem_of_getElem? hline)

theorem not_mem_lines (t : Table) : ∀ l ∈ t.lines, '\n' ∉ l := by
  intro l hl
  rcases List.mem_append.1 hl with hl | hl
  · rcases List.mem_append.1 hl with hl | hl
    · rcases List.mem_cons.1 hl with rfl | hl
      · exact Rule.not_mem_line (by decide) _
      · exact not_mem_rowLines _ _ l hl
    · rcases List.mem_cons.1 hl with rfl | hl
      · exact Rule.not_mem_line (by decide) _
      · rcases mem_of_mem_intercalate hl with hl | ⟨_, hrow, hl⟩
        · rw [List.mem_singleton.1 hl]
          exact Rule.not_mem_line (by decide) _
        · obtain ⟨row, -, rfl⟩ := List.mem_map.1 hrow
          exact not_mem_rowLines _ _ l hl
  · rw [List.mem_singleton.1 hl]
    exact Rule.not_mem_line (by decide) _

theorem splitOn_render (t : Table) : t.render.toList.splitOn '\n' = t.lines := by
  have hlines : t.lines ≠ [] := List.append_ne_nil_of_right_ne_nil _ (List.cons_ne_nil _ _)
  rw [render, String.toList_ofList]
  exact List.splitOn_intercalate '\n' t.not_mem_lines hlines

/-! ### Lines with a label -/

/-- The line shows the first cell of a row, which is this. -/
def labelled (label : String) (line : List Char) : Bool :=
  ('│' :: ' ' :: label.toList ++ [' ']).isPrefixOf line

/-- A text that can label a row: it is not empty, and has no blank and no line break. -/
structure IsLabel (label : String) : Prop where
  nonempty : label ≠ ""
  blank : ' ' ∉ label.toList
  lineBreak : '\n' ∉ label.toList

/-- The first line of a row. -/
def firstLine (ws : List Nat) (row : List String) : List Char :=
  textLine ws (row.map fun cell => (cellLines cell).headD [])

theorem exists_padded_eq (w : Nat) (text : List Char) :
    ∃ n, padded w text = ' ' :: text ++ List.replicate (n + 1) ' ' :=
  ⟨w - Width.ofText text, rfl⟩

theorem exists_textLine_eq (w : Nat) (ws : List Nat) (text : List Char) (cells : List (List Char)) :
    ∃ rest, textLine (w :: ws) (text :: cells) = '│' :: ' ' :: text ++ ' ' :: rest := by
  obtain ⟨n, hpadded⟩ := exists_padded_eq w text
  unfold textLine
  rw [List.zipWith_cons_cons, hpadded, List.replicate_succ]
  cases ws.zipWith padded cells with
  | nil =>
    refine ⟨List.replicate n ' ' ++ ['│'], ?_⟩
    simp
  | cons l ls =>
    refine ⟨List.replicate n ' ' ++ ('┆' :: ['┆'].intercalate (l :: ls)) ++ ['│'], ?_⟩
    simp [List.intercalate_cons_cons]

/-- A line of three cells. -/
theorem exists_textLine_eq₃ (w₁ w₂ w₃ : Nat) (x y z : List Char) :
    ∃ a b c, textLine [w₁, w₂, w₃] [x, y, z] =
      "│ ".toList ++ x ++ List.replicate (a + 1) ' ' ++ "┆ ".toList ++ y ++ List.replicate (b + 1) ' ' ++
        "┆ ".toList ++ z ++ List.replicate (c + 1) ' ' ++ "│".toList := by
  obtain ⟨a, ha⟩ := exists_padded_eq w₁ x
  obtain ⟨b, hb⟩ := exists_padded_eq w₂ y
  obtain ⟨c, hc⟩ := exists_padded_eq w₃ z
  refine ⟨a, b, c, ?_⟩
  simp only [textLine, List.zipWith_cons_cons, List.zipWith_nil_left, ha, hb, hc, List.intercalate_cons_cons,
    List.intercalate_singleton]
  simp

theorem labelled_textLine (hlabel : ' ' ∉ label.toList) {text : List Char} (htext : ' ' ∉ text) (w : Nat)
    (ws : List Nat) (cells : List (List Char)) :
    labelled label (textLine (w :: ws) (text :: cells)) = true ↔ text = label.toList := by
  obtain ⟨rest, hline⟩ := exists_textLine_eq w ws text cells
  rw [labelled, hline, List.isPrefixOf_iff_prefix]
  simp only [List.cons_append, List.cons_prefix_cons, true_and]
  exact append_singleton_prefix_iff hlabel htext

theorem labelled_eq_false {line : List Char} (h : line.head? ≠ some '│') (label : String) :
    labelled label line = false := by
  cases line with
  | nil => rfl
  | cons c cs =>
    have hc : ('│' == c) = false := beq_eq_false_iff_ne.2 fun hc => h (hc ▸ rfl)
    rw [labelled, List.cons_append, List.cons_append, List.isPrefixOf, hc, Bool.false_and]

theorem labelled_line {r : Rule} (h : r.left ≠ '│') (label : String) (ws : List Nat) :
    labelled label (r.line ws) = false :=
  labelled_eq_false (by simpa [Rule.line] using h) label

theorem cellLines_eq_singleton (h : '\n' ∉ cell.toList) : cellLines cell = [cell.toList] :=
  List.splitOn_eq_singleton h

theorem le_foldl_max (a : Nat) (ns : List Nat) : a ≤ ns.foldl max a := by
  induction ns generalizing a with
  | nil => exact Nat.le_refl a
  | cons n ns ih => exact Nat.le_trans (Nat.le_max_left a n) (ih (max a n))

/-- A row that begins with a label shows it on its first line, and nothing in its place on the others. -/
theorem exists_rowLines_eq (hname : IsLabel name) (w : Nat) (ws : List Nat) (rest : List String) :
    ∃ others : List (List (List Char)), rowLines (w :: ws) (name :: rest) =
      firstLine (w :: ws) (name :: rest) :: others.map fun cells => textLine (w :: ws) ([] :: cells) := by
  have hcell := cellLines_eq_singleton hname.lineBreak
  have hheight := le_foldl_max 1 ((rest.map cellLines).map List.length)
  unfold rowLines firstLine
  simp only [List.map_cons, hcell, List.length_singleton, List.foldl_cons]
  obtain ⟨height, hheight⟩ := Nat.exists_eq_add_of_le' hheight
  rw [show max 0 1 = 1 from rfl, hheight, List.range_succ_eq_map, List.map_cons, List.map_map]
  refine ⟨(List.range height).map fun i => (rest.map cellLines).map fun lines => lines[i + 1]?.getD [], ?_⟩
  have hfirst : rest.map (fun cell => (cellLines cell)[0]?.getD []) =
      rest.map fun cell => (cellLines cell).headD [] := by
    apply List.map_congr_left
    intro cell _
    rw [List.headD_eq_head?_getD, List.head?_eq_getElem?]
  rw [← hfirst, List.map_map, List.map_map]
  rfl

theorem filter_rowLines (hlabel : IsLabel label) (hname : IsLabel name) (w : Nat) (ws : List Nat)
    (rest : List String) :
    (rowLines (w :: ws) (name :: rest)).filter (labelled label) =
      if name = label then [firstLine (w :: ws) (name :: rest)] else [] := by
  obtain ⟨others, hlines⟩ := exists_rowLines_eq hname w ws rest
  have hfirst : labelled label (firstLine (w :: ws) (name :: rest)) = true ↔ name = label := by
    have htext : (cellLines name).headD [] = name.toList := by
      rw [cellLines_eq_singleton hname.lineBreak]
      rfl
    rw [firstLine, List.map_cons, htext, labelled_textLine hlabel.blank hname.blank, String.toList_inj]
  have hothers : (others.map fun cells => textLine (w :: ws) ([] :: cells)).filter (labelled label) = [] := by
    rw [List.filter_eq_nil_iff]
    intro l hl
    obtain ⟨cells, -, rfl⟩ := List.mem_map.1 hl
    rw [labelled_textLine hlabel.blank List.not_mem_nil]
    exact fun h => hlabel.nonempty (String.toList_eq_nil_iff.1 h.symm)
  rw [hlines]
  by_cases hname : name = label
  · rw [List.filter_cons_of_pos (hfirst.2 hname), hothers, if_pos hname]
  · rw [List.filter_cons_of_neg (mt hfirst.1 hname), hothers, if_neg hname]

/-! ### Rows with a label -/

theorem flatMap_filter_rowLines (hlabel : IsLabel label) (w : Nat) (ws : List Nat) {rows : List (List String)}
    (h : ∀ row ∈ rows, ∃ name rest, row = name :: rest ∧ IsLabel name) :
    (rows.flatMap fun row => (rowLines (w :: ws) row).filter (labelled label)) =
      (rows.filter (·.head? = some label)).map (firstLine (w :: ws)) := by
  induction rows with
  | nil => rfl
  | cons row rows ih =>
    obtain ⟨name, rest, rfl, hname⟩ := h row (List.mem_cons_self ..)
    rw [List.flatMap_cons, filter_rowLines hlabel hname, ih fun row hrow => h row (List.mem_cons_of_mem _ hrow)]
    by_cases hsame : name = label
    · simp [hsame]
    · simp [hsame]

theorem widths_ne_nil (hheader : t.header ≠ []) (hrows : ∀ row ∈ t.rows, row ≠ []) : t.widths ≠ [] := by
  have hwiden : ∀ (rows : List (List String)) (ws : List Nat), ws ≠ [] → (∀ row ∈ rows, row ≠ []) →
      rows.foldl widen ws ≠ [] := by
    intro rows
    induction rows with
    | nil => exact fun ws hws _ => hws
    | cons row rows ih =>
      intro ws hws hrows
      refine ih _ ?_ fun row hrow => hrows row (List.mem_cons_of_mem _ hrow)
      have hrow := hrows row (List.mem_cons_self ..)
      simpa [widen] using ⟨hws, hrow⟩
  exact hwiden t.rows _ (by simpa using hheader) hrows

/-- In a table whose rows are labelled, the lines with a label are the first lines of the rows that have it. -/
theorem filter_splitOn_render (hlabel : IsLabel label)
    (h : ∀ row ∈ t.header :: t.rows, ∃ name rest, row = name :: rest ∧ IsLabel name) :
    (t.render.toList.splitOn '\n').filter (labelled label) =
      ((t.header :: t.rows).filter (·.head? = some label)).map (firstLine t.widths) := by
  have hne : ∀ row ∈ t.header :: t.rows, row ≠ [] := by
    intro row hrow
    obtain ⟨name, rest, rfl, -⟩ := h row hrow
    exact List.cons_ne_nil name rest
  obtain ⟨w, ws, hwidths⟩ := List.exists_cons_of_ne_nil
    (widths_ne_nil (hne _ (List.mem_cons_self ..)) fun row hrow => hne row (List.mem_cons_of_mem _ hrow))
  have hlines : t.lines.filter (labelled label) =
      (t.header :: t.rows).flatMap fun row => (rowLines t.widths row).filter (labelled label) := by
    -- the lines between rows are not labelled, so the rows can be looked at one by one
    have htop := labelled_line (show top.left ≠ '│' by decide) label t.widths
    have hunder := labelled_line (show underHeader.left ≠ '│' by decide) label t.widths
    have hbottom := labelled_line (show bottom.left ≠ '│' by decide) label t.widths
    have hbetween : ∀ l ∈ [betweenRows.line t.widths], labelled label l = false := by
      intro l hl
      rw [List.mem_singleton.1 hl]
      exact labelled_line (by decide) label t.widths
    rw [lines, List.filter_append, List.filter_append]
    simp [htop, hunder, hbottom, filter_intercalate hbetween, List.flatMap_map]
  rw [splitOn_render, hlines, hwidths]
  exact flatMap_filter_rowLines hlabel w ws h

end Table

end Lineage
