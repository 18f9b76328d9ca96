import Lineage.CommandLine.Run
import Lineage.Proofs.Table

/-!
# What an inspection prints

An inspection prints a table with a row for each of a workspace's files, ends well and changes nothing, whatever it
finds.  One of its lines, and no other, is for the history; it tells the status that was found
(`Workspace.inspection_shows`).
-/

namespace Lineage

open Table (labelled IsLabel)

namespace Workspace

/-- The line for the history: the status and the first line of the details, with blanks after each cell. -/
def Finding.historyLine (f : Finding) (a b c : Nat) : List Char :=
  let blanks (n : Nat) := List.replicate (n + 1) ' '
  "│ ".toList ++ "History".toList ++ blanks a ++ "┆ ".toList ++ f.status.toList ++ blanks b ++ "┆ ".toList ++
    (Table.cellLines f.details).headD [] ++ blanks c ++ "│".toList

end Workspace

/-- How an inspection ended that found this of the history.  It ends well, leaves the files as they were, and exactly
one of the lines that it prints is for the history. -/
structure Ending.Shows (e : Ending) (files : FileTree) (f : Workspace.Finding) : Prop where
  code : e.code = 0
  silent : e.error = none
  kept : e.files = files
  printed : ∃ text a b c, e.output = Utf8.encode text ∧
    (text.splitOn '\n').filter (labelled "History") = [f.historyLine a b c]

namespace Workspace

variable (w : Workspace) (s : Surroundings) (t : FileTree)

def inspection : Ending :=
  ((Command.inspect w).run s t).ending

/-! ### The row for the history -/

theorem isLabel_of_mem : ∀ name ∈ ["File", "History", "Trace", "Atomized"], IsLabel name := by
  have h : ∀ name ∈ ["File", "History", "Trace", "Atomized"],
      name ≠ "" ∧ ' ' ∉ name.toList ∧ '\n' ∉ name.toList := by decide
  intro name hname
  obtain ⟨hnonempty, hblank, hbreak⟩ := h name hname
  exact ⟨hnonempty, hblank, hbreak⟩

theorem isLabel_statusTable (hash : Bytes → Digest) :
    ∀ row ∈ (w.statusTable hash t).header :: (w.statusTable hash t).rows,
      ∃ name rest, row = name :: rest ∧ IsLabel name := by
  intro row hrow
  simp only [statusTable, List.mem_cons, List.not_mem_nil, or_false] at hrow
  rcases hrow with rfl | rfl | rfl | rfl
  all_goals exact ⟨_, _, rfl, isLabel_of_mem _ (by simp)⟩

theorem status_historyFinding_mem (hash : Bytes → Digest) :
    (w.historyFinding hash t).status ∈ ["MISSING", "ERROR", "CORRUPT", "FOUND"] := by
  unfold historyFinding
  split
  · split
    · simp
    · simp
    · split <;> simp
  · simp [missing]

theorem exists_firstLine_eq {f : Finding} (hstatus : '\n' ∉ f.status.toList) (w₁ w₂ w₃ : Nat) :
    ∃ a b c, Table.firstLine [w₁, w₂, w₃] ["History", f.status, f.details] = f.historyLine a b c := by
  have hname : (Table.cellLines "History").headD [] = "History".toList := by
    rw [Table.cellLines_eq_singleton (isLabel_of_mem "History" (by simp)).lineBreak]
    rfl
  have hword : (Table.cellLines f.status).headD [] = f.status.toList := by
    rw [Table.cellLines_eq_singleton hstatus]
    rfl
  unfold Table.firstLine Finding.historyLine
  rw [List.map_cons, List.map_cons, List.map_cons, List.map_nil, hname, hword]
  exact Table.exists_textLine_eq₃ ..

theorem filter_splitOn_statusTable (hash : Bytes → Digest) :
    ∃ a b c, ((w.statusTable hash t).render.toList.splitOn '\n').filter (labelled "History") =
      [(w.historyFinding hash t).historyLine a b c] := by
  have hstatus : '\n' ∉ (w.historyFinding hash t).status.toList := by
    have hwords : ∀ word ∈ ["MISSING", "ERROR", "CORRUPT", "FOUND"], '\n' ∉ word.toList := by decide
    exact hwords _ (w.status_historyFinding_mem t hash)
  obtain ⟨w₁, w₂, w₃, hwidths⟩ : ∃ w₁ w₂ w₃, (w.statusTable hash t).widths = [w₁, w₂, w₃] := ⟨_, _, _, rfl⟩
  obtain ⟨a, b, c, hline⟩ := exists_firstLine_eq hstatus w₁ w₂ w₃
  refine ⟨a, b, c, ?_⟩
  rw [Table.filter_splitOn_render (isLabel_of_mem _ (by simp)) (w.isLabel_statusTable t hash), hwidths, ← hline]
  simp [statusTable]

/-! ### The output -/

/-- The text that an inspection prints, line by line. -/
def reportText (hash : Bytes → Digest) : List Char :=
  [] ++ '\n' :: ("Atomization Status Report".toList ++ '\n' :: ("-------------------------".toList ++
    '\n' :: ((w.statusTable hash t).render.toList ++ '\n' :: ([] ++ '\n' :: []))))

theorem output_inspection : (w.inspection s t).output = Utf8.encode (w.reportText t s.hash) := by
  have htitle : "\nAtomization Status Report".toList = '\n' :: "Atomization Status Report".toList := by simp
  show Command.line _ ++ Command.line _ ++ Command.line _ = _
  simp only [Command.line, Bytes.ofString, Utf8.encode, ← List.flatMap_append, String.toList_append, htitle, reportText]
  simp

/-- An inspection shows what it finds of the history. -/
theorem inspection_shows : (w.inspection s t).Shows t (w.historyFinding s.hash t) := by
  obtain ⟨a, b, c, hrow⟩ := w.filter_splitOn_statusTable t s.hash
  refine ⟨rfl, rfl, rfl, w.reportText t s.hash, a, b, c, w.output_inspection s t, ?_⟩
  -- the lines of the heading and the two empty ones after the table begin with no bar
  have hplain : ∀ text : List Char, '\n' ∉ text → text.head? ≠ some '│' →
      (text.splitOn '\n').filter (labelled "History") = [] := by
    intro text hbreak hhead
    rw [List.splitOn_eq_singleton hbreak, List.filter_cons_of_neg (by simp [Table.labelled_eq_false hhead])]
    rfl
  simp only [reportText, List.splitOn_append_cons_self, List.filter_append, hrow]
  rw [hplain [] (by decide) (by decide), hplain _ (by decide) (by decide), hplain _ (by decide) (by decide)]
  rfl

end Workspace

end Lineage
