import Lineage.Audit
import Lineage.Workspace

/-!
# Sample workspaces

Small workspaces to try things out on: a sound run, one whose history breaks four rules, and one with a
malformed entry.
-/

namespace Lineage.Sample

def payload (operation : String) (branch : Nat) : Json.Object :=
  (Json.Object.empty.insert "op" (.string operation)).insert "branch" (.integer branch)

/-- A run that splits into two branches, extends them, and collapses onto one. -/
def validRecords : History :=
  [⟨"m0", none, payload "atomize" 0⟩,
    ⟨"m1", some "m0", payload "split" 0⟩,
    ⟨"m2", some "m0", payload "split" 1⟩,
    ⟨"m3", some "m1", payload "rewrite" 0⟩,
    ⟨"m4", some "m2", payload "rewrite" 1⟩,
    ⟨"m5", some "m3", payload "collapse" 0⟩]

/-- A missing parent, a duplicate id, a record that names itself, and a second root. -/
def corruptRecords : History :=
  [.root "m0", .child "m1" "m0", .child "m2" "m9", .child "m1" "m0", .child "m4" "m4", .root "m5"]

/-- A history whose second entry has no id. -/
def malformedHistory : Json :=
  .array [
    .object [("id", .string "m0"), ("parent", .string "")],
    .object [("op", .string "split"), ("parent", .string "m0")],
    .object [("id", .string "m2"), ("parent", .string "m0")]]

structure Paths where
  history : String
  trace : String
  atomized : String

def paths (directory : String) : Paths :=
  ⟨Path.join directory Workspace.historyFile, Path.join directory Workspace.traceFile,
    Path.join directory Workspace.atomizedOutput⟩

/-- The trace of a run: a line for each record. -/
def trace (h : History) : String :=
  String.join (h.map fun r => s!"[collapse] {r.id} <- " ++ r.parent.getD "(root)" ++ "\n")

/-- The atomized form of a run. -/
def atomized (h : History) : String :=
  (Json.object [("atoms", .integer h.length)]).compact

/-- Lays out the files of a run with the given history. -/
def layOut (t : FileTree) (directory : String) (h : History) : Except HistoryError FileTree := do
  let p := paths directory
  let t ← if t.has directory then pure t else FileTree.naming directory (t.makeDirectories directory).whole
  let t ← (t.saveHistory p.history h).whole
  let t ← FileTree.naming p.trace (t.write p.trace (.ofString (trace h)))
  let t ← (t.makeParent p.atomized).whole
  FileTree.naming p.atomized (t.write p.atomized (.ofString (atomized h)))

def layOutValid (t : FileTree) (directory : String) : Except HistoryError FileTree :=
  layOut t directory validRecords

def layOutCorrupt (t : FileTree) (directory : String) : Except HistoryError FileTree :=
  layOut t directory corruptRecords

def layOutMalformed (t : FileTree) (directory : String) : Except HistoryError FileTree := do
  let t ← layOutValid t directory
  let path := (paths directory).history
  FileTree.naming path (t.write path (.ofString malformedHistory.compact))

end Lineage.Sample
