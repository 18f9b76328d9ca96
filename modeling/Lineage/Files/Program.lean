import Lineage.Files.Tree

/-!
# Programs

What a program that a run starts does to the files, and how it ends.
-/

namespace Lineage

/-- A program that has ended: its status, what it wrote to its output, and the files it leaves. -/
structure Finished where
  status : Nat
  output : Bytes
  files : FileTree

/-- How programs are started: by name, with arguments, in the working directory of the tree. -/
abbrev Launcher := FileTree → String → List String → Except FileError Finished

namespace FileTree

/-- The files as seen from another working directory. -/
def enter (t : FileTree) (directory : String) : Except FileError FileTree := do
  let place ← t.locate directory
  match t.node? place with
  | some .directory => return { t with workingDirectory := place }
  | some .closed => .error .denied
  | some _ => .error .notDirectory
  | none => .error .notFound

/-- The files as seen from where they were seen before. -/
def returnTo (t : FileTree) (before : FileTree) : FileTree :=
  { t with workingDirectory := before.workingDirectory }

/-- Starts a program in a directory. -/
def launch (t : FileTree) (launcher : Launcher) (directory program : String) (arguments : List String) :
    Except FileError Finished := do
  let f ← launcher (← t.enter directory) program arguments
  return { f with files := f.files.returnTo t }

end FileTree

end Lineage
