import Lineage.CommandLine.Run
import Lineage.Script.Run
import Std.Time.DateTime.Timestamp

/-!
# The program

Takes the files that the arguments are about into a tree, runs the command line on it, and makes the changes
that the run made to the tree.  An atomizer runs inside the tree, as a script or as one of the tools.
-/

namespace Lineage.Program

/-- The text of a location. -/
def pathOf (place : Location) : String :=
  "/" ++ "/".intercalate place

/-- What the system says when it refuses something that is there. -/
def refusal : IO.Error → FileError
  | .permissionDenied _ _ _ => .denied
  | _ => .inputOutput

/-- What there is at a location.  A directory is closed when its own entry cannot be looked up in it, and scripts
may be executed. -/
def look (place : Location) : IO (Option FileTree.Node) :=
  try
    let path ← IO.FS.realPath (pathOf place)
    let known ← path.metadata
    match known.type with
    | .dir =>
      try
        let _ ← (path / ".").metadata
        return some .directory
      catch _ => return some .closed
    | .file =>
      try
        let content := (← IO.FS.readBinFile path).toList
        return some (.file content known.modified.sec (Script.interpreter? content).isSome)
      catch e => return some (.unreadable (refusal e) known.byteSize.toNat known.modified.sec)
    | _ => return none
  catch _ => return none

/-- Takes what is at a location into a tree. -/
def take (t : FileTree) (place : Location) : IO FileTree := do
  match ← look place with
  | some node => return t.set place node
  | none => return t

/-- Takes the directories that a location lies in, and what is there itself. -/
def takeTo (t : FileTree) (place : Location) : IO FileTree :=
  ((List.range (place.length + 1)).map place.take).foldlM take t

/-- Takes all that is below a directory, down to a depth. -/
def takeBelow (t : FileTree) (place : Location) : (depth : Nat) → IO FileTree
  | 0 => return t
  | depth + 1 => do
    if !t.isDirectory place then return t
    let mut t := t
    for entry in ← (← IO.FS.realPath (pathOf place)).readDir do
      let inner := place ++ [entry.fileName]
      t ← takeBelow (← take t inner) inner depth
    return t

/-- The place of a path, whether there is something or not. -/
def placeOf (t : FileTree) (path : String) : Location :=
  (Path.parts path).foldl FileTree.step (t.origin path)

/-- How deep an atomizer sees below the root of a workspace, and how deep scripts may start each other. -/
def depth : Nat := 32

/-- Takes the files that a command is about. -/
def takeFor (t : FileTree) : Command → IO FileTree
  | .build w => do
    let root := placeOf t w.root
    takeBelow (← takeTo (← takeTo t (placeOf t w.outputPath)) root) root depth
  | .audit w => takeTo t (placeOf t w.tracePath)
  | .verify w _ => takeTo t (placeOf t w.historyPath)
  | .inspect w => [w.historyPath, w.tracePath, w.outputPath].foldlM (fun t path => takeTo t (placeOf t path)) t

/-- Makes the changes that lead from one tree to another. -/
def store (before after : FileTree) : IO Unit := do
  for (place, node) in before.nodes do
    match node, after.node? place with
    | .file _ _ _, none | .unreadable _ _ _, none => IO.FS.removeFile (pathOf place)
    | _, _ => pure ()
  for (place, node) in after.nodes.reverse do
    match node, before.node? place with
    | .directory, none => IO.FS.createDirAll (pathOf place)
    | .file content _ _, some (.file was _ _) =>
      if content ≠ was then IO.FS.writeBinFile (pathOf place) ⟨content.toArray⟩
    | .file content _ _, none => IO.FS.writeBinFile (pathOf place) ⟨content.toArray⟩
    | _, _ => pure ()

def usage : String :=
  "Usage: lineage build [-d DIR] [--input PATH] [-o PATH] [--atomizer PROGRAM] [--atomizer-arg ARG]...\n" ++
  "       lineage audit [-d DIR] [--trace PATH]\n" ++
  "       lineage verify [-d DIR] [--history PATH] [--fail-fast] [--json]\n" ++
  "       lineage inspect [-d DIR]\n"

/-- The files of a command, seen from the current directory. -/
def filesFor (now : Int) (arguments : List String) : IO FileTree := do
  let directory := placeOf (.fresh now) (toString (← IO.currentDir))
  let t := { FileTree.fresh now with workingDirectory := directory }
  match Command.ofArguments arguments with
  | none => return t
  | some command => takeFor (← takeTo t directory) command

end Lineage.Program

open Lineage in
/-- Runs the command line on the files of the system. -/
def main (arguments : List String) : IO UInt32 := do
  let now := (← Std.Time.Timestamp.now).toSecondsSinceUnixEpoch.val
  let files ← Program.filesFor now arguments
  let surroundings : Surroundings := ⟨Digest.ofContent, Script.launcher Program.depth, Timestamp.text now⟩
  let ending := runCommandLine surroundings files arguments
  Program.store files ending.files
  (← IO.getStdout).write ⟨ending.output.toArray⟩
  if ending.code = 2 then IO.eprint Program.usage
  if let some error := ending.error then IO.eprint error
  return UInt32.ofNat ending.code
