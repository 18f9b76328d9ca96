import Lineage.Files.Path
import Lineage.Verification

/-!
# Workspaces

Where one atomization run keeps its files.  Relative paths are relative to the root, which is also where the
atomizer is started.
-/

namespace Lineage

namespace Workspace

def historyFile : String := "audit/dag.json"

def traceFile : String := "audit/collapse_trace.log"

def atomizerInput : String := "input.fb"

def atomizedOutput : String := "build/atomized.json"

def atomizerProgram : String := "fabc"

end Workspace

structure Workspace where
  root : String
  history : String
  trace : String
  input : String
  output : String
  atomizer : String
  /-- What the atomizer is given before its own arguments, for programs that start another. -/
  atomizerArguments : List String
  policy : Policy
  deriving DecidableEq, Repr

namespace Workspace

/-- The usual files under a directory. -/
def under (root : String) : Workspace :=
  ⟨root, historyFile, traceFile, atomizerInput, atomizedOutput, atomizerProgram, [], .collect⟩

/-- The usual files under a directory, or under the current one. -/
def resolve (directory : Option String) : Workspace :=
  under (directory.getD ".")

def withHistory (w : Workspace) (path : Option String) : Workspace :=
  { w with history := path.getD w.history }

def withTrace (w : Workspace) (path : Option String) : Workspace :=
  { w with trace := path.getD w.trace }

def withInput (w : Workspace) (path : Option String) : Workspace :=
  { w with input := path.getD w.input }

def withOutput (w : Workspace) (path : Option String) : Workspace :=
  { w with output := path.getD w.output }

def withAtomizer (w : Workspace) (program : Option String) : Workspace :=
  { w with atomizer := program.getD w.atomizer }

/-- Adds arguments after those that are there. -/
def withAtomizerArguments (w : Workspace) (arguments : List String) : Workspace :=
  { w with atomizerArguments := w.atomizerArguments ++ arguments }

def withPolicy (w : Workspace) (policy : Policy) : Workspace :=
  { w with policy := policy }

def historyPath (w : Workspace) : String :=
  Path.join w.root w.history

def tracePath (w : Workspace) : String :=
  Path.join w.root w.trace

def outputPath (w : Workspace) : String :=
  Path.join w.root w.output

end Workspace

end Lineage
