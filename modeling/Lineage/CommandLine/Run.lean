import Lineage.CommandLine.Arguments
import Lineage.Exchange.Certificate
import Lineage.Files.Program
import Lineage.Status

/-!
# Commands

What the command line can be asked to do.  A run is a function of the arguments, the files, the time and the
way in which programs are started; it answers with what it prints, how it ends, and the files it leaves.
-/

namespace Lineage

inductive Command where
  /-- Runs the atomizer, and looks whether it left its output. -/
  | build (w : Workspace)
  /-- Prints the trace. -/
  | audit (w : Workspace)
  /-- Verifies the history, and prints a table or a certificate. -/
  | verify (w : Workspace) (json : Bool)
  /-- Prints which files are there and sound. -/
  | inspect (w : Workspace)

namespace Command

def directory : OptionSpec := ⟨"dir", some 'd', .path⟩

def ofBuild (arguments : List String) : Option Command := do
  let given ← Arguments.read? [directory, ⟨"input", none, .path⟩, ⟨"output", some 'o', .path⟩,
    ⟨"atomizer", none, .path⟩, ⟨"atomizer-arg", none, .texts⟩] arguments
  let value? := Arguments.value? given
  let w := ((Workspace.resolve (value? "dir")).withInput (value? "input")).withOutput (value? "output")
  return .build
    ((w.withAtomizer (value? "atomizer")).withAtomizerArguments (Arguments.values given "atomizer-arg"))

def ofAudit (arguments : List String) : Option Command := do
  let given ← Arguments.read? [directory, ⟨"trace", none, .path⟩] arguments
  let value? := Arguments.value? given
  return .audit ((Workspace.resolve (value? "dir")).withTrace (value? "trace"))

def ofVerify (arguments : List String) : Option Command := do
  let given ← Arguments.read?
    [directory, ⟨"history", none, .path⟩, ⟨"fail-fast", none, .flag⟩, ⟨"json", none, .flag⟩] arguments
  let value? := Arguments.value? given
  let policy : Policy := if Arguments.has given "fail-fast" then .failFast else .collect
  let w := ((Workspace.resolve (value? "dir")).withHistory (value? "history")).withPolicy policy
  return .verify w (Arguments.has given "json")

def ofInspect (arguments : List String) : Option Command := do
  let given ← Arguments.read? [directory] arguments
  return .inspect (Workspace.resolve (Arguments.value? given "dir"))

/-- The command that an argument list asks for.  There is none when the list is misused. -/
def ofArguments : List String → Option Command
  | "build" :: rest => ofBuild rest
  | "audit" :: rest => ofAudit rest
  | "verify" :: rest => ofVerify rest
  | "inspect" :: rest => ofInspect rest
  | _ => none

end Command

/-- Why a command failed, and what lies behind it. -/
structure Failure where
  message : String
  causes : List String

namespace Failure

/-- A text whose further lines are indented like its first. -/
def indented (indent : Nat) (text : String) : String :=
  String.ofList ((text.toList.splitOn '\n').intersperse ('\n' :: List.replicate indent ' ')).flatten

/-- The causes, numbered when there are several. -/
def causeLines (causes : List String) : List String :=
  match causes with
  | [cause] => ["    " ++ indented 4 cause]
  | _ => causes.zipIdx.map fun (cause, i) =>
    let number := toString i
    String.ofList (List.replicate (5 - number.length) ' ') ++ number ++ ": " ++ indented 7 cause

def report (f : Failure) : String :=
  let causes := match f.causes with
    | [] => ""
    | causes => "\n\nCaused by:\n" ++ "\n".intercalate (causeLines causes)
  s!"Error: {f.message}" ++ causes ++ "\n"

end Failure

/-- What a command printed, the files it leaves, and its failure if it failed. -/
structure Run where
  output : Bytes
  files : FileTree
  failure : Option Failure

/-- What a run depends on besides its command and the files. -/
structure Surroundings where
  hash : Bytes → Digest
  launcher : Launcher
  /-- The present moment, as certificates give it. -/
  now : String

namespace Command

/-- A line of text. -/
def line (text : String) : Bytes :=
  .ofString (text ++ "\n")

def runAudit (w : Workspace) (t : FileTree) : Run :=
  let path := w.tracePath
  let heading := line "[FAB] Auditing collapse trace..."
  match t.readTrace path with
  | .error e => ⟨heading, t, some ⟨s!"Failed to read collapse trace {path}", e.chain⟩⟩
  | .ok text =>
    ⟨heading ++ line "\nCollapse Trace Log\n-------------------" ++ line (String.ofList text), t, none⟩

def rejection (violations : List Violation) : Failure :=
  let first := match violations.head? with
    | some v => v.message
    | none => ""
  ⟨s!"History verification failed: {violations.length} violation(s), first: {first}", []⟩

/-- What is printed for an outcome. -/
def verdictText (s : Surroundings) (json : Bool) (o : Outcome) : String :=
  if json then (o.certificate s.now).toJson.pretty
  else
    match o.report with
    | .verified n => s!"\n✅ DAG verified: {n} nodes, no missing links.\n"
    | .failed vs => s!"\n❌ DAG REJECTED\n\n{(Violation.table vs).render}\n"

def runVerify (s : Surroundings) (w : Workspace) (json : Bool) (t : FileTree) : Run :=
  let path := w.historyPath
  let heading := if json then [] else line "[FAB] Replaying and validating DAG..."
  match t.auditHistory s.hash (.of w.policy) path with
  | .error e => ⟨heading, t, some ⟨s!"Failed to verify history {path}", e.chain⟩⟩
  | .ok o =>
    let failure := match o.report with
      | .verified _ => none
      | .failed vs => some (rejection vs)
    ⟨heading ++ line (verdictText s json o), t, failure⟩

def runInspect (s : Surroundings) (w : Workspace) (t : FileTree) : Run :=
  ⟨line "\nAtomization Status Report" ++ line "-------------------------" ++
    line ((w.statusTable s.hash t).render ++ "\n"), t, none⟩

/-- The arguments that the atomizer is started with. -/
def atomizerArguments (w : Workspace) : List String :=
  w.atomizerArguments ++ ["--atomized", w.input, "-o", w.output]

/-- Makes the directory of the output. -/
def makeOutputDirectory (path : String) (t : FileTree) : Changes Failure :=
  match Path.parent? path with
  | none => t.after (.ok t)
  | some directory =>
    (t.makeDirectories directory).mapError fun e =>
      ⟨s!"Failed to create output directory {directory}", [e.message]⟩

def runBuild (s : Surroundings) (w : Workspace) (t : FileTree) : Run :=
  let path := w.outputPath
  let heading := line "[FAB] Running compiler atomization pass..."
  let made := makeOutputDirectory path t
  let t := made.files
  match made.result with
  | .error failure => ⟨heading, t, some failure⟩
  | .ok () =>
    match t.launch s.launcher w.root w.atomizer (atomizerArguments w) with
    | .error e => ⟨heading, t, some ⟨s!"Failed to launch atomizer {w.atomizer}", [e.message]⟩⟩
    | .ok f =>
      let printed := heading ++ f.output
      if f.status ≠ 0 then ⟨printed, f.files, some ⟨s!"Compiler failed: exit status: {f.status}", []⟩⟩
      else if !f.files.has path then
        ⟨printed, f.files, some ⟨s!"Atomized output not found at {path}", []⟩⟩
      else ⟨printed ++ line s!"✅ Atomized structure stored at: {path}", f.files, none⟩

def run (s : Surroundings) (t : FileTree) : Command → Run
  | .build w => runBuild s w t
  | .audit w => runAudit w t
  | .verify w json => runVerify s w json t
  | .inspect w => runInspect s w t

end Command

/-- How a run of the command line ended: its exit code, and the report of its failure. -/
structure Ending where
  code : Nat
  output : Bytes
  error : Option String
  files : FileTree

/-- A run ends with the code 0 unless it failed. -/
def Run.ending (r : Run) : Ending :=
  match r.failure with
  | none => ⟨0, r.output, none, r.files⟩
  | some f => ⟨1, r.output, some f.report, r.files⟩

/-- Runs the command line.  Arguments that ask for no command end it at once, with a code of their own. -/
def runCommandLine (s : Surroundings) (t : FileTree) (arguments : List String) : Ending :=
  match Command.ofArguments arguments with
  | none => ⟨2, [], none, t⟩
  | some c => (c.run s t).ending

end Lineage
