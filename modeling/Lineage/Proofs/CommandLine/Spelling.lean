import Lineage.CommandLine.Run
import Mathlib.Data.List.TakeWhile

/-!
# Spelling out options

Every option can be given in one argument, with its value behind an equals sign.  Options that are spelled so are
read as they were meant (`read?_arguments`), whatever their values look like.  So there is a command line for every
way to verify a history (`ofArguments_verifyLine`) and for every inspection (`ofArguments_inspectLine`).
-/

namespace Lineage

/-- The argument that gives an option together with its value. -/
def Given.argument (g : Given) : String :=
  "--" ++ g.1 ++ match g.2 with
    | none => ""
    | some value => "=" ++ value

/-- The option is one of those that there are, and its value one that it takes. -/
structure OptionSpec.Takes (spec : OptionSpec) (specs : List OptionSpec) (g : Given) : Prop where
  found : specs.find? (·.name == g.1) = some spec
  named : g.1 ≠ ""
  plain : '=' ∉ g.1.toList
  value : match g.2 with
    | none => spec.form = .flag
    | some value => Arguments.accepts spec value = true

namespace Arguments

variable {specs : List OptionSpec} {spec : OptionSpec} {g : Given} {given : List Given}

theorem toList_argument (g : Given) :
    g.argument.toList = '-' :: '-' :: (g.1.toList ++ match g.2 with
      | none => []
      | some value => '=' :: value.toList) := by
  obtain ⟨name, value⟩ := g
  cases value <;> simp [Given.argument, String.toList_append]

theorem argument_ne_dashes (h : g.1 ≠ "") : g.argument ≠ "--" := by
  intro heq
  have hlist := toList_argument g
  rw [heq] at hlist
  have hnil : g.1.toList ++ _ = [] := (List.cons.inj (List.cons.inj hlist).2).2.symm
  exact h (String.toList_eq_nil_iff.1 (List.append_eq_nil_iff.1 hnil).1)

theorem split?_argument (h : spec.Takes specs g) : split? specs g.argument = some (spec, g.2) := by
  obtain ⟨name, value⟩ := g
  have hname : ∀ c ∈ name.toList, decide (c ≠ '=') = true := fun c hc =>
    decide_eq_true fun heq => h.plain (heq ▸ hc)
  have hplain := h.plain
  rw [split?, toList_argument]
  -- the name ends at the first equals sign, so it does not matter whether the value has more of them
  cases value with
  | none =>
    simp only [List.append_nil, List.takeWhile_eq_self_iff.2 hname, String.ofList_toList, h.found]
    simp [hplain]
  | some value =>
    simp only [List.takeWhile_append_of_pos hname, List.dropWhile_append_of_pos hname]
    simp [h.found]

/-- Options that are spelled out are read as they were given. -/
theorem readFrom_arguments (h : ∀ g ∈ given, ∃ spec, OptionSpec.Takes spec specs g) :
    readFrom specs none (given.map Given.argument) = some given := by
  induction given with
  | nil => rfl
  | cons g given ih =>
    obtain ⟨spec, hspec⟩ := h g (List.mem_cons_self ..)
    have ih := ih fun g' hg' => h g' (List.mem_cons_of_mem _ hg')
    have hname : spec.name = g.1 := by simpa using List.find?_some hspec.found
    have hvalue := hspec.value
    rw [List.map_cons, readFrom]
    simp only [if_neg (argument_ne_dashes hspec.named), split?_argument hspec, ih]
    obtain ⟨name, value⟩ := g
    cases value with
    | none =>
      simp only at hvalue
      simp [hname, hvalue]
    | some value =>
      simp only at hvalue
      simp [hname, hvalue]

theorem read?_arguments (h : ∀ g ∈ given, ∃ spec, OptionSpec.Takes spec specs g)
    (hr : hasRepeats specs given = false) : read? specs (given.map Given.argument) = some given := by
  rw [read?, readFrom_arguments h]
  simp [hr]

theorem accepts_path (hform : spec.form = .path) {path : String} (h : path ≠ "") : accepts spec path = true := by
  simp [accepts, hform, h]

end Arguments

/-! ### Verifying a history -/

/-- The options of a verification. -/
def verifyOptions (directory history : Option String) (failFast json : Bool) : List Given :=
  (directory.map fun path => ("dir", some path)).toList ++ (history.map fun path => ("history", some path)).toList ++
    (if failFast then [("fail-fast", none)] else []) ++ if json then [("json", none)] else []

/-- The command line that verifies a history. -/
def verifyLine (directory history : Option String) (failFast json : Bool) : List String :=
  "verify" :: (verifyOptions directory history failFast json).map Given.argument

/-- The policy of a verification, by the flag that stops it at the first violation. -/
def Policy.ofFlag (failFast : Bool) : Policy :=
  if failFast then .failFast else .collect

theorem ofArguments_verifyLine {directory history : Option String} (hd : directory ≠ some "")
    (hh : history ≠ some "") (failFast json : Bool) :
    Command.ofArguments (verifyLine directory history failFast json) =
      some (.verify (((Workspace.resolve directory).withHistory history).withPolicy (.ofFlag failFast)) json) := by
  have hnames : ∀ name ∈ ["dir", "history", "fail-fast", "json"], name ≠ "" ∧ '=' ∉ name.toList := by decide
  have htakes : ∀ g ∈ verifyOptions directory history failFast json, ∃ spec, OptionSpec.Takes spec
      [Command.directory, ⟨"history", none, .path⟩, ⟨"fail-fast", none, .flag⟩, ⟨"json", none, .flag⟩] g := by
    intro g hg
    simp only [verifyOptions, List.mem_append, Option.mem_toList, Option.map_eq_some_iff] at hg
    rcases hg with ((⟨path, rfl, rfl⟩ | ⟨path, rfl, rfl⟩) | hg) | hg
    · obtain ⟨hne, hplain⟩ := hnames "dir" (by simp)
      exact ⟨_, rfl, hne, hplain, Arguments.accepts_path rfl fun h => hd (h ▸ rfl)⟩
    · obtain ⟨hne, hplain⟩ := hnames "history" (by simp)
      exact ⟨_, rfl, hne, hplain, Arguments.accepts_path rfl fun h => hh (h ▸ rfl)⟩
    · cases failFast with
      | false => cases hg
      | true =>
        obtain rfl := List.mem_singleton.1 hg
        exact ⟨_, rfl, by decide, by decide, rfl⟩
    · cases json with
      | false => cases hg
      | true =>
        obtain rfl := List.mem_singleton.1 hg
        exact ⟨_, rfl, by decide, by decide, rfl⟩
  -- no option is given twice, whichever of the four are given
  have hread := Arguments.read?_arguments htakes (by
    cases directory <;> cases history <;> cases failFast <;> cases json <;> rfl)
  show Command.ofVerify _ = _
  rw [Command.ofVerify, hread]
  cases directory <;> cases history <;> cases failFast <;> cases json <;> rfl

/-! ### Inspecting a workspace -/

def inspectOptions (directory : Option String) : List Given :=
  (directory.map fun path => ("dir", some path)).toList

/-- The command line that inspects the workspace in a directory. -/
def inspectLine (directory : Option String) : List String :=
  "inspect" :: (inspectOptions directory).map Given.argument

theorem ofArguments_inspectLine {directory : Option String} (hd : directory ≠ some "") :
    Command.ofArguments (inspectLine directory) = some (.inspect (Workspace.resolve directory)) := by
  have htakes : ∀ g ∈ inspectOptions directory, ∃ spec, OptionSpec.Takes spec [Command.directory] g := by
    intro g hg
    simp only [inspectOptions, Option.mem_toList, Option.map_eq_some_iff] at hg
    obtain ⟨path, rfl, rfl⟩ := hg
    have hname : "dir" ≠ "" ∧ '=' ∉ "dir".toList := by decide
    exact ⟨_, rfl, hname.1, hname.2, Arguments.accepts_path rfl fun h => hd (h ▸ rfl)⟩
  have hread := Arguments.read?_arguments htakes (by cases directory <;> rfl)
  show Command.ofInspect _ = _
  rw [Command.ofInspect, hread]
  cases directory <;> rfl

end Lineage
