import Portcall.Cli.Args
import Portcall.Cli.Output
import Portcall.Report.JsonReading
import Portcall.Run.Noninterference

/-! One invocation, from the tokens on the command line to what is printed, the file that is
written and the exit code. -/
namespace Portcall.Cli

/-- What an invocation does that is seen outside. -/
inductive Effect where
  | out (text : String)
  | err (text : String)
  /-- The file system is asked to write a file. -/
  | write (file : Write)
  deriving DecidableEq, Repr

/-- What an invocation finds around it. -/
structure Surroundings where
  cwd : AbsolutePath
  sources : ProfileSources
  /-- What is said of a profile that does not load. -/
  complaint : String → String
  header : RunHeader
  salt : String
  /-- What the probes come to within a budget. -/
  behaviour : ℤ → String → ProbeOutcome
  /-- Why a file cannot be written, if it cannot. -/
  unwritable : Write → Option String
  /-- What is said of an error nothing caught. -/
  stack : String

section Invocation
variable (rx : ReportExternals) (s : Surroundings)

def builtinProfileIds : List String := s.sources.builtin.map Prod.fst

def helpText : String :=
  Text.join "\n" ([
    toolName ++ " " ++ version ++ " - enterprise deployment readiness checker",
    "",
    "USAGE",
    "  " ++ toolName ++ " check --profile <name|path> [options]",
    "  " ++ toolName ++ " profiles",
    "  " ++ toolName ++ " --version",
    "",
    "OPTIONS",
    "  --profile <name|path>   Built-in profile name, or a path to a YAML profile.",
    "  --format <json|html|text>",
    "                          Output format. Default: text.",
    "  --out <file>            Write the report to a file instead of stdout.",
    "                          Must be inside the current working directory.",
    "  --timeout <seconds>     Global budget for the whole run. Default: 60.",
    "  --no-redact             Do not hash internal hostnames, IPs, usernames,",
    "                          paths and serials. Internal use only; prints a",
    "                          warning and marks the report as unredacted.",
    "  -h, --help              Show this help.",
    "  -v, --version           Show the version.",
    "",
    "EXIT CODES",
    "  0  no blockers      1  degraded or undetermined",
    "  2  blocker          3  portcall itself failed",
    "",
    "BUILT-IN PROFILES"] ++
    (builtinProfileIds s).map (fun id => "  " ++ id) ++ [
    "",
    "WHAT IT DOES NOT DO",
    "  No writes outside the working directory. No installs. No config changes.",
    "  It never reads keychains, tokens, private keys or browser profiles, and",
    "  never prompts for a password. It contacts only the hosts named in the",
    "  active profile. It sends no telemetry: nothing leaves this machine.",
    ""])

/-- A line of this tool on the error stream. -/
def said (message : String) : Effect := .err (toolName ++ ": " ++ message ++ "\n")

def redactionWarning : Effect :=
  .err (toolName ++ ": WARNING - redaction is disabled. This report may contain internal\n" ++
    "  hostnames, IP addresses, usernames, filesystem paths and serial numbers.\n" ++
    "  Do not send it outside the organisation that produced it.\n")

def warnings (command : CheckCommand) : List Effect :=
  if command.redact then [] else [redactionWarning]

def withNewline (rendered : String) : String :=
  if ['\n'].isSuffixOf rendered.toList then rendered else rendered ++ "\n"

/-- Hand a rendering over, to a file or to the output stream; and whether it got there. -/
def deliver (command : CheckCommand) (rendered : String) : List Effect × Bool :=
  match command.out with
  | none => ([.out (withNewline rendered)], true)
  | some target =>
    match writeReport target s.cwd rendered with
    | .error refused => ([said refused.message], false)
    | .ok file =>
      match s.unwritable file with
      | none => ([.write file, said ("report written to " ++ file.path)], true)
      | some reason =>
        ([.write file, said ("could not write '" ++ target ++ "': " ++ reason)], false)

/-- The run a command asks for. -/
def checkRun (command : CheckCommand) : CheckRun where
  sources := s.sources
  command := command.toCheckCommand
  header := s.header
  salt := s.salt
  behaviour := s.behaviour command.timeoutMs

/-- What becomes of an error that nothing catches. -/
def internalError : Effect := .err (toolName ++ ": internal error\n" ++ s.stack ++ "\n")

def check (command : CheckCommand) : List Effect × ExitCode :=
  match loadProfile rx.toExternals s.sources command.profile with
  | none => ([said (s.complaint command.profile)], .toolError)
  | some loaded =>
    match run rx.localeCompare s.header loaded (s.behaviour command.timeoutMs) with
    | none => (warnings command ++ [internalError s], .toolError)
    | some report =>
      let safe := redact rx report (redactionOptions (checkRun s command) loaded.profile)
      let delivered := deliver s command (Portcall.render safe command.format)
      (warnings command ++ delivered.1,
        if delivered.2 then exitCodeFor safe.report.summary.severity else .toolError)

def main (argv : List String) : List Effect × ExitCode :=
  match parseArgs argv with
  | .error message => ([said message], .toolError)
  | .ok .help => ([.out (helpText s)], .ok)
  | .ok .version => ([.out (toolName ++ " " ++ version ++ "\n")], .ok)
  | .ok .profiles => ((builtinProfileIds s).map fun id => .out (id ++ "\n"), .ok)
  | .ok (.check command) => check rx s command

end Invocation

section Documents
variable {rx : ReportExternals} {s : Surroundings} {command : CheckCommand} {rendered : String}

/-- The document that an effect leaves behind. -/
def documentOf (s : Surroundings) : Effect → Option String
  | .out text => some text
  | .err _ => none
  | .write file => if (s.unwritable file).isNone then some file.contents else none

def documents (s : Surroundings) (effects : List Effect) : List String :=
  effects.filterMap (documentOf s)

/-- What a delivery comes to: nothing, or one document. -/
structure Handed (s : Surroundings) (rendered : String) (handed : List Effect × Bool) : Prop where
  documents : handed.2 = false ∧ documents s handed.1 = [] ∨
    handed.2 = true ∧ ∃ behind, (behind = "" ∨ behind = "\n") ∧
      documents s handed.1 = [rendered ++ behind]
  below : ∀ file, .write file ∈ handed.1 → IsBelow s.cwd file.path

lemma handed_deliver : Handed s rendered (deliver s command rendered) := by
  unfold deliver
  split
  · refine ⟨Or.inr ⟨rfl, ?_⟩, by simp⟩
    unfold withNewline
    split_ifs
    · exact ⟨"", Or.inl rfl, by rw [String.append_empty]; rfl⟩
    · exact ⟨"\n", Or.inr rfl, rfl⟩
  · split
    · exact ⟨Or.inl ⟨rfl, rfl⟩, by simp [said]⟩
    · rename_i file hfile
      obtain ⟨hbelow, rfl⟩ := writeReport_below hfile
      have hfiles : ∀ (text : String) (file' : Write),
          Effect.write file' ∈ [.write file, .err text] → IsBelow s.cwd file'.path := by
        intro text file' hm
        have hsame : file' = file := by simpa using hm
        rwa [hsame]
      split
      · rename_i hwritable
        refine ⟨Or.inr ⟨rfl, "", Or.inl rfl, ?_⟩, hfiles _⟩
        simp [documents, documentOf, said, hwritable]
      · rename_i hunwritable
        refine ⟨Or.inl ⟨rfl, ?_⟩, hfiles _⟩
        simp [documents, documentOf, said, hunwritable]

lemma documents_warnings (effects : List Effect) :
    documents s (warnings command ++ effects) = documents s effects := by
  unfold warnings
  split_ifs <;> rfl

/-- What a check does: it fails and leaves nothing behind, or leaves one document and exits with
what that document says. -/
structure Checked (rx : ReportExternals) (s : Surroundings) (command : CheckCommand)
    (done : List Effect × ExitCode) : Prop where
  failed : done.2 = .toolError ↔ documents s done.1 = []
  document : done.2 ≠ .toolError → ∃ (safe : RedactedReport rx) (document : String),
    documents s done.1 = [document] ∧ safe.report.redacted = command.redact ∧
      done.2 = exitCodeFor safe.report.summary.severity ∧
      (document = Portcall.render safe command.format ∨
        document = Portcall.render safe command.format ++ "\n") ∧
      (command.format = .json → (Json.read document).bind readReport = some safe.report)
  /-- No unredacted document is left behind without a warning before it. -/
  warned : command.redact = false → done.2 ≠ .toolError → done.1.head? = some redactionWarning
  below : ∀ file, .write file ∈ done.1 → IsBelow s.cwd file.path

lemma exitCodeFor_ne_toolError (severity : Severity) : exitCodeFor severity ≠ .toolError := by
  cases severity <;> decide

lemma checked_check : Checked rx s command (check rx s command) := by
  have hwarnings : ∀ {effects : List Effect}, (∀ file, .write file ∈ effects →
      IsBelow s.cwd file.path) → ∀ file, .write file ∈ warnings command ++ effects →
        IsBelow s.cwd file.path := by
    intro effects h file hm
    rcases List.mem_append.mp hm with hm | hm
    · unfold warnings at hm
      split_ifs at hm
      · cases hm
      · simp [redactionWarning] at hm
    · exact h file hm
  unfold check
  split
  · exact ⟨by simp [documents, documentOf, said], fun h => absurd rfl h,
      fun _ h => absurd rfl h, by simp [said]⟩
  · rename_i loaded hload
    split
    · refine ⟨?_, fun h => absurd rfl h, fun _ h => absurd rfl h, hwarnings ?_⟩
      · rw [documents_warnings]
        simp [documents, documentOf, internalError]
      · simp [internalError]
    · rename_i report hrun
      dsimp only
      generalize hsafe : redact rx report (redactionOptions (checkRun s command) loaded.profile) =
        safe
      have hredacted : safe.report.redacted = command.redact := by rw [← hsafe]; rfl
      obtain ⟨hdocuments, hbelow⟩ := @handed_deliver s command (Portcall.render safe command.format)
      rcases hdocuments with ⟨hhanded, hnone⟩ | ⟨hhanded, behind, hbehind, hone⟩
      · rw [hhanded]
        refine ⟨?_, fun h => absurd rfl h, fun _ h => absurd rfl h, hwarnings hbelow⟩
        rw [documents_warnings, hnone]
        simp
      · rw [hhanded]
        have hcode := exitCodeFor_ne_toolError safe.report.summary.severity
        refine ⟨?_, fun _ => ⟨safe, _, (documents_warnings _).trans hone, hredacted, rfl, ?_, ?_⟩,
          fun hunredacted _ => ?_, hwarnings hbelow⟩
        · rw [documents_warnings, hone]
          simp [hcode]
        · rcases hbehind with rfl | rfl
          · exact Or.inl (String.append_empty)
          · exact Or.inr rfl
        · intro hformat
          rw [hformat]
          apply readReport_renderJson_append
          rcases hbehind with rfl | rfl
          · exact List.forall_mem_nil _
          · exact List.forall_mem_singleton.mpr rfl
        · simp [warnings, hunredacted]

/-- Whatever a check meets, the exit code and the document agree: a pipeline that reads the JSON
finds in it the severity it was told, and a tool error is an invocation that left nothing behind.
Files are written below the working directory only. -/
theorem main_checked {argv : List String} (h : parseArgs argv = .ok (.check command)) :
    Checked rx s command (main rx s argv) := by
  unfold main
  rw [h]
  exact checked_check

/-- A place where every file is one profile, and one name is looked up. -/
def namedSurroundings (host : String) : Surroundings where
  cwd := ⟨"/work", rfl⟩
  sources :=
    { readFile := fun _ => some "name: acme"
      builtin := []
      parseYaml := fun _ => some acmeProfile }
  complaint id := "unknown profile '" ++ id ++ "'"
  header := ⟨"2025-01-01T00:00:00.000Z", 5, ⟨"linux", "x64", "node", "24.0.0"⟩⟩
  salt := "salt"
  behaviour _ probe := .returned (if probe = "dns" then
    [{ id := "dns.resolved", probe := "dns", severity := .ok, title := "resolves",
       evidence := [⟨"host", host, .hostname⟩] }] else [])
  unwritable _ := none
  stack := ""

def namedArgv : List String := ["check", "--profile", "./acme.yaml", "--format", "json"]

theorem main_checked_named : Checked quietExternals (namedSurroundings "a.corp")
    ⟨⟨"./acme.yaml", .json, true⟩, 60000, none⟩
    (main quietExternals (namedSurroundings "a.corp") namedArgv) :=
  main_checked (by decide +kernel)

end Documents

section Alike
variable {rx : ReportExternals} {left right : Surroundings}

/-- Two places alike but for what the probes find, and alike in that up to tokens. -/
structure AlikeSurroundings (rx : ReportExternals) (left right : Surroundings) : Prop where
  cwd : left.cwd = right.cwd
  sources : left.sources = right.sources
  complaint : left.complaint = right.complaint
  header : left.header = right.header
  salt : left.salt = right.salt
  unwritable : left.unwritable = right.unwritable
  stack : left.stack = right.stack
  findings : ∀ (command : CheckCommand) (loaded : LoadedProfile rx.toExternals),
    command.redact = true →
    loadProfile rx.toExternals left.sources command.profile = some loaded →
      Option.Rel
        (List.Forall₂ (AlikeFinding rx (redactionOptions (checkRun left command) loaded.profile)))
        (gatherFindings (left.behaviour command.timeoutMs))
        (gatherFindings (right.behaviour command.timeoutMs))

/-- Alike findings pass the check of remediations together. -/
lemma remediable_of_alike {options : RedactionOptions} {findings findings' : List Finding}
    (h : List.Forall₂ (AlikeFinding rx options) findings findings') :
    (∀ finding ∈ findings, Remediable finding) ↔ ∀ finding ∈ findings', Remediable finding := by
  induction h with
  | nil => exact Iff.rfl
  | @cons finding finding' _ _ hhead _ ih =>
    have hone : Remediable finding ↔ Remediable finding' := by
      unfold Remediable
      rw [hhead.severity, hhead.remediation]
    rw [List.forall_mem_cons, List.forall_mem_cons, hone, ih]

/-- Runs of alike findings fail together, or come to one redacted report. -/
lemma redact_run_eq {header : RunHeader} {loaded : LoadedProfile rx.toExternals}
    {behaviour behaviour' : String → ProbeOutcome} {options : RedactionOptions}
    (henabled : options.enabled = true) (h : Option.Rel (List.Forall₂ (AlikeFinding rx options))
      (gatherFindings behaviour) (gatherFindings behaviour')) :
    (run rx.localeCompare header loaded behaviour).map (redact rx · options) =
      (run rx.localeCompare header loaded behaviour').map (redact rx · options) := by
  unfold run
  cases hleft : gatherFindings behaviour with
  | none =>
    cases hright : gatherFindings behaviour' with
    | none => rfl
    | some findings' => simp [hleft, hright] at h
  | some findings =>
    cases hright : gatherFindings behaviour' with
    | none => simp [hleft, hright] at h
    | some findings' =>
      rw [hleft, hright, Option.rel_some_some] at h
      have hall : findings.all assertRemediable = findings'.all assertRemediable := by
        rw [Bool.eq_iff_iff, List.all_eq_true, List.all_eq_true]
        simpa only [assertRemediable_iff] using remediable_of_alike h
      simp only [Option.bind_eq_bind, Option.bind_some, hall]
      split_ifs
      · exact congrArg some (RedactedReport.eq_of_report_eq (redact_buildReport_eq henabled h))
      · rfl

/-- A check looks at its run through redaction only. -/
lemma check_eq_of_redact (s : Surroundings) (command : CheckCommand) :
    check rx s command = match loadProfile rx.toExternals s.sources command.profile with
      | none => ([said (s.complaint command.profile)], .toolError)
      | some loaded =>
        match (run rx.localeCompare s.header loaded (s.behaviour command.timeoutMs)).map
            (redact rx · (redactionOptions (checkRun s command) loaded.profile)) with
        | none => (warnings command ++ [internalError s], .toolError)
        | some safe =>
          let delivered := deliver s command (Portcall.render safe command.format)
          (warnings command ++ delivered.1,
            if delivered.2 then exitCodeFor safe.report.summary.severity else .toolError) := by
  unfold check
  split
  · rfl
  · cases run rx.localeCompare s.header _ (s.behaviour command.timeoutMs) <;> rfl

/-- A delivery looks at the place it is made in and at nothing else. -/
lemma deliver_congr {s s' : Surroundings} {command : CheckCommand} (hcwd : s.cwd = s'.cwd)
    (hunwritable : s.unwritable = s'.unwritable) : deliver s command = deliver s' command := by
  funext rendered
  unfold deliver
  rw [hcwd, hunwritable]

lemma check_eq (h : AlikeSurroundings rx left right) {command : CheckCommand}
    (hredact : command.redact = true) : check rx left command = check rx right command := by
  rw [check_eq_of_redact, check_eq_of_redact, deliver_congr h.cwd h.unwritable, h.sources,
    h.complaint]
  cases hload : loadProfile rx.toExternals right.sources command.profile with
  | none => rfl
  | some loaded =>
    have hruns := @redact_run_eq rx left.header loaded _ _ _ hredact
      (h.findings command loaded hredact (by rw [h.sources, hload]))
    dsimp only [checkRun, redactionOptions, internalError] at hruns ⊢
    rw [hruns, h.header, h.salt, h.stack]

/-- With redaction on, an invocation tells nothing of what the probes found but tokens: in alike
places it prints, writes and exits alike, whatever its arguments. -/
theorem main_eq (h : AlikeSurroundings rx left right) (argv : List String)
    (hredact : ∀ command, parseArgs argv = .ok (.check command) → command.redact = true) :
    main rx left argv = main rx right argv := by
  unfold main
  cases hparse : parseArgs argv with
  | error message => rfl
  | ok parsed =>
    cases parsed with
    | help =>
      have hhelp : helpText left = helpText right := by
        unfold helpText builtinProfileIds
        rw [h.sources]
      simp only [hhelp]
    | version => rfl
    | profiles =>
      unfold builtinProfileIds
      simp only [h.sources]
    | check command => exact check_eq h (hredact command hparse)

lemma profile_of_named {host id : String} {loaded : LoadedProfile quietExternals.toExternals}
    (h : loadProfile quietExternals.toExternals (namedSurroundings host).sources id = some loaded) :
    loaded.profile = acmeProfile := by
  obtain ⟨text, -, h⟩ := Option.bind_eq_some_iff.mp h
  obtain ⟨raw, hraw, h⟩ := Option.bind_eq_some_iff.mp h
  cases hraw
  unfold parseProfile at h
  split_ifs at h <;> cases h <;> rfl

lemma alikeSurroundings_named : AlikeSurroundings quietExternals (namedSurroundings "a.corp")
    (namedSurroundings "b.corp") where
  cwd := rfl
  sources := rfl
  complaint := rfl
  header := rfl
  salt := rfl
  unwritable := rfl
  stack := rfl
  findings command loaded _ hload := by
    refine .some (.cons ⟨rfl, rfl, rfl, rfl, rfl, rfl, .cons ⟨rfl, rfl, Or.inr ?_⟩ .nil⟩ .nil)
    rw [profile_of_named hload]
    have hunknown : ∀ host ∈ ["a.corp", "b.corp"], normaliseValue quietExternals host ∉
        normalisePublic quietExternals (publicValuesOf acmeProfile) := by decide +kernel
    exact ⟨rfl, hunknown "a.corp" (by simp), hunknown "b.corp" (by simp), rfl⟩

theorem main_eq_named : main quietExternals (namedSurroundings "a.corp") namedArgv =
    main quietExternals (namedSurroundings "b.corp") namedArgv := by
  refine main_eq alikeSurroundings_named namedArgv fun command hparse => ?_
  have hparsed : parseArgs namedArgv = .ok (.check ⟨⟨"./acme.yaml", .json, true⟩, 60000, none⟩) := by
    decide +kernel
  rw [hparsed] at hparse
  cases hparse
  rfl

end Alike

end Portcall.Cli
