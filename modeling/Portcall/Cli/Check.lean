import Portcall.Engine.Run
import Portcall.Report.Render

/-! The `check` command: from a `--profile` argument to a rendered report and an exit code. -/
namespace Portcall

/-- Exit codes; customers' pipelines read them. -/
inductive ExitCode where
  | ok
  | degraded
  | blocker
  | toolError
  deriving DecidableEq, Repr

def ExitCode.code : ExitCode → ℕ
  | .ok => 0
  | .degraded => 1
  | .blocker => 2
  | .toolError => 3

/-- A check that could not decide is not a pass. -/
def exitCodeFor : Severity → ExitCode
  | .blocker => .blocker
  | .degraded | .unknown => .degraded
  | .ok => .ok

lemma exitCode_ne_toolError (severity : Severity) :
    (exitCodeFor severity).code ≠ ExitCode.toolError.code := by
  cases severity <;> decide

/-- `/\.ya?ml$/i` -/
def hasYamlExtension (id : String) : Bool :=
  let lower := id.toList.map Char.toLower
  ".yaml".toList.isSuffixOf lower || ".yml".toList.isSuffixOf lower

/-- Whether a `--profile` argument is a file's path rather than a built-in profile's name. -/
def looksLikePath (id : String) : Bool :=
  id.toList.contains '/' || id.toList.contains '\\' || hasYamlExtension id

/-- Where profiles come from: the disk, the table built in, and the YAML parser with the part of
the schema that gives a value its shape. -/
structure ProfileSources where
  readFile : String → Option String
  builtin : List (String × String)
  parseYaml : String → Option Profile

/-- The text of a profile. -/
def ProfileSources.read (sources : ProfileSources) (id : String) : Option String :=
  if looksLikePath id then sources.readFile id else sources.builtin.lookup id

def loadProfile (ext : Externals) (sources : ProfileSources) (id : String) :
    Option (LoadedProfile ext) := do
  let text ← sources.read id
  let raw ← sources.parseYaml text
  parseProfile ext id (if looksLikePath id then .file else .builtin) raw

structure CheckCommand where
  profile : String
  format : Format
  redact : Bool
  deriving DecidableEq, Repr

/-- One invocation, with everything it finds around it. -/
structure CheckRun where
  sources : ProfileSources
  command : CheckCommand
  header : RunHeader
  salt : String
  behaviour : String → ProbeOutcome

/-- The hosts the vendor already knows. -/
def publicValuesOf (profile : Profile) : List String :=
  profile.endpoints.map Endpoint.host ++ profile.dohResolvers

section Check
variable (rx : ReportExternals) (invocation : CheckRun)

def redactionOptions (profile : Profile) : RedactionOptions where
  enabled := invocation.command.redact
  publicValues := publicValuesOf profile
  salt := invocation.salt

/-- The report handed to the renderers; `none` when the command ends in a tool error. -/
def checkReport : Option (RedactedReport rx) := do
  let loaded ← loadProfile rx.toExternals invocation.sources invocation.command.profile
  let report ← run rx.localeCompare invocation.header loaded invocation.behaviour
  return redact rx report (redactionOptions invocation loaded.profile)

/-- What is printed, and the exit code of a command that prints it. -/
def check : Option String × ExitCode :=
  match checkReport rx invocation with
  | none => (none, .toolError)
  | some safe =>
    (some (render safe invocation.command.format), exitCodeFor safe.report.summary.severity)

end Check

section Loaded
variable {ext : Externals} {sources : ProfileSources} {id : String} {loaded : LoadedProfile ext}

/-- A loaded profile keeps the name it was asked for by, verbatim. -/
lemma loadProfile_some (h : loadProfile ext sources id = some loaded) :
    loaded.id = id ∧ loaded.source = if looksLikePath id then .file else .builtin := by
  unfold loadProfile at h
  cases htext : sources.read id with
  | none => simp [htext] at h
  | some text =>
    cases hraw : sources.parseYaml text with
    | none => simp [htext, hraw] at h
    | some raw =>
      simp only [htext, hraw, Option.bind_eq_bind, Option.bind_some] at h
      unfold parseProfile at h
      split at h
      · split at h
        · cases h
          exact ⟨rfl, rfl⟩
        · cases h
      · cases h

end Loaded

section Report
variable {rx : ReportExternals} {invocation : CheckRun} {safe : RedactedReport rx}

/-- A report that reaches the renderers is the redacted report of a run over a loaded profile. -/
lemma checkReport_some (h : checkReport rx invocation = some safe) :
    ∃ loaded findings,
      loadProfile rx.toExternals invocation.sources invocation.command.profile = some loaded ∧
      gatherFindings invocation.behaviour = some findings ∧
      safe = redact rx (buildReport rx.localeCompare invocation.header loaded findings)
        (redactionOptions invocation loaded.profile) := by
  obtain ⟨loaded, hload, h⟩ := Option.bind_eq_some_iff.mp h
  obtain ⟨report, hrun, h⟩ := Option.bind_eq_some_iff.mp h
  obtain ⟨findings, hfindings, -, rfl⟩ := run_eq_some_iff.mp hrun
  exact ⟨loaded, findings, hload, hfindings, (Option.some.inj h).symm⟩

end Report

section Quiet

/-- Nothing outside is called but the order of texts. -/
def quietExternals : ReportExternals where
  x509 _ := none
  x509Der _ := none
  parseUrl _ := none
  pathJoin _ parts := Text.join "/" parts
  unicodeLower := id
  digest _ _ := "000000000000"
  localeCompare left right := if left = right then 0 else if Text.le left right then -1 else 1
  hrefOf _ := none

def acmeProfile : Profile where
  name := "acme"
  endpoints := [⟨"api.example.com", 443, "api", true⟩]
  runtimes := [.node]

/-- That profile, from a file of this path. -/
def loadedFrom (path : String) : LoadedProfile quietExternals.toExternals where
  id := path
  source := .file
  profile := acmeProfile
  schema := by decide
  distinct := by decide

end Quiet
end Portcall
