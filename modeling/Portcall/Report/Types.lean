import Portcall.Profile

/-! The report: the one object every renderer is a view of. -/
namespace Portcall

def toolName : String := "portcall"
def version : String := "0.1.0"

def reportSchemaVersion : ℕ := 1

def Severity.text : Severity → String
  | .blocker => "blocker"
  | .degraded => "degraded"
  | .ok => "ok"
  | .unknown => "unknown"

structure ReportSummary where
  total : ℕ
  blocker : ℕ
  degraded : ℕ
  unknown : ℕ
  ok : ℕ
  /-- The roll-up of the worst finding. -/
  severity : Severity
  deriving DecidableEq, Repr

structure ReportTool where
  name : String
  version : String
  deriving DecidableEq, Repr

structure ReportPlatform where
  os : String
  arch : String
  runtime : String
  runtimeVersion : String
  deriving DecidableEq, Repr

def ProfileSource.text : ProfileSource → String
  | .builtin => "builtin"
  | .file => "file"

def Runtime.text : Runtime → String
  | .node => "node"
  | .python => "python"
  | .java => "java"
  | .go => "go"

structure ReportProfile where
  name : String
  /-- The profile as it was named on the command line. -/
  id : String
  source : ProfileSource
  endpoints : ℕ
  runtimes : List Runtime
  deriving DecidableEq, Repr

structure Report where
  schemaVersion : ℕ
  tool : ReportTool
  generatedAt : String
  durationMs : ℤ
  platform : ReportPlatform
  profile : ReportProfile
  redacted : Bool
  summary : ReportSummary
  findings : List Finding
  deriving DecidableEq, Repr

end Portcall
