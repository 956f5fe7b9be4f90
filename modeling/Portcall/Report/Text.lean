import Portcall.Redact

/-! The terminal rendering: lines of plain text, each remediation wrapped. -/
namespace Portcall

def Severity.label : Severity → String
  | .blocker => "BLOCKER "
  | .degraded => "DEGRADED"
  | .unknown => "UNKNOWN "
  | .ok => "OK      "

def Severity.verdict : Severity → String
  | .blocker => "This tool will not work here until the blockers below are resolved."
  | .degraded => "This tool will work here, with the limitations below."
  | .unknown => "Some checks could not reach a conclusion. See below."
  | .ok => "No blockers found for this profile."

/-- `text.split(/\s+/).filter((word) => word.length > 0)` -/
def wordsOf (text : String) : List String :=
  ((Text.splitChars ' ' (Text.collapseChars text.toList)).filter fun word => !word.isEmpty).map
    String.ofList

/-- One more word: on the current line while it fits, else on a line of its own. -/
def wrapWord (width : ℕ) (state : List String × String) (word : String) : List String × String :=
  let (lines, current) := state
  if current = "" then (lines, word)
  else if (Text.utf16 current).length + 1 + (Text.utf16 word).length ≤ width then
    (lines, current ++ " " ++ word)
  else (lines ++ [current], word)

def wrap (text : String) (width : ℕ) : List String :=
  let (lines, current) := (wordsOf text).foldl (wrapWord width) ([], "")
  if current = "" then lines else lines ++ [current]

def textFinding (finding : Finding) : List String :=
  ["[" ++ finding.severity.label ++ "] " ++ finding.id, "  " ++ finding.title] ++
    finding.evidence.map (fun evidence => "    " ++ evidence.label ++ ": " ++ evidence.value) ++
    (match finding.remediation with
      | none => []
      | some remediation => "  Fix:" :: (wrap remediation 66).map fun line => "    " ++ line) ++
    (match finding.docs with
      | none => []
      | some docs => ["  Docs: " ++ docs]) ++
    [""]

def noFindingsText : List String :=
  ["No findings.", "",
    "Every check the active profile asked for ran and reported nothing.",
    "Portcall probes only the hosts that profile names, on port 443 only, so",
    "this is a clean result for that profile - not a clean bill of health for",
    "the network."]

def textRule : String := String.ofList (List.replicate 72 '-')

/-- The lines after the one that names the profile. -/
def textTail (report : Report) : List String :=
  ["endpoints  " ++ toString report.profile.endpoints,
    "runtimes   " ++ Text.join ", " (report.profile.runtimes.map Runtime.text),
    "host       " ++ report.platform.os ++ "/" ++ report.platform.arch ++ "  " ++
      report.platform.runtime ++ " " ++ report.platform.runtimeVersion,
    "generated  " ++ report.generatedAt ++ " (" ++ toString report.durationMs ++ " ms)",
    "redaction  " ++
      (if report.redacted then "on" else "OFF - this report may contain internal hostnames"),
    textRule, ""] ++
  (if report.findings.isEmpty then noFindingsText else report.findings.flatMap textFinding) ++
  [textRule,
    toString report.summary.blocker ++ " blocker, " ++ toString report.summary.degraded ++
      " degraded, " ++ toString report.summary.unknown ++ " unknown, " ++
      toString report.summary.ok ++ " ok",
    report.summary.severity.verdict, ""]

def textLines (report : Report) : List String :=
  [report.tool.name ++ " " ++ report.tool.version ++ "  -  " ++ report.profile.name,
    textRule,
    "profile    " ++ report.profile.id ++ " (" ++ report.profile.source.text ++ ")"] ++
  textTail report

def renderText {rx : ReportExternals} (report : RedactedReport rx) : String :=
  Text.join "\n" (textLines report.report)

example : wrap "one two  three" 9 = ["one two", "three"] := by decide

end Portcall
