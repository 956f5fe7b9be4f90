import Portcall.Library.Json
import Portcall.Report.Json

/-! The canonical rendering is a JSON text, and the value it denotes is the whole report. -/
namespace Portcall

section Trees

def Evidence.json (item : Evidence) : Json :=
  .object [("label", .string item.label), ("kind", .string item.kind.name),
    ("value", .string item.value)]

def optionalBinding (key : String) (value : Option String) : List (String × Json) :=
  (value.map fun text => (key, Json.string text)).toList

def Finding.json (finding : Finding) : Json :=
  .object (
    [("id", .string finding.id), ("probe", .string finding.probe),
      ("severity", .string finding.severity.text), ("title", .string finding.title)] ++
    optionalBinding "remediation" finding.remediation ++ optionalBinding "docs" finding.docs ++
    [("evidence", .array (finding.evidence.map Evidence.json))])

def Json.int (n : ℤ) : Json := .number (toString n)

def ReportTool.json (tool : ReportTool) : Json :=
  .object [("name", .string tool.name), ("version", .string tool.version)]

def ReportPlatform.json (platform : ReportPlatform) : Json :=
  .object [("os", .string platform.os), ("arch", .string platform.arch),
    ("runtime", .string platform.runtime), ("runtimeVersion", .string platform.runtimeVersion)]

def Runtime.json (runtime : Runtime) : Json := .string runtime.text

def ReportProfile.json (profile : ReportProfile) : Json :=
  .object [("id", .string profile.id), ("name", .string profile.name),
    ("source", .string profile.source.text), ("endpoints", .int profile.endpoints),
    ("runtimes", .array (profile.runtimes.map Runtime.json))]

def ReportSummary.json (summary : ReportSummary) : Json :=
  .object [("severity", .string summary.severity.text), ("total", .int summary.total),
    ("blocker", .int summary.blocker), ("degraded", .int summary.degraded),
    ("unknown", .int summary.unknown), ("ok", .int summary.ok)]

def Report.json (report : Report) : Json :=
  .object [("schemaVersion", .int report.schemaVersion), ("tool", report.tool.json),
    ("generatedAt", .string report.generatedAt), ("durationMs", .int report.durationMs),
    ("redacted", .bool report.redacted), ("platform", report.platform.json),
    ("profile", report.profile.json), ("summary", report.summary.json),
    ("findings", .array (report.findings.map Finding.json))]

end Trees

section Writing
variable {values : List JsonValue} {trees : List Json} {members : List (String × Json)}
  {blanks : List Char} {depth : ℕ}

lemma hexValue_read {n : ℕ} (h : n < 16) : Json.hexValue (hexDigit n) = some n := by
  have hall : ∀ n < 16, Json.hexValue (hexDigit n) = some n := by decide
  exact hall n h

/-- Each character is quoted as one that is read. -/
lemma readChar_quoteChar (c : Char) (rest : List Char) :
    Json.readChar (quoteChar c ++ rest) = some (c, rest) := by
  have hchar : ∀ {n : ℕ}, c.toNat = n → Char.ofNat n = c := fun h => h ▸ Char.ofNat_toNat c
  unfold quoteChar
  split_ifs with hquote hslash h8 h9 h10 h12 h13 hcontrol
  · rw [hquote]; rfl
  · rw [hslash]; rfl
  · rw [← hchar h8]; rfl
  · rw [← hchar h9]; rfl
  · rw [← hchar h10]; rfl
  · rw [← hchar h12]; rfl
  · rw [← hchar h13]; rfl
  · have hunit : Json.readUnit (['0', '0', hexDigit (c.toNat / 16), hexDigit (c.toNat % 16)] ++
        rest) = some (c.toNat, rest) := by
      have hvalue : ((0 * 16 + 0) * 16 + c.toNat / 16) * 16 + c.toNat % 16 = c.toNat := by omega
      have hzero : Json.hexValue '0' = some 0 := rfl
      simp only [List.cons_append, List.nil_append, Json.readUnit, hzero,
        hexValue_read (show c.toNat / 16 < 16 by omega),
        hexValue_read (show c.toNat % 16 < 16 by omega), Option.bind_eq_bind, Option.bind_some]
      rw [hvalue]
      rfl
    change (Json.readUnit (['0', '0', hexDigit (c.toNat / 16), hexDigit (c.toNat % 16)] ++
      rest)).bind _ = _
    rw [hunit, Option.bind_some]
    dsimp only
    rw [if_pos (Or.inl (by omega)), hchar rfl]
    rfl
  · rw [List.singleton_append, Json.readChar, if_neg hslash, if_neg hcontrol]

lemma quoteChar_head (c : Char) : (quoteChar c).head? ≠ some '"' := by
  unfold quoteChar
  split_ifs with hquote
  all_goals simp_all

lemma quotes_quoteChar (text : String) :
    Json.Quotes (text.toList.flatMap quoteChar) text.toList :=
  Json.quotes_flatMap readChar_quoteChar quoteChar_head _

lemma toList_quote (text : String) :
    (quote text).toList = '"' :: (text.toList.flatMap quoteChar ++ ['"']) := by
  simp [quote]

/-- However deep the value stands. -/
def Writes (value : JsonValue) (tree : Json) : Prop := ∀ depth, Json.Reads (value depth).toList tree

/-- However deep the member stands, and on a line of its own. -/
def WritesMember (member : JsonValue) (bound : String × Json) : Prop :=
  ∀ depth blanks, (∀ c ∈ blanks, Json.isBlank c = true) →
    Json.Binds (blanks ++ (member depth).toList) bound

lemma writes_string (text : String) : Writes (jsonString text) (.string text) := by
  intro depth
  have hreads := Json.reads_string (quotes_quoteChar text)
  rwa [String.ofList_toList, ← toList_quote] at hreads

lemma writes_number (n : ℤ) : Writes (jsonNumber n) (.int n) := fun _ => Json.reads_int n

lemma writes_bool (value : Bool) : Writes (jsonBool value) (.bool value) := fun _ =>
  Json.reads_bool value

lemma writesMember_of_writes (key : String) {value : JsonValue} {tree : Json}
    (h : Writes value tree) : WritesMember (jsonMember key value) (key, tree) := by
  intro depth blanks hblanks
  refine ⟨blanks, key.toList.flatMap quoteChar, ' ' :: (value depth).toList, hblanks,
    quotes_quoteChar key, @Json.Reads.blank [' '] _ _ (h depth) (List.forall_mem_singleton.mpr rfl), ?_⟩
  rw [jsonMember, String.toList_append, String.toList_append, toList_quote]
  simp only [List.append_assoc, List.cons_append]
  rfl

lemma writesMember_optional (key : String) (value : Option String) :
    List.Forall₂ WritesMember (optionalMember key value) (optionalBinding key value) := by
  cases value with
  | none => exact .nil
  | some text => exact .cons (writesMember_of_writes key (writes_string text)) .nil

/-- The line a member stands on. -/
def memberLine (depth : ℕ) (member : JsonValue) : List Char :=
  '\n' :: ((indentation (depth + 1)).toList ++ (member (depth + 1)).toList)

lemma isBlank_indentation (depth : ℕ) :
    ∀ c ∈ '\n' :: (indentation depth).toList, Json.isBlank c = true := by
  rw [indentation, String.toList_ofList, List.forall_mem_cons]
  refine ⟨rfl, fun c hm => ?_⟩
  rw [List.eq_of_mem_replicate hm]
  rfl

lemma intercalate_lines {texts : List (List Char)} (hne : texts ≠ []) :
    '\n' :: [',', '\n'].intercalate texts = [','].intercalate (texts.map ('\n' :: ·)) := by
  induction texts with
  | nil => exact absurd rfl hne
  | cons text texts ih =>
    cases texts with
    | nil => simp
    | cons second texts =>
      rw [List.intercalate_cons_cons, List.map_cons, List.map_cons, List.intercalate_cons_cons,
        ← List.map_cons (f := ('\n' :: ·)), ← ih (List.cons_ne_nil _ _)]
      simp

lemma toList_jsonBlock {opening closing : String} {members : List JsonValue}
    (hne : members ≠ []) :
    (jsonBlock opening closing members depth).toList =
      opening.toList ++ ([','].intercalate (members.map (memberLine depth)) ++
        ('\n' :: (indentation depth).toList ++ closing.toList)) := by
  have hlines : members.map (memberLine depth) = (members.map fun member =>
      (indentation (depth + 1) ++ member (depth + 1)).toList).map ('\n' :: ·) := by
    rw [List.map_map]
    apply List.map_congr_left
    intro member _
    rw [memberLine, Function.comp_apply, String.toList_append]
  rw [jsonBlock, if_neg (by simpa using hne), hlines, ← intercalate_lines (by simpa using hne)]
  simp [Text.toList_join, Function.comp_def]

lemma writes_array (h : List.Forall₂ Writes values trees) :
    Writes (jsonArray values) (.array trees) := by
  intro depth
  by_cases hne : values = []
  · subst hne
    cases h
    exact Json.reads_array_nil
  · rw [jsonArray, toList_jsonBlock hne]
    have hlines : List.Forall₂ Json.Reads (values.map (memberLine depth)) trees := by
      rw [List.forall₂_map_left_iff]
      exact h.imp fun _ _ hwrites => (hwrites (depth + 1)).blank (isBlank_indentation (depth + 1))
    exact Json.reads_array hlines (by simpa using hne) (isBlank_indentation depth)

lemma writes_object (h : List.Forall₂ WritesMember values members) :
    Writes (jsonObject values) (.object members) := by
  intro depth
  by_cases hne : values = []
  · subst hne
    cases h
    exact Json.reads_object_nil
  · rw [jsonObject, toList_jsonBlock hne]
    have hlines : List.Forall₂ Json.Binds (values.map (memberLine depth)) members := by
      rw [List.forall₂_map_left_iff]
      exact h.imp fun _ _ hwrites => hwrites (depth + 1) _ (isBlank_indentation (depth + 1))
    exact Json.reads_object hlines (by simpa using hne) (isBlank_indentation depth)

lemma forall₂_map {α : Type} {value : α → JsonValue} {tree : α → Json} (items : List α)
    (h : ∀ a, Writes (value a) (tree a)) :
    List.Forall₂ Writes (items.map value) (items.map tree) := by
  rw [List.forall₂_map_left_iff, List.forall₂_map_right_iff]
  exact List.forall₂_same.mpr fun a _ => h a

end Writing

section Report

lemma writes_evidence (item : Evidence) : Writes (canonicalEvidence item) item.json :=
  writes_object (
    .cons (writesMember_of_writes _ (writes_string _)) <|
    .cons (writesMember_of_writes _ (writes_string _)) <|
    .cons (writesMember_of_writes _ (writes_string _)) .nil)

lemma writes_finding (finding : Finding) : Writes (canonicalFinding finding) finding.json := by
  apply writes_object
  apply List.rel_append
  · apply List.rel_append
    · apply List.rel_append
      · exact .cons (writesMember_of_writes _ (writes_string _)) <|
          .cons (writesMember_of_writes _ (writes_string _)) <|
          .cons (writesMember_of_writes _ (writes_string _)) <|
          .cons (writesMember_of_writes _ (writes_string _)) .nil
      · exact writesMember_optional _ _
    · exact writesMember_optional _ _
  · exact .cons (writesMember_of_writes _ (writes_array (forall₂_map _ writes_evidence))) .nil

lemma writes_profile (profile : ReportProfile) : Writes (canonicalProfile profile) profile.json :=
  writes_object (
    .cons (writesMember_of_writes _ (writes_string _)) <|
    .cons (writesMember_of_writes _ (writes_string _)) <|
    .cons (writesMember_of_writes _ (writes_string _)) <|
    .cons (writesMember_of_writes _ (writes_number _)) <|
    .cons (writesMember_of_writes _ (writes_array (forall₂_map _ fun _ => writes_string _))) .nil)

lemma writes_report (report : Report) : Writes (canonicalReport report) report.json := by
  have htool : Writes _ report.tool.json := writes_object (
    .cons (writesMember_of_writes _ (writes_string _)) <|
    .cons (writesMember_of_writes _ (writes_string _)) .nil)
  have hplatform : Writes _ report.platform.json := writes_object (
    .cons (writesMember_of_writes _ (writes_string _)) <|
    .cons (writesMember_of_writes _ (writes_string _)) <|
    .cons (writesMember_of_writes _ (writes_string _)) <|
    .cons (writesMember_of_writes _ (writes_string _)) .nil)
  have hsummary : Writes _ report.summary.json := writes_object (
    .cons (writesMember_of_writes _ (writes_string _)) <|
    .cons (writesMember_of_writes _ (writes_number _)) <|
    .cons (writesMember_of_writes _ (writes_number _)) <|
    .cons (writesMember_of_writes _ (writes_number _)) <|
    .cons (writesMember_of_writes _ (writes_number _)) <|
    .cons (writesMember_of_writes _ (writes_number _)) .nil)
  exact writes_object (
    .cons (writesMember_of_writes _ (writes_number _)) <|
    .cons (writesMember_of_writes _ htool) <|
    .cons (writesMember_of_writes _ (writes_string _)) <|
    .cons (writesMember_of_writes _ (writes_number _)) <|
    .cons (writesMember_of_writes _ (writes_bool _)) <|
    .cons (writesMember_of_writes _ hplatform) <|
    .cons (writesMember_of_writes _ (writes_profile _)) <|
    .cons (writesMember_of_writes _ hsummary) <|
    .cons (writesMember_of_writes _ (writes_array (forall₂_map _ writes_finding))) .nil)

end Report

/-! What a reader of the document does with it. -/
section Reading

namespace Json

def field (key : String) : Json → Option Json
  | .object members => members.lookup key
  | _ => none

def text : Json → Option String
  | .string text => some text
  | _ => none

def truth : Json → Option Bool
  | .bool value => some value
  | _ => none

def items : Json → Option (List Json)
  | .array items => some items
  | _ => none

def textAt (key : String) (tree : Json) : Option String := (tree.field key).bind text

def countAt (key : String) (tree : Json) : Option ℕ := ((tree.field key).bind toInt).map Int.toNat

/-- What every item under a key is read as. -/
def itemsAt {α : Type} (key : String) (readItem : Json → Option α) (tree : Json) :
    Option (List α) :=
  ((tree.field key).bind items).bind (List.mapM readItem)

/-- A text that may be left out. -/
def optionalAt (key : String) (tree : Json) : Option (Option String) :=
  match tree.field key with
  | none => some none
  | some value => value.text.map some

end Json

/-- The value that goes by a name. -/
def namedBy {α : Type} (name : α → String) (all : List α) (text : String) : Option α :=
  all.find? fun a => name a = text

def readSeverity : String → Option Severity :=
  namedBy Severity.text [.blocker, .degraded, .ok, .unknown]

def readKind : String → Option EvidenceKind :=
  namedBy EvidenceKind.name
    [.hostname, .ip, .username, .serial, .path, .url, .dn, .public, .text, .number]

def readRuntime (tree : Json) : Option Runtime :=
  tree.text.bind (namedBy Runtime.text [.node, .python, .java, .go])

def readSource : String → Option ProfileSource := namedBy ProfileSource.text [.builtin, .file]

def readEvidence (tree : Json) : Option Evidence := do
  let label ← tree.textAt "label"
  let kind ← (tree.textAt "kind").bind readKind
  let value ← tree.textAt "value"
  return { label, value, kind }

def readFinding (tree : Json) : Option Finding := do
  let id ← tree.textAt "id"
  let probe ← tree.textAt "probe"
  let severity ← (tree.textAt "severity").bind readSeverity
  let title ← tree.textAt "title"
  let remediation ← tree.optionalAt "remediation"
  let docs ← tree.optionalAt "docs"
  let evidence ← tree.itemsAt "evidence" readEvidence
  return { id, probe, severity, title, evidence, remediation, docs }

def readTool (tree : Json) : Option ReportTool := do
  let name ← tree.textAt "name"
  let version ← tree.textAt "version"
  return { name, version }

def readPlatform (tree : Json) : Option ReportPlatform := do
  let os ← tree.textAt "os"
  let arch ← tree.textAt "arch"
  let runtime ← tree.textAt "runtime"
  let runtimeVersion ← tree.textAt "runtimeVersion"
  return { os, arch, runtime, runtimeVersion }

def readProfile (tree : Json) : Option ReportProfile := do
  let id ← tree.textAt "id"
  let name ← tree.textAt "name"
  let source ← (tree.textAt "source").bind readSource
  let endpoints ← tree.countAt "endpoints"
  let runtimes ← tree.itemsAt "runtimes" readRuntime
  return { name, id, source, endpoints, runtimes }

def readSummary (tree : Json) : Option ReportSummary := do
  let severity ← (tree.textAt "severity").bind readSeverity
  let total ← tree.countAt "total"
  let blocker ← tree.countAt "blocker"
  let degraded ← tree.countAt "degraded"
  let unknown ← tree.countAt "unknown"
  let ok ← tree.countAt "ok"
  return { total, blocker, degraded, unknown, ok, severity }

def readReport (tree : Json) : Option Report := do
  let schemaVersion ← tree.countAt "schemaVersion"
  let tool ← (tree.field "tool").bind readTool
  let generatedAt ← tree.textAt "generatedAt"
  let durationMs ← (tree.field "durationMs").bind Json.toInt
  let redacted ← (tree.field "redacted").bind Json.truth
  let platform ← (tree.field "platform").bind readPlatform
  let profile ← (tree.field "profile").bind readProfile
  let summary ← (tree.field "summary").bind readSummary
  let findings ← tree.itemsAt "findings" readFinding
  return { schemaVersion, tool, generatedAt, durationMs, platform, profile, redacted, summary,
           findings }

lemma mapM_map {α : Type} {write : α → Json} {readItem : Json → Option α}
    (h : ∀ a, readItem (write a) = some a) (all : List α) :
    (all.map write).mapM readItem = some all := by
  induction all with
  | nil => rfl
  | cons a all ih => simp [List.mapM_cons, h a, ih]

lemma readSeverity_text (severity : Severity) : readSeverity severity.text = some severity := by
  cases severity <;> decide

lemma readKind_name (kind : EvidenceKind) : readKind kind.name = some kind := by
  cases kind <;> decide

lemma readRuntime_json (runtime : Runtime) : readRuntime runtime.json = some runtime := by
  cases runtime <;> rfl

lemma readSource_text (source : ProfileSource) : readSource source.text = some source := by
  cases source <;> decide

lemma toInt_int (n : ℤ) : (Json.int n).toInt = some n := Json.toInt_toString n

lemma readEvidence_json (item : Evidence) : readEvidence item.json = some item := by
  simp [readEvidence, Evidence.json, Json.textAt, Json.field, Json.text, List.lookup_cons,
    readKind_name]

lemma readFinding_json (finding : Finding) : readFinding finding.json = some finding := by
  obtain ⟨id, probe, severity, title, evidence, remediation, docs⟩ := finding
  have hevidence := mapM_map readEvidence_json evidence
  cases remediation <;> cases docs <;>
    simp [readFinding, Finding.json, optionalBinding, Json.textAt, Json.optionalAt, Json.itemsAt,
      Json.field, Json.text, Json.items, List.lookup_cons, readSeverity_text, hevidence]

lemma readTool_json (tool : ReportTool) : readTool tool.json = some tool := by
  simp [readTool, ReportTool.json, Json.textAt, Json.field, Json.text, List.lookup_cons]

lemma readPlatform_json (platform : ReportPlatform) :
    readPlatform platform.json = some platform := by
  simp [readPlatform, ReportPlatform.json, Json.textAt, Json.field, Json.text, List.lookup_cons]

lemma readProfile_json (profile : ReportProfile) : readProfile profile.json = some profile := by
  have hruntimes := mapM_map readRuntime_json profile.runtimes
  simp [readProfile, ReportProfile.json, Json.textAt, Json.countAt, Json.itemsAt, Json.field,
    Json.text, Json.items, List.lookup_cons, readSource_text, toInt_int, hruntimes]

lemma readSummary_json (summary : ReportSummary) : readSummary summary.json = some summary := by
  simp [readSummary, ReportSummary.json, Json.textAt, Json.countAt, Json.field, Json.text,
    List.lookup_cons, readSeverity_text, toInt_int]

lemma readReport_json (report : Report) : readReport report.json = some report := by
  have hfindings := mapM_map readFinding_json report.findings
  simp [readReport, Report.json, Json.textAt, Json.countAt, Json.itemsAt, Json.field, Json.text,
    Json.items, Json.truth, List.lookup_cons, readTool_json, readPlatform_json, readProfile_json,
    readSummary_json, toInt_int, hfindings]

/-- What is blank behind the document makes no difference. -/
lemma readReport_renderJson_append {rx : ReportExternals} (report : RedactedReport rx)
    {behind : String} (hblanks : ∀ c ∈ behind.toList, Json.isBlank c = true) :
    (Json.read (renderJson report ++ behind)).bind readReport = some report.report := by
  rw [renderJson, Json.read_of_reads (writes_report report.report 0) hblanks, Option.bind_some,
    readReport_json]

/-- The canonical rendering is JSON, and who reads it has the report that was rendered. -/
theorem readReport_renderJson {rx : ReportExternals} (report : RedactedReport rx) :
    (Json.read (renderJson report)).bind readReport = some report.report := by
  have hread := @readReport_renderJson_append _ report "" (by simp)
  rwa [String.append_empty] at hread

end Reading

end Portcall
