import Portcall.Library.PrefixCode
import Portcall.Redact

/-! The canonical rendering: `JSON.stringify(report, null, 2)` with its keys in a fixed order. -/
namespace Portcall

def hexDigit (n : ℕ) : Char := "0123456789abcdef".toList.getD n '0'

/-- One character of a quoted JSON string. -/
def quoteChar (c : Char) : List Char :=
  if c = '"' then ['\\', '"']
  else if c = '\\' then ['\\', '\\']
  else if c.toNat = 8 then ['\\', 'b']
  else if c.toNat = 9 then ['\\', 't']
  else if c.toNat = 10 then ['\\', 'n']
  else if c.toNat = 12 then ['\\', 'f']
  else if c.toNat = 13 then ['\\', 'r']
  else if c.toNat < 32 then
    ['\\', 'u', '0', '0', hexDigit (c.toNat / 16), hexDigit (c.toNat % 16)]
  else [c]

def quote (text : String) : String :=
  "\"" ++ String.ofList (text.toList.flatMap quoteChar) ++ "\""

/-- The text of a value that stands so many levels deep. -/
abbrev JsonValue := ℕ → String

def indentation (depth : ℕ) : String := String.ofList (List.replicate (2 * depth) ' ')

def jsonString (text : String) : JsonValue := fun _ => quote text

def jsonNumber (number : ℤ) : JsonValue := fun _ => toString number

def jsonBool (value : Bool) : JsonValue := fun _ => if value then "true" else "false"

/-- Members between two brackets, each on a line of its own. -/
def jsonBlock (opening closing : String) (members : List JsonValue) : JsonValue := fun depth =>
  if members.isEmpty then opening ++ closing
  else opening ++ "\n" ++
    Text.join ",\n" (members.map fun member => indentation (depth + 1) ++ member (depth + 1)) ++
    "\n" ++ indentation depth ++ closing

def jsonArray (items : List JsonValue) : JsonValue := jsonBlock "[" "]" items

def jsonMember (key : String) (value : JsonValue) : JsonValue := fun depth =>
  quote key ++ ": " ++ value depth

def jsonObject (members : List JsonValue) : JsonValue := jsonBlock "\x7b" "\x7d" members

def EvidenceKind.name : EvidenceKind → String
  | .hostname => "hostname"
  | .ip => "ip"
  | .username => "username"
  | .serial => "serial"
  | .path => "path"
  | .url => "url"
  | .dn => "dn"
  | .public => "public"
  | .text => "text"
  | .number => "number"

def canonicalEvidence (item : Evidence) : JsonValue :=
  jsonObject [
    jsonMember "label" (jsonString item.label),
    jsonMember "kind" (jsonString item.kind.name),
    jsonMember "value" (jsonString item.value)]

/-- A member that is there when its value is. -/
def optionalMember (key : String) (value : Option String) : List JsonValue :=
  (value.map fun text => jsonMember key (jsonString text)).toList

def canonicalFinding (finding : Finding) : JsonValue :=
  jsonObject (
    [jsonMember "id" (jsonString finding.id),
      jsonMember "probe" (jsonString finding.probe),
      jsonMember "severity" (jsonString finding.severity.text),
      jsonMember "title" (jsonString finding.title)] ++
    optionalMember "remediation" finding.remediation ++
    optionalMember "docs" finding.docs ++
    [jsonMember "evidence" (jsonArray (finding.evidence.map canonicalEvidence))])

def canonicalProfile (profile : ReportProfile) : JsonValue :=
  jsonObject [
    jsonMember "id" (jsonString profile.id),
    jsonMember "name" (jsonString profile.name),
    jsonMember "source" (jsonString profile.source.text),
    jsonMember "endpoints" (jsonNumber profile.endpoints),
    jsonMember "runtimes" (jsonArray (profile.runtimes.map fun runtime => jsonString runtime.text))]

def canonicalReport (report : Report) : JsonValue :=
  jsonObject [
    jsonMember "schemaVersion" (jsonNumber report.schemaVersion),
    jsonMember "tool" (jsonObject [
      jsonMember "name" (jsonString report.tool.name),
      jsonMember "version" (jsonString report.tool.version)]),
    jsonMember "generatedAt" (jsonString report.generatedAt),
    jsonMember "durationMs" (jsonNumber report.durationMs),
    jsonMember "redacted" (jsonBool report.redacted),
    jsonMember "platform" (jsonObject [
      jsonMember "os" (jsonString report.platform.os),
      jsonMember "arch" (jsonString report.platform.arch),
      jsonMember "runtime" (jsonString report.platform.runtime),
      jsonMember "runtimeVersion" (jsonString report.platform.runtimeVersion)]),
    jsonMember "profile" (canonicalProfile report.profile),
    jsonMember "summary" (jsonObject [
      jsonMember "severity" (jsonString report.summary.severity.text),
      jsonMember "total" (jsonNumber report.summary.total),
      jsonMember "blocker" (jsonNumber report.summary.blocker),
      jsonMember "degraded" (jsonNumber report.summary.degraded),
      jsonMember "unknown" (jsonNumber report.summary.unknown),
      jsonMember "ok" (jsonNumber report.summary.ok)]),
    jsonMember "findings" (jsonArray (report.findings.map canonicalFinding))]

def renderJson {rx : ReportExternals} (report : RedactedReport rx) : String :=
  canonicalReport report.report 0

section Quote

def hexValue (c : Char) : ℕ := "0123456789abcdef".toList.idxOf c

/-- The character a quoted text starts with. -/
def unquoteHead : List Char → Option Char
  | '\\' :: 'u' :: '0' :: '0' :: high :: low :: _ =>
    some (Char.ofNat (16 * hexValue high + hexValue low))
  | '\\' :: 'b' :: _ => some (Char.ofNat 8)
  | '\\' :: 't' :: _ => some (Char.ofNat 9)
  | '\\' :: 'n' :: _ => some (Char.ofNat 10)
  | '\\' :: 'f' :: _ => some (Char.ofNat 12)
  | '\\' :: 'r' :: _ => some (Char.ofNat 13)
  | '\\' :: c :: _ => some c
  | c :: _ => some c
  | [] => none

lemma hexValue_hexDigit {n : ℕ} (h : n < 16) : hexValue (hexDigit n) = n := by
  have hall : ∀ n < 16, hexValue (hexDigit n) = n := by decide
  exact hall n h

lemma unquoteHead_of_ne {c : Char} (h : c ≠ '\\') (rest : List Char) :
    unquoteHead (c :: rest) = some c := by
  unfold unquoteHead
  split <;> simp_all

lemma unquoteHead_quoteChar (c : Char) (rest : List Char) :
    unquoteHead (quoteChar c ++ rest) = some c := by
  have hchar : ∀ {n : ℕ}, c.toNat = n → Char.ofNat n = c := fun h => h ▸ Char.ofNat_toNat c
  unfold quoteChar
  split_ifs with hquote hslash h8 h9 h10 h12 h13 hcontrol
  · rw [hquote]; rfl
  · rw [hslash]; rfl
  · rw [← hchar h8]; rfl
  · rw [← hchar h9]; rfl
  · rw [← hchar h10]; rfl
  · rw [← hchar h12]; rfl
  · rw [← hchar h13]; rfl
  · change some (Char.ofNat (16 * hexValue (hexDigit (c.toNat / 16)) +
      hexValue (hexDigit (c.toNat % 16)))) = some c
    rw [hexValue_hexDigit (by omega), hexValue_hexDigit (by omega), hchar (by omega)]
  · exact unquoteHead_of_ne hslash rest

lemma quoteChar_ne_nil (c : Char) : quoteChar c ≠ [] := by
  intro h
  have hread := unquoteHead_quoteChar c []
  rw [h] at hread
  cases hread

/-- A quoted text tells which text it quotes. -/
theorem quote_injective : Function.Injective quote := by
  intro left right h
  unfold quote at h
  rw [String.append_left_inj, String.append_right_inj, String.ofList_inj] at h
  have hseparated := PrefixCode.separated_of_read unquoteHead unquoteHead_quoteChar
  exact String.toList_inj.mp (PrefixCode.flatMap_injective hseparated quoteChar_ne_nil h)

end Quote
end Portcall
