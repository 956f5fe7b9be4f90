import Portcall.Library.PrefixCode
import Portcall.Redact

/-! The HTML rendering: one self-contained document, every text in it escaped. -/
namespace Portcall

def Severity.badgeText : Severity → String
  | .blocker => "Blocker"
  | .degraded => "Degraded"
  | .unknown => "Unknown"
  | .ok => "OK"

def Severity.htmlVerdict : Severity → String
  | .blocker => "This tool will not work here until the blockers below are resolved."
  | .degraded => "This tool will work here, with the limitations below."
  | .unknown => "Some checks could not reach a conclusion."
  | .ok => "No blockers found for this profile."

/-- `replace(/c/g, replacement)` -/
def replaceChar (c : Char) (replacement : String) (text : List Char) : List Char :=
  text.flatMap fun d => if d = c then replacement.toList else [d]

def escapeHtml (value : String) : String :=
  String.ofList
    (replaceChar '\'' "&#39;"
      (replaceChar '"' "&quot;"
        (replaceChar '>' "&gt;"
          (replaceChar '<' "&lt;"
            (replaceChar '&' "&amp;" value.toList)))))

/-- Only http and https links are links. -/
def safeHref (rx : ReportExternals) (value : String) : Option String :=
  match rx.hrefOf value with
  | none => none
  | some (protocol, href) => if protocol = "http:" || protocol = "https:" then some href else none

def style : String :=
  Text.join "" [
    ":root\x7b--bg:#fff;--fg:#16191d;--muted:#5b6570;--line:#d9dee4;--card:#f6f8fa;",
    "--blocker:#b3261e;--degraded:#a15c00;--unknown:#4a5568;--ok:#1a7f37\x7d",
    "@media (prefers-color-scheme:dark)\x7b:root\x7b--bg:#0f1215;--fg:#e6e9ee;--muted:#96a0ac;",
    "--line:#2a3138;--card:#171c21;--blocker:#ff6b5e;--degraded:#e0a03a;",
    "--unknown:#9aa5b1;--ok:#4ac26b\x7d\x7d",
    "*\x7bbox-sizing:border-box\x7d",
    "body\x7bmargin:0;padding:2rem 1.25rem;background:var(--bg);color:var(--fg);",
    "font:15px/1.55 ui-sans-serif,-apple-system,\"Segoe UI\",Roboto,Helvetica,Arial,sans-serif\x7d",
    "main\x7bmax-width:60rem;margin:0 auto\x7d",
    "h1\x7bfont-size:1.5rem;margin:0 0 .25rem\x7d",
    "h2\x7bfont-size:1.05rem;margin:2rem 0 .75rem\x7d",
    ".sub\x7bcolor:var(--muted);margin:0 0 1.5rem\x7d",
    ".verdict\x7bborder:1px solid var(--line);border-left-width:5px;border-radius:6px;",
    "padding:.9rem 1rem;background:var(--card);margin-bottom:1.5rem\x7d",
    ".verdict.blocker\x7bborder-left-color:var(--blocker)\x7d",
    ".verdict.degraded\x7bborder-left-color:var(--degraded)\x7d",
    ".verdict.unknown\x7bborder-left-color:var(--unknown)\x7d",
    ".verdict.ok\x7bborder-left-color:var(--ok)\x7d",
    ".counts\x7bcolor:var(--muted);font-size:.85rem;margin-top:.4rem\x7d",
    "table\x7bborder-collapse:collapse;width:100%;font-size:.9rem\x7d",
    "th,td\x7btext-align:left;padding:.35rem .75rem .35rem 0;vertical-align:top\x7d",
    "th\x7bcolor:var(--muted);font-weight:500;white-space:nowrap\x7d",
    ".finding\x7bborder:1px solid var(--line);border-radius:6px;padding:1rem;",
    "margin-bottom:.9rem;background:var(--card)\x7d",
    ".finding h3\x7bmargin:0 0 .2rem;font-size:1rem\x7d",
    ".badge\x7bdisplay:inline-block;font-size:.72rem;letter-spacing:.04em;",
    "text-transform:uppercase;padding:.12rem .45rem;border-radius:3px;",
    "border:1px solid currentColor;margin-right:.5rem\x7d",
    ".badge.blocker\x7bcolor:var(--blocker)\x7d",
    ".badge.degraded\x7bcolor:var(--degraded)\x7d",
    ".badge.unknown\x7bcolor:var(--unknown)\x7d",
    ".badge.ok\x7bcolor:var(--ok)\x7d",
    "code,.id\x7bfont-family:ui-monospace,SFMono-Regular,Menlo,Consolas,monospace;font-size:.85em\x7d",
    ".id\x7bcolor:var(--muted)\x7d",
    ".fix\x7bmargin-top:.6rem\x7d",
    ".fix strong\x7bdisplay:block;font-size:.8rem;text-transform:uppercase;",
    "letter-spacing:.04em;color:var(--muted);margin-bottom:.15rem\x7d",
    ".empty\x7bborder:1px dashed var(--line);border-radius:6px;padding:1.25rem;color:var(--muted)\x7d",
    "footer\x7bmargin-top:2.5rem;padding-top:1rem;border-top:1px solid var(--line);",
    "color:var(--muted);font-size:.8rem\x7d",
    "a\x7bcolor:inherit\x7d",
    ".warn\x7bcolor:var(--degraded);font-weight:600\x7d"]

def htmlRow (label value : String) : String :=
  "<tr><th>" ++ escapeHtml label ++ "</th><td>" ++ escapeHtml value ++ "</td></tr>"

def htmlEvidence (evidence : Evidence) : String :=
  "<tr><th>" ++ escapeHtml evidence.label ++ "</th><td><code>" ++ escapeHtml evidence.value ++
    "</code></td></tr>"

def htmlDocs (rx : ReportExternals) (docs : String) : String :=
  match safeHref rx docs with
  | none => "<div class=\"fix\"><strong>Docs</strong>" ++ escapeHtml docs ++ "</div>"
  | some href =>
    "<div class=\"fix\"><strong>Docs</strong><a href=\"" ++ escapeHtml href ++
      "\" rel=\"noreferrer noopener\">" ++ escapeHtml docs ++ "</a></div>"

def renderFinding (rx : ReportExternals) (finding : Finding) : String :=
  Text.join "\n" (
    ["<article class=\"finding\">",
      "<h3><span class=\"badge " ++ finding.severity.text ++ "\">" ++
        escapeHtml finding.severity.badgeText ++ "</span>" ++ escapeHtml finding.title ++ "</h3>",
      "<div class=\"id\">" ++ escapeHtml finding.id ++ "</div>"] ++
    (if finding.evidence.isEmpty then []
      else ["<table>"] ++ finding.evidence.map htmlEvidence ++ ["</table>"]) ++
    (match finding.remediation with
      | none => []
      | some remediation =>
        ["<div class=\"fix\"><strong>Fix</strong>" ++ escapeHtml remediation ++ "</div>"]) ++
    (match finding.docs with
      | none => []
      | some docs => [htmlDocs rx docs]) ++
    ["</article>"])

def noFindingsHtml : String :=
  "<p class=\"empty\">No findings. Every check the active profile asked for ran " ++
    "and reported nothing. Portcall probes only the hosts that profile names, on " ++
    "port 443 only, so this is a clean result for that profile - not a clean bill " ++
    "of health for the network.</p>"

def htmlCounts (summary : ReportSummary) : String :=
  toString summary.blocker ++ " blocker &middot; " ++ toString summary.degraded ++
    " degraded &middot; " ++ toString summary.unknown ++ " unknown &middot; " ++
    toString summary.ok ++ " ok"

/-- The lines before the row that names the profile. -/
def htmlHead (report : Report) : List String :=
  ["<!doctype html>",
    "<html lang=\"en\">",
    "<head>",
    "<meta charset=\"utf-8\">",
    "<meta name=\"viewport\" content=\"width=device-width, initial-scale=1\">",
    "<meta name=\"robots\" content=\"noindex, nofollow\">",
    "<title>" ++ escapeHtml (report.tool.name ++ " report - " ++ report.profile.name) ++ "</title>",
    "<style>" ++ style ++ "</style>",
    "</head>",
    "<body>",
    "<main>",
    "<h1>" ++ escapeHtml report.tool.name ++ " report</h1>",
    "<p class=\"sub\">" ++ escapeHtml report.profile.name ++ " &middot; " ++
      escapeHtml report.tool.version ++ "</p>",
    "<div class=\"verdict " ++ report.summary.severity.text ++ "\">",
    "<div>" ++ escapeHtml report.summary.severity.htmlVerdict ++ "</div>",
    "<div class=\"counts\">" ++ htmlCounts report.summary ++ "</div>",
    "</div>",
    "<h2>Run</h2>",
    "<table>"]

/-- The lines after it. -/
def htmlTail (rx : ReportExternals) (report : Report) : List String :=
  [htmlRow "Endpoints" (toString report.profile.endpoints),
    htmlRow "Runtimes" (Text.join ", " (report.profile.runtimes.map Runtime.text)),
    htmlRow "Host" (report.platform.os ++ "/" ++ report.platform.arch),
    htmlRow "Runtime" (report.platform.runtime ++ " " ++ report.platform.runtimeVersion),
    htmlRow "Generated" (report.generatedAt ++ " (" ++ toString report.durationMs ++ " ms)"),
    "<tr><th>Redaction</th><td>" ++
      (if report.redacted then "on"
        else "<span class=\"warn\">OFF - this report may contain internal hostnames</span>") ++
      "</td></tr>",
    "</table>",
    "<h2>Findings</h2>",
    if report.findings.isEmpty then noFindingsHtml
      else Text.join "\n" (report.findings.map (renderFinding rx)),
    "<footer>",
    "Generated by " ++ escapeHtml report.tool.name ++ " " ++ escapeHtml report.tool.version ++
      ". No data left this machine to produce this file, and this file loads " ++
      "nothing when opened.",
    "</footer>",
    "</main>",
    "</body>",
    "</html>",
    ""]

def renderHtml {rx : ReportExternals} (report : RedactedReport rx) : String :=
  let report := report.report
  Text.join "\n" (htmlHead report ++
    [htmlRow "Profile" (report.profile.id ++ " (" ++ report.profile.source.text ++ ")")] ++
    htmlTail rx report)

section Escape

def escapeChar (c : Char) : List Char :=
  if c = '&' then "&amp;".toList
  else if c = '<' then "&lt;".toList
  else if c = '>' then "&gt;".toList
  else if c = '"' then "&quot;".toList
  else if c = '\'' then "&#39;".toList
  else [c]

/-- The five replacements come to one per character: none touches what another put there. -/
lemma escapeHtml_eq (value : String) :
    escapeHtml value = String.ofList (value.toList.flatMap escapeChar) := by
  unfold escapeHtml replaceChar
  simp only [List.flatMap_assoc]
  congr 2
  funext c
  unfold escapeChar
  split_ifs with hamp hlt hgt hquote hapos
  · rfl
  · rw [hlt]; rfl
  · rw [hgt]; rfl
  · rw [hquote]; rfl
  · rw [hapos]; rfl
  · simp only [hlt, hgt, hquote, hapos, if_false, List.flatMap_cons, List.flatMap_nil,
      List.append_nil]

/-- The character an escaped text starts with. -/
def unescapeHead : List Char → Option Char
  | '&' :: 'a' :: _ => some '&'
  | '&' :: 'l' :: _ => some '<'
  | '&' :: 'g' :: _ => some '>'
  | '&' :: 'q' :: _ => some '"'
  | '&' :: '#' :: _ => some '\''
  | c :: _ => some c
  | [] => none

lemma unescapeHead_of_ne {c : Char} (h : c ≠ '&') (rest : List Char) :
    unescapeHead (c :: rest) = some c := by
  unfold unescapeHead
  split <;> simp_all

lemma unescapeHead_escapeChar (c : Char) (rest : List Char) :
    unescapeHead (escapeChar c ++ rest) = some c := by
  unfold escapeChar
  split_ifs with hamp hlt hgt hquote hapos
  · rw [hamp]; rfl
  · rw [hlt]; rfl
  · rw [hgt]; rfl
  · rw [hquote]; rfl
  · rw [hapos]; rfl
  · exact unescapeHead_of_ne hamp rest

lemma escapeChar_ne_nil (c : Char) : escapeChar c ≠ [] := by
  intro h
  have hread := unescapeHead_escapeChar c []
  rw [h] at hread
  cases hread

/-- An escaped text tells which text it escapes. -/
theorem escapeHtml_injective : Function.Injective escapeHtml := by
  intro left right h
  rw [escapeHtml_eq, escapeHtml_eq, String.ofList_inj] at h
  have hseparated := PrefixCode.separated_of_read unescapeHead unescapeHead_escapeChar
  exact String.toList_inj.mp (PrefixCode.flatMap_injective hseparated escapeChar_ne_nil h)

end Escape
end Portcall
