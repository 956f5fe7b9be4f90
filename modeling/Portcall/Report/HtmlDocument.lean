import Portcall.Report.HtmlMarkup

/-! The whole HTML rendering as it is seen: the report's own strings, as they are, between the
tags of the template. -/
namespace Portcall
open Markup Token

section Tokens
variable (rx : ReportExternals)

def rowTokens (label value : String) : List Token :=
  [tag "tr" [], tag "th" []] ++ chars label ++ [tag "/th" [], tag "td" []] ++ chars value ++
    [tag "/td" [], tag "/tr" []]

def evidenceTokens (evidence : Evidence) : List Token :=
  [tag "tr" [], tag "th" []] ++ chars evidence.label ++
    [tag "/th" [], tag "td" [], tag "code" []] ++ chars evidence.value ++
    [tag "/code" [], tag "/td" [], tag "/tr" []]

/-- A paragraph with a word in bold before its text. -/
def fixTokens (word : String) (content : List Token) : List Token :=
  [tag "div" [("class", "fix")], tag "strong" []] ++ chars word ++ [tag "/strong" []] ++
    content ++ [tag "/div" []]

def docsTokens (docs : String) : List Token :=
  fixTokens "Docs" (match safeHref rx docs with
    | none => chars docs
    | some href =>
      [tag "a" [("href", href), ("rel", "noreferrer noopener")]] ++ chars docs ++ [tag "/a" []])

def tableTokens (evidence : List Evidence) : List (List Token) :=
  if evidence.isEmpty then []
  else [[tag "table" []]] ++ evidence.map evidenceTokens ++ [[tag "/table" []]]

def remediationTokens : Option String → List (List Token)
  | none => []
  | some remediation => [fixTokens "Fix" (chars remediation)]

def linkTokens : Option String → List (List Token)
  | none => []
  | some docs => [docsTokens rx docs]

def findingTokens (finding : Finding) : List Token :=
  [char '\n'].intercalate (
    [[tag "article" [("class", "finding")]],
      [tag "h3" [], tag "span" [("class", "badge " ++ finding.severity.text)]] ++
        chars finding.severity.badgeText ++ [tag "/span" []] ++ chars finding.title ++
        [tag "/h3" []],
      [tag "div" [("class", "id")]] ++ chars finding.id ++ [tag "/div" []]] ++
    tableTokens finding.evidence ++ remediationTokens finding.remediation ++
    linkTokens rx finding.docs ++ [[tag "/article" []]])

def noFindingsContent : String :=
  "No findings. Every check the active profile asked for ran " ++
    "and reported nothing. Portcall probes only the hosts that profile names, on " ++
    "port 443 only, so this is a clean result for that profile - not a clean bill " ++
    "of health for the network."

def countsText (summary : ReportSummary) : String :=
  toString summary.blocker ++ " blocker · " ++ toString summary.degraded ++
    " degraded · " ++ toString summary.unknown ++ " unknown · " ++ toString summary.ok ++ " ok"

def headTokens (report : Report) : List (List Token) :=
  [[tag "!doctype" [("html", "")]],
    [tag "html" [("lang", "en")]],
    [tag "head" []],
    [tag "meta" [("charset", "utf-8")]],
    [tag "meta" [("name", "viewport"), ("content", "width=device-width, initial-scale=1")]],
    [tag "meta" [("name", "robots"), ("content", "noindex, nofollow")]],
    [tag "title" []] ++ chars (report.tool.name ++ " report - " ++ report.profile.name) ++
      [tag "/title" []],
    [tag "style" []] ++ chars style ++ [tag "/style" []],
    [tag "/head" []],
    [tag "body" []],
    [tag "main" []],
    [tag "h1" []] ++ chars (report.tool.name ++ " report") ++ [tag "/h1" []],
    [tag "p" [("class", "sub")]] ++
      chars (report.profile.name ++ " · " ++ report.tool.version) ++ [tag "/p" []],
    [tag "div" [("class", "verdict " ++ report.summary.severity.text)]],
    [tag "div" []] ++ chars report.summary.severity.htmlVerdict ++ [tag "/div" []],
    [tag "div" [("class", "counts")]] ++ chars (countsText report.summary) ++ [tag "/div" []],
    [tag "/div" []],
    [tag "h2" []] ++ chars "Run" ++ [tag "/h2" []],
    [tag "table" []]]

def redactionTokens (redacted : Bool) : List Token :=
  if redacted then chars "on"
  else [tag "span" [("class", "warn")]] ++
    chars "OFF - this report may contain internal hostnames" ++ [tag "/span" []]

def findingsTokens (findings : List Finding) : List Token :=
  if findings.isEmpty then
    [tag "p" [("class", "empty")]] ++ chars noFindingsContent ++ [tag "/p" []]
  else [char '\n'].intercalate (findings.map (findingTokens rx))

def tailTokens (report : Report) : List (List Token) :=
  [rowTokens "Endpoints" (toString report.profile.endpoints),
    rowTokens "Runtimes" (Text.join ", " (report.profile.runtimes.map Runtime.text)),
    rowTokens "Host" (report.platform.os ++ "/" ++ report.platform.arch),
    rowTokens "Runtime" (report.platform.runtime ++ " " ++ report.platform.runtimeVersion),
    rowTokens "Generated" (report.generatedAt ++ " (" ++ toString report.durationMs ++ " ms)"),
    [tag "tr" [], tag "th" []] ++ chars "Redaction" ++ [tag "/th" [], tag "td" []] ++
      redactionTokens report.redacted ++ [tag "/td" [], tag "/tr" []],
    [tag "/table" []],
    [tag "h2" []] ++ chars "Findings" ++ [tag "/h2" []],
    findingsTokens rx report.findings,
    [tag "footer" []],
    chars ("Generated by " ++ report.tool.name ++ " " ++ report.tool.version ++
      ". No data left this machine to produce this file, and this file loads " ++
      "nothing when opened."),
    [tag "/footer" []],
    [tag "/main" []],
    [tag "/body" []],
    [tag "/html" []],
    []]

/-- The document as it is seen: the report's strings as they are, between tags. -/
def documentTokens (report : Report) : List Token :=
  [char '\n'].intercalate (headTokens report ++
    [rowTokens "Profile" (report.profile.id ++ " (" ++ report.profile.source.text ++ ")")] ++
    tailTokens rx report)

end Tokens

section Reads
variable {rx : ReportExternals}

lemma reads_htmlRow (label value : String) :
    HtmlReads (htmlRow label value) (rowTokens label value) := by
  unfold htmlRow rowTokens
  refine (reads_escapeHtml value).between ?_ (reads_literal rfl)
  exact (reads_escapeHtml label).between (reads_literal rfl) (reads_literal rfl)

lemma reads_htmlEvidence (evidence : Evidence) :
    HtmlReads (htmlEvidence evidence) (evidenceTokens evidence) := by
  unfold htmlEvidence evidenceTokens
  refine (reads_escapeHtml evidence.value).between ?_ (reads_literal rfl)
  exact (reads_escapeHtml evidence.label).between (reads_literal rfl) (reads_literal rfl)

/-- The address of a link is the value of its first attribute, whatever is in it. -/
lemma reads_href (href : String) :
    HtmlReads ("<div class=\"fix\"><strong>Docs</strong><a href=\"" ++ escapeHtml href ++
        "\" rel=\"noreferrer noopener\">")
      ([tag "div" [("class", "fix")], tag "strong" []] ++ chars "Docs" ++ [tag "/strong" []] ++
        [tag "a" [("href", href), ("rel", "noreferrer noopener")]]) := by
  refine @reads_attribute _ _ _ _ "" ⟨['a'], []⟩ "href".toList _ _
    (staysInValue_escapeHtml href) (run_literal rfl) ?_
  intro read hread
  rw [String.empty_append] at hread
  rw [← hread]
  exact run_literal rfl

lemma reads_htmlDocs (docs : String) : HtmlReads (htmlDocs rx docs) (docsTokens rx docs) := by
  unfold htmlDocs docsTokens fixTokens
  cases safeHref rx docs with
  | none => exact (reads_escapeHtml docs).between (reads_literal rfl) (reads_literal rfl)
  | some href =>
    have hclose : HtmlReads "</a></div>" [tag "/a" [], tag "/div" []] := reads_literal rfl
    have hlink := (reads_escapeHtml docs).between (reads_href href) hclose
    simpa only [List.append_assoc, List.cons_append, List.nil_append] using hlink

lemma reads_badge (severity : Severity) :
    HtmlReads ("<h3><span class=\"badge " ++ severity.text ++ "\">")
      [tag "h3" [], tag "span" [("class", "badge " ++ severity.text)]] := by
  refine @reads_attribute _ _ _ _ "badge " ⟨"span".toList, []⟩ "class".toList [tag "h3" []] _
    (staysInValue_severity severity) (run_literal rfl) ?_
  intro read hread
  rw [← hread]
  exact run_literal rfl

lemma reads_verdict (severity : Severity) :
    HtmlReads ("<div class=\"verdict " ++ severity.text ++ "\">")
      [tag "div" [("class", "verdict " ++ severity.text)]] := by
  refine @reads_attribute _ _ _ _ "verdict " ⟨"div".toList, []⟩ "class".toList [] _
    (staysInValue_severity severity) (run_literal rfl) ?_
  intro read hread
  rw [← hread]
  exact run_literal rfl

lemma isPlain_style : IsPlain style := by
  refine isPlain_join ?_
  repeat' refine List.forall_mem_cons.mpr ⟨isPlain_literal (by decide +kernel), ?_⟩
  exact List.forall_mem_nil _

lemma reads_htmlCounts (summary : ReportSummary) :
    HtmlReads (htmlCounts summary) (chars (countsText summary)) := by
  unfold htmlCounts countsText
  have hblocker : HtmlReads " blocker &middot; " (chars " blocker · ") := reads_literal rfl
  have hdegraded : HtmlReads " degraded &middot; " (chars " degraded · ") := reads_literal rfl
  have hunknown : HtmlReads " unknown &middot; " (chars " unknown · ") := reads_literal rfl
  have hok : HtmlReads " ok" (chars " ok") := reads_literal rfl
  refine .append_chars (.append_chars (.append_chars (.append_chars (.append_chars
    (.append_chars (.append_chars ?_ hblocker) ?_) hdegraded) ?_) hunknown) ?_) hok
  all_goals exact (isPlain_toString _).reads

lemma reads_redaction (redacted : Bool) :
    HtmlReads (if redacted then "on"
      else "<span class=\"warn\">OFF - this report may contain internal hostnames</span>")
      (redactionTokens redacted) := by
  cases redacted
  · exact reads_literal (by decide +kernel)
  · exact reads_literal rfl

lemma reads_noFindingsHtml :
    HtmlReads noFindingsHtml ([tag "p" [("class", "empty")]] ++ chars noFindingsContent ++
      [tag "/p" []]) := by
  unfold noFindingsHtml noFindingsContent
  rw [chars_append, chars_append, chars_append, ← List.append_assoc, ← List.append_assoc,
    ← List.append_assoc, List.append_assoc _ (chars _) [tag "/p" []]]
  refine .append (.append (.append ?_ ?_) ?_) ?_
  · exact reads_literal (by decide +kernel)
  · exact (isPlain_literal (by decide +kernel)).reads
  · exact (isPlain_literal (by decide +kernel)).reads
  · exact reads_literal (by decide +kernel)

lemma forall₂_map_reads {α : Type*} {text : α → String} {tokens : α → List Token}
    (h : ∀ a, HtmlReads (text a) (tokens a)) (items : List α) :
    List.Forall₂ HtmlReads (items.map text) (items.map tokens) := by
  rw [List.forall₂_map_left_iff, List.forall₂_map_right_iff, List.forall₂_same]
  exact fun a _ => h a

lemma reads_renderFinding (finding : Finding) :
    HtmlReads (renderFinding rx finding) (findingTokens rx finding) := by
  unfold renderFinding findingTokens
  refine reads_lines ?_
  have hbadge := (reads_escapeHtml finding.severity.badgeText).between
    (reads_badge finding.severity) (reads_literal rfl : HtmlReads "</span>" [tag "/span" []])
  have hhead : HtmlReads "<article class=\"finding\">" [tag "article" [("class", "finding")]] :=
    reads_literal rfl
  have htitle := (reads_escapeHtml finding.title).between hbadge
    (reads_literal rfl : HtmlReads "</h3>" [tag "/h3" []])
  have hid := (reads_escapeHtml finding.id).between
    (reads_literal rfl : HtmlReads "<div class=\"id\">" [tag "div" [("class", "id")]])
    (reads_literal rfl : HtmlReads "</div>" [tag "/div" []])
  refine List.rel_append (List.rel_append (List.rel_append (List.rel_append
    (.cons hhead (.cons htitle (.cons hid .nil))) ?_) ?_) ?_) (.cons (reads_literal rfl) .nil)
  · unfold tableTokens
    split_ifs
    · exact .nil
    · exact .cons (reads_literal rfl) (List.rel_append
        (forall₂_map_reads reads_htmlEvidence finding.evidence) (.cons (reads_literal rfl) .nil))
  · cases finding.remediation with
    | none => exact .nil
    | some remediation =>
      exact .cons ((reads_escapeHtml remediation).between (reads_literal rfl) (reads_literal rfl))
        .nil
  · cases finding.docs with
    | none => exact .nil
    | some docs => exact .cons (reads_htmlDocs docs) .nil

lemma reads_htmlHead (report : Report) :
    List.Forall₂ HtmlReads (htmlHead report) (headTokens report) := by
  have hclose : HtmlReads "</div>" [tag "/div" []] := reads_literal rfl
  have hparagraph : HtmlReads "</p>" [tag "/p" []] := reads_literal rfl
  unfold htmlHead headTokens
  refine .cons ?_ (.cons ?_ (.cons ?_ (.cons ?_ (.cons ?_ (.cons ?_ (.cons ?_ (.cons ?_ (.cons ?_
    (.cons ?_ (.cons ?_ (.cons ?_ (.cons ?_ (.cons (reads_verdict report.summary.severity)
      (.cons ?_ (.cons ?_ (.cons hclose (.cons ?_ (.cons ?_ .nil))))))))))))))))))
  · exact reads_literal rfl
  · exact reads_literal rfl
  · exact reads_literal rfl
  · exact reads_literal rfl
  · exact reads_literal (by decide +kernel)
  · exact reads_literal (by decide +kernel)
  · exact (reads_escapeHtml _).between (reads_literal rfl) (reads_literal rfl)
  · exact isPlain_style.reads.between (reads_literal rfl) (reads_literal rfl)
  · exact reads_literal rfl
  · exact reads_literal rfl
  · exact reads_literal rfl
  · rw [chars_append, ← List.append_assoc, List.append_assoc _ (chars _) [tag "/h1" []]]
    exact (reads_escapeHtml _).between (reads_literal rfl) (reads_literal rfl)
  · rw [chars_append, chars_append, ← List.append_assoc, ← List.append_assoc]
    exact (reads_escapeHtml _).between
      ((reads_escapeHtml _).between (reads_literal rfl) (reads_literal rfl)) hparagraph
  · exact (reads_escapeHtml _).between (reads_literal rfl) hclose
  · exact (reads_htmlCounts report.summary).between (reads_literal rfl) hclose
  · exact reads_literal rfl
  · exact reads_literal rfl

lemma reads_footer (tool : ReportTool) :
    HtmlReads ("Generated by " ++ escapeHtml tool.name ++ " " ++ escapeHtml tool.version ++
        ". No data left this machine to produce this file, and this file loads " ++
        "nothing when opened.")
      (chars ("Generated by " ++ tool.name ++ " " ++ tool.version ++
        ". No data left this machine to produce this file, and this file loads " ++
        "nothing when opened.")) := by
  refine .append_chars (.append_chars (.append_chars (.append_chars (.append_chars ?_
    (reads_escapeHtml tool.name)) ?_) (reads_escapeHtml tool.version)) ?_) ?_
  all_goals exact (isPlain_literal (by decide +kernel)).reads

lemma reads_htmlTail (report : Report) :
    List.Forall₂ HtmlReads (htmlTail rx report) (tailTokens rx report) := by
  unfold htmlTail tailTokens
  refine .cons (reads_htmlRow _ _) (.cons (reads_htmlRow _ _) (.cons (reads_htmlRow _ _)
    (.cons (reads_htmlRow _ _) (.cons (reads_htmlRow _ _) (.cons ?_ (.cons ?_ (.cons ?_ (.cons ?_
      (.cons ?_ (.cons (reads_footer report.tool) (.cons ?_ (.cons ?_ (.cons ?_ (.cons ?_
        (.cons ?_ .nil)))))))))))))))
  · exact (reads_redaction report.redacted).between (reads_literal rfl) (reads_literal rfl)
  · exact reads_literal rfl
  · exact reads_literal rfl
  · unfold findingsTokens
    split_ifs
    · exact reads_noFindingsHtml
    · exact reads_lines (forall₂_map_reads reads_renderFinding report.findings)
  all_goals exact reads_literal rfl

/-- The document is read as the report's strings between the template's tags. -/
theorem reads_renderHtml (report : RedactedReport rx) :
    HtmlReads (renderHtml report) (documentTokens rx report.report) := by
  unfold renderHtml documentTokens
  refine reads_lines (List.rel_append (List.rel_append (reads_htmlHead report.report) ?_)
    (reads_htmlTail report.report))
  exact .cons (reads_htmlRow _ _) .nil

end Reads

end Portcall
