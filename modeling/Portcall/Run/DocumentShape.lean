import Portcall.Report.HtmlDocument
import Portcall.Run.Noninterference

/-! The tags of the HTML document of a check: what of the report decides them. -/
namespace Portcall
open Markup Token

section Shape

/-- What of a finding decides its tags. -/
structure FindingShape where
  evidence : ℕ
  remediation : Bool
  /-- Whether the documentation is a link; `none` where there is none. -/
  docs : Option Bool
  deriving DecidableEq, Repr

def findingShape (rx : ReportExternals) (finding : Finding) : FindingShape where
  evidence := finding.evidence.length
  remediation := finding.remediation.isSome
  docs := finding.docs.map fun docs => (safeHref rx docs).isSome

def rowOutline : List (String × List String) :=
  [("tr", []), ("th", []), ("/th", []), ("td", []), ("/td", []), ("/tr", [])]

def evidenceOutline : List (String × List String) :=
  [("tr", []), ("th", []), ("/th", []), ("td", []), ("code", []), ("/code", []), ("/td", []),
    ("/tr", [])]

def fixOutline (content : List (String × List String)) : List (String × List String) :=
  [("div", ["class"]), ("strong", []), ("/strong", [])] ++ content ++ [("/div", [])]

def tableOutline (evidence : ℕ) : List (String × List String) :=
  if evidence = 0 then []
  else [("table", [])] ++ (List.replicate evidence evidenceOutline).flatten ++ [("/table", [])]

def linkOutline : Option Bool → List (String × List String)
  | none => []
  | some link => fixOutline (if link then [("a", ["href", "rel"]), ("/a", [])] else [])

def findingOutline (shape : FindingShape) : List (String × List String) :=
  [("article", ["class"]), ("h3", []), ("span", ["class"]), ("/span", []), ("/h3", []),
    ("div", ["class"]), ("/div", [])] ++
  tableOutline shape.evidence ++ (if shape.remediation then fixOutline [] else []) ++
  linkOutline shape.docs ++ [("/article", [])]

def headOutline : List (String × List String) :=
  [("!doctype", ["html"]), ("html", ["lang"]), ("head", []), ("meta", ["charset"]),
    ("meta", ["name", "content"]), ("meta", ["name", "content"]), ("title", []), ("/title", []),
    ("style", []), ("/style", []), ("/head", []), ("body", []), ("main", []), ("h1", []),
    ("/h1", []), ("p", ["class"]), ("/p", []), ("div", ["class"]), ("div", []), ("/div", []),
    ("div", ["class"]), ("/div", []), ("/div", []), ("h2", []), ("/h2", []), ("table", [])]

def tailOutline (redacted : Bool) (findings : List FindingShape) : List (String × List String) :=
  (List.replicate 5 rowOutline).flatten ++
  [("tr", []), ("th", []), ("/th", []), ("td", [])] ++
  (if redacted then [] else [("span", ["class"]), ("/span", [])]) ++
  [("/td", []), ("/tr", []), ("/table", []), ("h2", []), ("/h2", [])] ++
  (if findings.isEmpty then [("p", ["class"]), ("/p", [])] else findings.flatMap findingOutline) ++
  [("footer", []), ("/footer", []), ("/main", []), ("/body", []), ("/html", [])]

/-- The tags of a document: of the report they need only whether it was redacted and the shapes of
its findings. -/
def htmlOutline (redacted : Bool) (findings : List FindingShape) : List (String × List String) :=
  headOutline ++ rowOutline ++ tailOutline redacted findings

variable {rx : ReportExternals}

lemma outline_rowTokens (label value : String) : outline (rowTokens label value) = rowOutline := by
  simp [rowTokens, rowOutline]

lemma outline_evidenceTokens (evidence : Evidence) :
    outline (evidenceTokens evidence) = evidenceOutline := by
  simp [evidenceTokens, evidenceOutline]

lemma outline_fixTokens (word : String) (content : List Token) :
    outline (fixTokens word content) = fixOutline (outline content) := by
  simp [fixTokens, fixOutline]

lemma flatMap_outline_map {α : Type*} {tokens : α → List Token}
    {part : List (String × List String)} (h : ∀ a, outline (tokens a) = part) (items : List α) :
    (items.map tokens).flatMap outline = (List.replicate items.length part).flatten := by
  induction items with
  | nil => rfl
  | cons a rest ih =>
    rw [List.map_cons, List.flatMap_cons, h, ih, List.length_cons, List.replicate_succ,
      List.flatten_cons]

lemma outline_tableTokens (evidence : List Evidence) :
    (tableTokens evidence).flatMap outline = tableOutline evidence.length := by
  unfold tableTokens tableOutline
  simp only [List.isEmpty_iff_length_eq_zero]
  split_ifs
  · rfl
  · rw [List.flatMap_append, List.flatMap_append, flatMap_outline_map outline_evidenceTokens]
    rfl

lemma outline_remediationTokens (remediation : Option String) :
    (remediationTokens remediation).flatMap outline =
      if remediation.isSome then fixOutline [] else [] := by
  cases remediation <;> simp [remediationTokens, outline_fixTokens]

lemma outline_docsTokens (docs : String) : outline (docsTokens rx docs) =
    fixOutline (if (safeHref rx docs).isSome then [("a", ["href", "rel"]), ("/a", [])] else []) := by
  unfold docsTokens
  rw [outline_fixTokens]
  cases safeHref rx docs <;> simp

lemma outline_linkTokens (docs : Option String) : (linkTokens rx docs).flatMap outline =
    linkOutline (docs.map fun docs => (safeHref rx docs).isSome) := by
  cases docs <;> simp [linkTokens, linkOutline, outline_docsTokens]

lemma outline_findingTokens (finding : Finding) :
    outline (findingTokens rx finding) = findingOutline (findingShape rx finding) := by
  unfold findingTokens findingOutline findingShape
  rw [outline_intercalate rfl, List.flatMap_append, List.flatMap_append, List.flatMap_append,
    List.flatMap_append, outline_tableTokens, outline_remediationTokens, outline_linkTokens]
  simp only [List.flatMap_cons, List.flatMap_nil, outline_append, outline_chars, outline_tag,
    outline_nil, List.map_cons, List.map_nil]
  rfl

lemma outline_headTokens (report : Report) :
    (headTokens report).flatMap outline = headOutline := by
  unfold headTokens
  simp only [List.flatMap_cons, List.flatMap_nil, outline_append, outline_chars, outline_tag,
    outline_nil, List.map_cons, List.map_nil]
  rfl

lemma outline_redactionTokens (redacted : Bool) : outline (redactionTokens redacted) =
    if redacted then [] else [("span", ["class"]), ("/span", [])] := by
  cases redacted <;> simp [redactionTokens]

lemma outline_findingsTokens (findings : List Finding) :
    outline (findingsTokens rx findings) =
      if (findings.map (findingShape rx)).isEmpty then [("p", ["class"]), ("/p", [])]
      else (findings.map (findingShape rx)).flatMap findingOutline := by
  unfold findingsTokens
  rw [List.isEmpty_map]
  split_ifs
  · simp only [outline_append, outline_chars, outline_tag, outline_nil, List.map_cons,
      List.map_nil]
    rfl
  · rw [outline_intercalate rfl, List.flatMap_map, List.flatMap_map]
    exact List.flatMap_congr fun finding _ => outline_findingTokens finding

lemma outline_tailTokens (report : Report) : (tailTokens rx report).flatMap outline =
    tailOutline report.redacted (report.findings.map (findingShape rx)) := by
  unfold tailTokens tailOutline
  simp only [List.flatMap_cons, List.flatMap_nil, outline_rowTokens, outline_findingsTokens,
    outline_append, outline_chars, outline_redactionTokens, outline_tag, outline_nil,
    List.map_nil, List.append_assoc]
  rfl

/-- The tags of the document are those of the report's shape. -/
theorem outline_documentTokens (report : Report) : outline (documentTokens rx report) =
    htmlOutline report.redacted (report.findings.map (findingShape rx)) := by
  unfold documentTokens htmlOutline
  rw [outline_intercalate rfl, List.flatMap_append, List.flatMap_append, outline_headTokens,
    outline_tailTokens, List.flatMap_singleton, outline_rowTokens]

end Shape

section Document
variable {rx : ReportExternals}

lemma tokenize_renderHtml (report : RedactedReport rx) :
    tokenize htmlReference (renderHtml report).toList = some (documentTokens rx report.report) :=
  tokenize_of_reads (reads_renderHtml report)

/-- Whatever strings a report holds, its document is read as those strings, each in its place,
and its tags are those of the report's shape: no string opens a tag, closes one or leaves the
value of an attribute. -/
theorem renderHtml_shape (report : RedactedReport rx) :
    tokenize htmlReference (renderHtml report).toList = some (documentTokens rx report.report) ∧
      outline (documentTokens rx report.report) =
        htmlOutline report.report.redacted (report.report.findings.map (findingShape rx)) :=
  ⟨tokenize_renderHtml report, outline_documentTokens report.report⟩

/-- The report of a check without findings, past the boundary with redaction on or off. -/
def acmeDocument (enabled : Bool) : RedactedReport quietExternals :=
  redact quietExternals
    (buildReport quietExternals.localeCompare (fileRun "/srv/acme.yaml" "a.corp").header
      (loadedFrom "/srv/acme.yaml") [])
    ⟨enabled, [], "salt"⟩

/-- Two documents of one report, alike but for the flag: with redaction off there is one more
tag, around the warning. -/
theorem acmeDocument_outline_ne :
    (acmeDocument true).report = { (acmeDocument false).report with redacted := true } ∧
      (tokenize htmlReference (renderHtml (acmeDocument true)).toList).map outline ≠
        (tokenize htmlReference (renderHtml (acmeDocument false)).toList).map outline := by
  refine ⟨rfl, ?_⟩
  rw [tokenize_renderHtml, tokenize_renderHtml, Option.map_some, Option.map_some,
    outline_documentTokens, outline_documentTokens]
  intro h
  have hlength := congrArg List.length (Option.some_inj.mp h)
  revert hlength
  decide

end Document
end Portcall
