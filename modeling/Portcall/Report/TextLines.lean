import Portcall.Cli.Check
import Portcall.Report.Wrap
import Portcall.Shared.RootIndex
import Portcall.Tls.Evaluate

/-! The lines a reader of the terminal rendering sees. The renderer puts its values down as they
are, so the lines are its own exactly where no value has the end of a line in it. -/
namespace Portcall

/-- What a reader takes for the end of a line: the newline, and whatever other whitespace. -/
structure LineEnds where
  ends : Char → Bool
  newline : ends '\n' = true
  whitespace : ∀ c, ends c = true → Text.isWhitespace c = true ∧ c ≠ ' '

/-- The lines of a text. -/
def LineEnds.read (reader : LineEnds) (text : String) : List String :=
  (text.toList.splitOnP reader.ends).map String.ofList

/-- The text is on one line. -/
def LineEnds.Unbroken (reader : LineEnds) (text : String) : Prop :=
  ∀ c ∈ text.toList, reader.ends c = false

/-- What of a finding decides how many lines it has. -/
structure TextShape where
  evidence : ℕ
  fix : Option (List String)
  docs : Bool

def textShape (finding : Finding) : TextShape where
  evidence := finding.evidence.length
  fix := finding.remediation.map fun remediation => wrap remediation 66
  docs := finding.docs.isSome

/-- One line for the severity and the id, one for the title and one for every piece of evidence,
the wrapped remediation under a heading of its own, the reference and an empty line. -/
def TextShape.lines (shape : TextShape) : ℕ :=
  1 + 1 + shape.evidence + (match shape.fix with
    | none => 0
    | some fix => 1 + fix.length) + shape.docs.toNat + 1

/-- Ten lines of heading, the findings or the words for none, and four lines of summary. -/
def lineCount (shapes : List TextShape) : ℕ :=
  10 + (if shapes.isEmpty then 6 else (shapes.map TextShape.lines).sum) + 4

/-- The lines read are the ones the renderer put down, as many as the shape of the findings has. -/
structure LinesKept (reader : LineEnds) {rx : ReportExternals} (report : RedactedReport rx) :
    Prop where
  lines : reader.read (renderText report) = textLines report.report
  count : (reader.read (renderText report)).length =
    lineCount (report.report.findings.map textShape)

/-- The texts of a finding that are put down as they are. -/
def Finding.printed (finding : Finding) : List String :=
  [finding.id, finding.title] ++
    finding.evidence.flatMap (fun evidence => [evidence.label, evidence.value]) ++
    finding.docs.toList

def Report.printed (report : Report) : List String :=
  [report.tool.name, report.tool.version, report.profile.name, report.profile.id,
    report.platform.os, report.platform.arch, report.platform.runtime,
    report.platform.runtimeVersion, report.generatedAt] ++
  report.findings.flatMap Finding.printed

section Texts
variable {reader : LineEnds} {text text' : String}

/-- The text has no whitespace but spaces. -/
def isPlainLine (text : String) : Bool :=
  text.toList.all fun c => c = ' ' || !Text.isWhitespace c

lemma isPlainLine_literal {chars : List Char}
    (h : (chars.all fun c => c = ' ' || !Text.isWhitespace c) = true) :
    isPlainLine (String.ofList chars) = true := by
  rwa [isPlainLine, String.toList_ofList]

lemma LineEnds.ends_eq_false {c : Char} (h : c = ' ' ∨ Text.isWhitespace c = false) :
    reader.ends c = false := by
  by_contra hc
  obtain ⟨hspace, hne⟩ := reader.whitespace c (Bool.not_eq_false _ ▸ hc)
  rcases h with rfl | h
  · exact hne rfl
  · exact absurd hspace (by rw [h]; exact Bool.false_ne_true)

namespace LineEnds.Unbroken

lemma of_isPlainLine (h : isPlainLine text = true) : reader.Unbroken text := by
  intro c hc
  have := List.all_eq_true.mp h c hc
  exact ends_eq_false (by simpa using this)

lemma of_literal {chars : List Char}
    (h : (chars.all fun c => c = ' ' || !Text.isWhitespace c) = true) :
    reader.Unbroken (String.ofList chars) :=
  of_isPlainLine (isPlainLine_literal h)

lemma append_iff :
    reader.Unbroken (text ++ text') ↔ reader.Unbroken text ∧ reader.Unbroken text' := by
  rw [Unbroken, String.toList_append, List.forall_mem_append]
  rfl

lemma of_nat (n : ℕ) : reader.Unbroken (toString n) := by
  intro c hc
  by_contra h
  obtain ⟨hspace, -⟩ := reader.whitespace c (Bool.not_eq_false _ ▸ h)
  exact Text.not_mem_toString n (Text.isDigit_eq_false_of_isWhitespace hspace) hc

lemma of_int (z : ℤ) : reader.Unbroken (toString z) := by
  cases z with
  | ofNat n => exact of_nat n
  | negSucc n => exact append_iff.mpr ⟨of_literal (by decide), of_nat (n + 1)⟩

lemma of_join {separator : String} {parts : List String} (hseparator : reader.Unbroken separator)
    (h : ∀ part ∈ parts, reader.Unbroken part) : reader.Unbroken (Text.join separator parts) := by
  induction parts with
  | nil => exact fun c hc => absurd hc List.not_mem_nil
  | cons part parts ih =>
    cases parts with
    | nil => exact h part List.mem_cons_self
    | cons next parts =>
      rw [List.forall_mem_cons] at h
      exact append_iff.mpr ⟨append_iff.mpr ⟨h.1, hseparator⟩, ih h.2⟩

lemma of_mem_wrap {line : String} {width : ℕ} (hm : line ∈ wrap text width) :
    reader.Unbroken line := by
  intro c hc
  by_contra h
  obtain ⟨hspace, hne⟩ := reader.whitespace c (Bool.not_eq_false _ ▸ h)
  exact not_mem_of_mem_wrap hspace hne hm hc

end LineEnds.Unbroken
end Texts

section Lines
variable {reader : LineEnds} {rx : ReportExternals}

lemma map_ofList_eq_iff {pieces : List (List Char)} {lines : List String} :
    pieces.map String.ofList = lines ↔ pieces = lines.map String.toList := by
  constructor
  · rintro rfl
    simp [Function.comp_def]
  · rintro rfl
    simp [Function.comp_def]

/-- The lines are read again where every one of them is one line. -/
lemma read_join_iff {lines : List String} (hne : lines ≠ []) :
    reader.read (Text.join "\n" lines) = lines ↔ ∀ line ∈ lines, reader.Unbroken line := by
  have hpieces := @Delimited.splitOnP_intercalate_iff _ _ _ (lines.map String.toList)
    reader.newline (by simpa using hne)
  rw [List.forall_mem_map] at hpieces
  rw [LineEnds.read, Text.toList_join, map_ofList_eq_iff]
  exact hpieces

lemma length_read_join_iff {lines : List String} (hne : lines ≠ []) :
    (reader.read (Text.join "\n" lines)).length = lines.length ↔
      ∀ line ∈ lines, reader.Unbroken line := by
  have hpieces := @Delimited.length_splitOnP_intercalate_iff _ _ _ (lines.map String.toList)
    reader.newline (by simpa using hne)
  rw [List.forall_mem_map, List.length_map] at hpieces
  rw [LineEnds.read, Text.toList_join, List.length_map]
  exact hpieces

lemma unbroken_evidence_iff (items : List Evidence) :
    (∀ line ∈ items.map (fun evidence => "    " ++ evidence.label ++ ": " ++ evidence.value),
        reader.Unbroken line) ↔
      ∀ text ∈ items.flatMap (fun evidence => [evidence.label, evidence.value]),
        reader.Unbroken text := by
  rw [List.forall_mem_map, List.forall_mem_flatMap]
  refine forall₂_congr fun evidence hm => ?_
  simp (disch := (apply isPlainLine_literal; decide)) only [LineEnds.Unbroken.append_iff,
    LineEnds.Unbroken.of_isPlainLine, List.forall_mem_cons, List.not_mem_nil, false_imp_iff,
    implies_true, true_and, and_true]

lemma unbroken_docs_iff (docs : Option String) :
    (∀ line ∈ (match docs with
      | none => []
      | some docs => ["  Docs: " ++ docs]), reader.Unbroken line) ↔
      ∀ text ∈ docs.toList, reader.Unbroken text := by
  cases docs with
  | none => rfl
  | some docs =>
    simp (disch := (apply isPlainLine_literal; decide)) only [LineEnds.Unbroken.append_iff,
      LineEnds.Unbroken.of_isPlainLine, List.forall_mem_singleton, true_and, Option.toList_some]

/-- The remediation is wrapped, so whatever it holds it breaks no line. -/
lemma unbroken_fix (remediation : Option String) :
    ∀ line ∈ (match remediation with
      | none => []
      | some remediation => "  Fix:" :: (wrap remediation 66).map fun line => "    " ++ line),
      reader.Unbroken line := by
  cases remediation with
  | none => exact List.forall_mem_nil _
  | some remediation =>
    rw [List.forall_mem_cons, List.forall_mem_map]
    refine ⟨.of_literal (by decide), fun line hm => ?_⟩
    exact LineEnds.Unbroken.append_iff.mpr ⟨.of_literal (by decide), .of_mem_wrap hm⟩

/-- A finding is on lines of its own where its texts are on one line each. -/
lemma unbroken_textFinding_iff (finding : Finding) :
    (∀ line ∈ textFinding finding, reader.Unbroken line) ↔
      ∀ text ∈ finding.printed, reader.Unbroken text := by
  have hlabel : reader.Unbroken finding.severity.label := by
    cases finding.severity <;> exact .of_literal (by decide)
  have hhead : (∀ line ∈ ["[" ++ finding.severity.label ++ "] " ++ finding.id,
      "  " ++ finding.title], reader.Unbroken line) ↔
      ∀ text ∈ [finding.id, finding.title], reader.Unbroken text := by
    simp (disch := (apply isPlainLine_literal; decide)) only [List.forall_mem_cons,
      LineEnds.Unbroken.append_iff, LineEnds.Unbroken.of_isPlainLine, iff_true_intro hlabel,
      true_and]
  rw [textFinding, Finding.printed]
  simp only [List.forall_mem_append]
  constructor
  · rintro ⟨⟨⟨⟨hlines, hevidence⟩, -⟩, hdocs⟩, -⟩
    exact ⟨⟨hhead.mp hlines, (unbroken_evidence_iff _).mp hevidence⟩,
      (unbroken_docs_iff _).mp hdocs⟩
  · rintro ⟨⟨htexts, hevidence⟩, hdocs⟩
    exact ⟨⟨⟨⟨hhead.mpr htexts, (unbroken_evidence_iff _).mpr hevidence⟩, unbroken_fix _⟩,
      (unbroken_docs_iff _).mpr hdocs⟩,
      List.forall_mem_singleton.mpr (.of_literal (by decide))⟩

lemma unbroken_findings_iff (findings : List Finding) :
    (∀ line ∈ (if findings.isEmpty then noFindingsText else findings.flatMap textFinding),
        reader.Unbroken line) ↔
      ∀ text ∈ findings.flatMap Finding.printed, reader.Unbroken text := by
  cases findings with
  | nil =>
    refine iff_of_true ?_ (List.forall_mem_nil _)
    simp (disch := (apply isPlainLine_literal; decide)) only [List.isEmpty_nil, if_true,
      noFindingsText, List.forall_mem_cons, List.not_mem_nil, false_imp_iff, implies_true,
      LineEnds.Unbroken.of_isPlainLine, and_true]
  | cons finding findings =>
    rw [List.isEmpty_cons, if_neg Bool.false_ne_true, List.forall_mem_flatMap,
      List.forall_mem_flatMap]
    exact forall₂_congr fun finding _ => unbroken_textFinding_iff finding

lemma unbroken_runtimes (runtimes : List Runtime) :
    reader.Unbroken (Text.join ", " (runtimes.map Runtime.text)) := by
  refine .of_join (.of_literal (by decide)) ?_
  rw [List.forall_mem_map]
  intro runtime _
  cases runtime <;> exact .of_literal (by decide)

lemma unbroken_textLines_iff (report : Report) :
    (∀ line ∈ textLines report, reader.Unbroken line) ↔
      ∀ text ∈ report.printed, reader.Unbroken text := by
  have hrule : reader.Unbroken textRule := .of_literal (by decide)
  have hsource : reader.Unbroken report.profile.source.text := by
    cases report.profile.source <;> exact .of_literal (by decide)
  have hverdict : reader.Unbroken report.summary.severity.verdict := by
    cases report.summary.severity <;> exact .of_literal (by decide)
  have hredaction : reader.Unbroken
      (if report.redacted then "on" else "OFF - this report may contain internal hostnames") := by
    cases report.redacted <;> exact .of_literal (by decide)
  rw [textLines, textTail, Report.printed]
  simp only [List.forall_mem_append, unbroken_findings_iff]
  -- What is left of a line is the values on it, in their order.
  simp (disch := (apply isPlainLine_literal; decide)) only [List.forall_mem_cons,
    List.not_mem_nil, false_imp_iff, implies_true, LineEnds.Unbroken.append_iff,
    LineEnds.Unbroken.of_isPlainLine, LineEnds.Unbroken.of_nat, LineEnds.Unbroken.of_int,
    unbroken_runtimes, iff_true_intro hrule, iff_true_intro hsource, iff_true_intro hverdict,
    iff_true_intro hredaction, true_and, and_true, and_assoc]

lemma length_textFinding (finding : Finding) :
    (textFinding finding).length = (textShape finding).lines := by
  rw [textFinding, TextShape.lines, textShape]
  cases finding.remediation with
  | none => cases finding.docs <;> simp <;> omega
  | some remediation => cases finding.docs <;> simp <;> omega

lemma length_textLines (report : Report) :
    (textLines report).length = lineCount (report.findings.map textShape) := by
  have hfindings :
      (if report.findings.isEmpty then noFindingsText
        else report.findings.flatMap textFinding).length =
        if (report.findings.map textShape).isEmpty then 6
        else ((report.findings.map textShape).map TextShape.lines).sum := by
    rw [List.isEmpty_map]
    cases report.findings with
    | nil => rfl
    | cons finding findings =>
      rw [List.isEmpty_cons, if_neg Bool.false_ne_true, if_neg Bool.false_ne_true,
        List.length_flatMap, List.map_map]
      exact congrArg List.sum (List.map_congr_left fun finding _ => length_textFinding finding)
  rw [textLines, textTail, List.length_append, List.length_append, List.length_append, hfindings,
    lineCount]
  simp only [List.length_cons, List.length_nil]
  omega

/-- An evidence value with line ends in it puts down whole lines of its own choice. -/
theorem mem_read_of_evidence {report : RedactedReport rx} {finding : Finding} {evidence : Evidence}
    {line : String} (before after : String) (hfinding : finding ∈ report.report.findings)
    (hevidence : evidence ∈ finding.evidence) (hline : reader.Unbroken line)
    (hvalue : evidence.value = before ++ "\n" ++ line ++ "\n" ++ after) :
    line ∈ reader.read (renderText report) := by
  have hput : "    " ++ evidence.label ++ ": " ++ evidence.value ∈ textLines report.report := by
    have hmem : "    " ++ evidence.label ++ ": " ++ evidence.value ∈
        report.report.findings.flatMap textFinding := by
      refine List.mem_flatMap.mpr ⟨finding, hfinding, ?_⟩
      simp only [textFinding, List.mem_append, List.mem_map]
      exact Or.inl (Or.inl (Or.inl (Or.inr ⟨evidence, hevidence, rfl⟩)))
    have hsome : report.report.findings.isEmpty = false :=
      List.isEmpty_eq_false_iff.mpr (List.ne_nil_of_mem hfinding)
    rw [textLines, textTail, hsome, if_neg Bool.false_ne_true]
    exact List.mem_append_right _ (List.mem_append_left _ (List.mem_append_right _ hmem))
  have hspan : '\n' :: (line.toList ++ ['\n']) <:+: (renderText report).toList := by
    have hjoined := @Delimited.infix_intercalate _ '\n' _ _
      (List.mem_map_of_mem (f := String.toList) hput)
    rw [renderText, Text.toList_join]
    refine List.IsInfix.trans ⟨("    " ++ evidence.label ++ ": " ++ before).toList, after.toList, ?_⟩
      hjoined
    simp [hvalue]
  rw [LineEnds.read]
  refine List.mem_map.mpr ⟨line.toList, ?_, String.ofList_toList⟩
  exact Delimited.mem_splitOnP_of_infix reader.newline reader.newline hline hspan

end Lines

lemma LinesKept.unbroken {reader : LineEnds} {rx : ReportExternals} {report : RedactedReport rx}
    (h : LinesKept reader report) : ∀ text ∈ report.report.printed, reader.Unbroken text :=
  (unbroken_textLines_iff report.report).mp
    ((read_join_iff (List.cons_ne_nil _ _)).mp h.lines)

/-- The output is read line by line as it was put down where no value has the end of a line in it;
where one has, it comes to more lines than the findings have. -/
theorem linesKept_iff (reader : LineEnds) {rx : ReportExternals} (report : RedactedReport rx) :
    LinesKept reader report ↔
      ∀ text ∈ report.report.printed, ∀ c ∈ text.toList, reader.ends c = false := by
  have hne : textLines report.report ≠ [] := List.cons_ne_nil _ _
  constructor
  · exact fun h => h.unbroken
  · intro h
    have hlines := (unbroken_textLines_iff report.report).mpr h
    exact ⟨(read_join_iff hne).mpr hlines,
      ((length_read_join_iff hne).mpr hlines).trans (length_textLines report.report)⟩

/-- Nothing but the newline ends a line. -/
def newlineEnds : LineEnds where
  ends c := c = '\n'
  newline := by decide
  whitespace c hc := by
    rw [of_decide_eq_true hc]
    decide

/-- A name with the lines of a finding in it. -/
def forgedName : String :=
  "other.example\n[OK      ] tls.names-match\n  All names match"

def forgedTarget : Tls.ChainTarget := ⟨"api.example.com", true⟩

def forgedCapture : Tls.CapturedChain where
  chainDer := [[1]]
  negotiatedProtocol := some "TLSv1.3"
  negotiatedCipher := none
  requestedSni := "api.example.com"
  via := .direct

/-- A leaf for another name, and that name has lines in it. -/
def forgedLeaf : X509Certificate :=
  { namedCertificate "other" "other" [1] with subjectAltName := some [⟨"dns", forgedName⟩] }

/-- The report of a run that found that leaf. -/
def forgedReport : Report where
  schemaVersion := reportSchemaVersion
  tool := ⟨toolName, version⟩
  generatedAt := "2026-01-01T00:00:00.000Z"
  durationMs := 812
  platform := ⟨"linux", "x64", "node", "v24.0.0"⟩
  profile := ⟨"acme", "acme.yaml", .file, 1, [.node]⟩
  redacted := false
  summary := ⟨1, 1, 0, 0, 0, .blocker⟩
  findings := Tls.nameFindings forgedTarget forgedCapture quietExternals.toExternals forgedLeaf

lemma forgedReport_findings : forgedReport.findings =
    [Tls.sniMismatch forgedTarget forgedCapture forgedLeaf [forgedName]] := by
  have hnames : Tls.dnsNames forgedLeaf = some [forgedName] := rfl
  have hmatch : Tls.matchesDnsName quietExternals.toExternals forgedCapture.requestedSni
      forgedName = false := by decide
  rw [forgedReport, Tls.nameFindings, if_neg (by decide), hnames]
  dsimp only
  rw [List.any_cons, hmatch, List.any_nil, if_neg (by decide)]

/-- With redaction off the mismatch is followed by a finding nobody made. -/
theorem forgedReport_lines :
    ¬LinesKept newlineEnds (redact quietExternals forgedReport ⟨false, [], "salt"⟩) ∧
      "[OK      ] tls.names-match" ∈
        newlineEnds.read (renderText (redact quietExternals forgedReport ⟨false, [], "salt"⟩)) := by
  have hmem : Evidence.mk "certificate name" forgedName .hostname ∈
      (Tls.sniMismatch forgedTarget forgedCapture forgedLeaf [forgedName]).evidence :=
    List.mem_append_left _ (List.mem_append_right _ List.mem_cons_self)
  have hfinding := forgedReport_findings ▸ List.mem_singleton_self _
  constructor
  · intro h
    have hprinted : forgedName ∈ forgedReport.printed := by
      refine List.mem_append_right _ (List.mem_flatMap.mpr ⟨_, hfinding, ?_⟩)
      refine List.mem_append_left _ (List.mem_append_right _ ?_)
      exact List.mem_flatMap.mpr ⟨_, hmem, List.mem_cons_of_mem _ List.mem_cons_self⟩
    exact absurd (h.unbroken _ hprinted '\n' (by decide)) (by decide)
  · exact mem_read_of_evidence "other.example" "  All names match"
      hfinding hmem (.of_literal (by decide)) rfl

end Portcall
