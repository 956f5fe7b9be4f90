import Portcall.Cli.Check

/-! What two redacted reports of alike runs can differ in: the name of the profile, which is the
argument of `--profile` as it was typed, and nothing else. -/
namespace Portcall
variable {rx : ReportExternals}

section Redaction
variable {options : RedactionOptions} {findings : List Finding}

/-- The redaction of one finding under these options. -/
def redacted (rx : ReportExternals) (options : RedactionOptions) : Finding → Finding :=
  redactFinding rx options.salt (normalisePublic rx options.publicValues)

/-- Redaction leaves the order of findings alone: the comparison never looks at evidence. -/
lemma map_redacted_sortFindings (localeCompare : String → String → ℤ) :
    (sortFindings localeCompare findings).map (redacted rx options) =
      sortFindings localeCompare (findings.map (redacted rx options)) :=
  List.map_insertionSort _ _ _ _ fun _ _ _ _ => Iff.rfl

/-- Redaction leaves the counts alone. -/
lemma summarise_map_redacted :
    summarise (findings.map (redacted rx options)) = summarise findings := by
  have hcount : ∀ severity, countOf severity (findings.map (redacted rx options)) =
      countOf severity findings := fun _ => List.countP_map
  have hrollUp : rollUp (findings.map (redacted rx options)) = rollUp findings :=
    List.foldl_map
  rw [summarise_eq, summarise_eq, List.length_map, hrollUp]
  simp only [hcount]

end Redaction

section Alike

/-- Two runs with one salt, one clock, one machine and one profile, whose findings are alike. -/
structure AlikeRuns (rx : ReportExternals) (left right : CheckRun) : Prop where
  redact : left.command.redact = true ∧ right.command.redact = true
  salt : left.salt = right.salt
  header : left.header = right.header
  profile : ∀ loaded loaded',
    loadProfile rx.toExternals left.sources left.command.profile = some loaded →
      loadProfile rx.toExternals right.sources right.command.profile = some loaded' →
        loaded.profile = loaded'.profile
  findings : ∀ loaded,
    loadProfile rx.toExternals left.sources left.command.profile = some loaded →
      Option.Rel (List.Forall₂ (AlikeFinding rx (redactionOptions left loaded.profile)))
        (gatherFindings left.behaviour) (gatherFindings right.behaviour)

variable {left right : CheckRun} {safe safe' : RedactedReport rx}

lemma RedactedReport.eq_of_report_eq (h : safe.report = safe'.report) : safe = safe' := by
  cases safe
  cases safe'
  cases h
  rfl

/-- A report bears the name its profile was asked for by. -/
lemma report_named (h : checkReport rx left = some safe) :
    safe.report.named left.command.profile = safe.report := by
  obtain ⟨loaded, findings, hload, -, rfl⟩ := checkReport_some h
  rw [← (loadProfile_some hload).1]
  rfl

/-- Redacted reports of alike findings are alike in everything said of the findings. -/
lemma redact_buildReport_eq {options : RedactionOptions} {header : RunHeader} {ext : Externals}
    {loaded : LoadedProfile ext} {findings findings' : List Finding} (henabled : options.enabled)
    (h : List.Forall₂ (AlikeFinding rx options) findings findings') :
    (redact rx (buildReport rx.localeCompare header loaded findings) options).report =
      (redact rx (buildReport rx.localeCompare header loaded findings') options).report := by
  have hmap : findings.map (redacted rx options) = findings'.map (redacted rx options) :=
    map_eq_map_of_forall₂ h fun _ _ halike => halike.redact_eq
  have hsorted : (sortFindings rx.localeCompare findings).map (redacted rx options) =
      (sortFindings rx.localeCompare findings').map (redacted rx options) := by
    rw [map_redacted_sortFindings, map_redacted_sortFindings, hmap]
  have hsummary : summarise (sortFindings rx.localeCompare findings) =
      summarise (sortFindings rx.localeCompare findings') := by
    rw [← @summarise_map_redacted rx options, hsorted, summarise_map_redacted]
  unfold redacted at hsorted
  simp only [redact, redactReport, buildReport, henabled, if_true, hsorted, hsummary]

/-- Two alike runs that both take their profile from a file, or both from the table, report alike
in all but its name. -/
lemma report_eq_named (halike : AlikeRuns rx left right)
    (hpath : looksLikePath left.command.profile = looksLikePath right.command.profile)
    (hleft : checkReport rx left = some safe) (hright : checkReport rx right = some safe') :
    safe'.report = safe.report.named right.command.profile := by
  obtain ⟨loaded, findings, hload, hfindings, rfl⟩ := checkReport_some hleft
  obtain ⟨loaded', findings', hload', hfindings', rfl⟩ := checkReport_some hright
  obtain ⟨-, hsource⟩ := loadProfile_some hload
  obtain ⟨hid', hsource'⟩ := loadProfile_some hload'
  have hprofile := halike.profile loaded loaded' hload hload'
  have hoptions : redactionOptions right loaded'.profile = redactionOptions left loaded.profile := by
    unfold redactionOptions
    rw [halike.redact.1, halike.redact.2, halike.salt, hprofile]
  have hgathered := halike.findings loaded hload
  rw [hfindings, hfindings', Option.rel_some_some] at hgathered
  have hreports := @redact_buildReport_eq rx (redactionOptions left loaded.profile) right.header
    rx.toExternals loaded' _ _ halike.redact.1 hgathered
  rw [hoptions, ← hreports]
  simp only [redact, redactReport, buildReport, Report.named, halike.header, hprofile, hid',
    hsource, hsource', hpath]

/-- Alike runs given one argument hand one report to the renderers. -/
lemma safe_eq_of_argument_eq (halike : AlikeRuns rx left right)
    (hleft : checkReport rx left = some safe) (hright : checkReport rx right = some safe')
    (hargument : left.command.profile = right.command.profile) : safe = safe' := by
  have hreport := report_eq_named halike (congrArg looksLikePath hargument) hleft hright
  rw [← hargument, report_named hleft] at hreport
  exact RedactedReport.eq_of_report_eq hreport.symm

/-- Of two files that hold one profile, each rendering alone tells which one was named. -/
theorem render_eq_iff_argument (halike : AlikeRuns rx left right)
    (hpath : looksLikePath left.command.profile = looksLikePath right.command.profile)
    (hleft : checkReport rx left = some safe) (hright : checkReport rx right = some safe')
    (format : Format) : render safe format = render safe' format ↔
      left.command.profile = right.command.profile := by
  constructor
  · exact render_named (report_named hleft).symm (report_eq_named halike hpath hleft hright) format
  · intro hargument
    rw [safe_eq_of_argument_eq halike hleft hright hargument]

/-- Two runs alike but for what redaction hides, and but for the argument of `--profile`, hand one
report to the renderers and print one text in every format exactly when that argument is the
same: it is in the report as it was typed. -/
theorem noninterference_iff (halike : AlikeRuns rx left right)
    (hleft : checkReport rx left = some safe) (hright : checkReport rx right = some safe') :
    (safe = safe' ∧ ∀ format, render safe format = render safe' format) ↔
      left.command.profile = right.command.profile := by
  constructor
  · rintro ⟨rfl, -⟩
    have hnamed := (report_named hleft).trans (report_named hright).symm
    exact congrArg (fun report => report.profile.id) hnamed
  · intro hargument
    obtain rfl := safe_eq_of_argument_eq halike hleft hright hargument
    exact ⟨rfl, fun _ => rfl⟩

end Alike

section Paths

/-- What is found of one name. -/
def resolvedFinding (host : String) : Finding where
  id := "dns.resolved"
  probe := "dns"
  severity := .ok
  title := "resolves"
  evidence := [⟨"host", host, .hostname⟩]

/-- A check of one profile in a file of this path, in which one name is looked up. -/
def fileRun (path host : String) : CheckRun where
  sources :=
    { readFile := fun _ => some "name: acme"
      builtin := []
      parseYaml := fun _ => some acmeProfile }
  command := ⟨path, .text, true⟩
  header := ⟨"2025-01-01T00:00:00.000Z", 5, ⟨"linux", "x64", "node", "24.0.0"⟩⟩
  salt := "salt"
  behaviour probe := .returned (if probe = "dns" then [resolvedFinding host] else [])

lemma loadProfile_fileRun {path host : String} (h : looksLikePath path = true) :
    loadProfile quietExternals.toExternals (fileRun path host).sources path =
      some (loadedFrom path) := by
  simp only [loadProfile, ProfileSources.read, fileRun, h, if_true, Option.bind_eq_bind,
    Option.bind_some, parseProfile]
  have hschema : profileSchema quietExternals.toExternals acmeProfile = true := by decide
  have hdistinct : findDuplicateEndpoints quietExternals.toExternals acmeProfile.endpoints = [] :=
    by decide
  rw [dif_pos hschema, dif_pos hdistinct]
  rfl

/-- What that check hands to the renderers. -/
def fileReport (path host : String) : RedactedReport quietExternals :=
  redact quietExternals
    (buildReport quietExternals.localeCompare (fileRun path host).header (loadedFrom path)
      [resolvedFinding host])
    (redactionOptions (fileRun path host) acmeProfile)

lemma checkReport_fileRun {path host : String} (h : looksLikePath path = true) :
    checkReport quietExternals (fileRun path host) = some (fileReport path host) := by
  have hload := @loadProfile_fileRun path host h
  unfold checkReport
  rw [show (fileRun path host).command.profile = path from rfl, hload]
  rfl

lemma alikeRuns_fileRun {left right host host' : String} (hleft : looksLikePath left = true)
    (hright : looksLikePath right = true) (hhost : host ∈ ["a.corp", "b.corp"])
    (hhost' : host' ∈ ["a.corp", "b.corp"]) :
    AlikeRuns quietExternals (fileRun left host) (fileRun right host') where
  redact := ⟨rfl, rfl⟩
  salt := rfl
  header := rfl
  profile loaded loaded' hloaded hloaded' := by
    cases (loadProfile_fileRun hleft).symm.trans hloaded
    cases (loadProfile_fileRun hright).symm.trans hloaded'
    rfl
  findings loaded hloaded := by
    cases (loadProfile_fileRun hleft).symm.trans hloaded
    have hunknown : ∀ host ∈ ["a.corp", "b.corp"], normaliseValue quietExternals host ∉
        normalisePublic quietExternals (publicValuesOf acmeProfile) := by decide +kernel
    refine .some (.cons ⟨rfl, rfl, rfl, rfl, rfl, rfl, .cons ⟨rfl, rfl, Or.inr ?_⟩ .nil⟩ .nil)
    exact ⟨rfl, hunknown host hhost, hunknown host' hhost', rfl⟩

/-- The two runs below, of one profile in two places, which find two names. -/
theorem noninterference_iff_fileRun :
    (fileReport "/home/operator/acme.yaml" "a.corp" = fileReport "/srv/acme.yaml" "b.corp" ∧
      ∀ format, render (fileReport "/home/operator/acme.yaml" "a.corp") format =
        render (fileReport "/srv/acme.yaml" "b.corp") format) ↔
      "/home/operator/acme.yaml" = "/srv/acme.yaml" :=
  noninterference_iff (alikeRuns_fileRun (by decide) (by decide) (by simp) (by simp))
    (checkReport_fileRun (by decide)) (checkReport_fileRun (by decide))

/-- One profile, read from an operator's home directory and from a shared one: the runs are alike,
and every rendering tells them apart. -/
theorem named_path_reported :
    AlikeRuns quietExternals (fileRun "/home/operator/acme.yaml" "a.corp")
        (fileRun "/srv/acme.yaml" "a.corp") ∧
      (fileRun "/home/operator/acme.yaml" "a.corp").sources =
        (fileRun "/srv/acme.yaml" "a.corp").sources ∧
      checkReport quietExternals (fileRun "/home/operator/acme.yaml" "a.corp") =
        some (fileReport "/home/operator/acme.yaml" "a.corp") ∧
      checkReport quietExternals (fileRun "/srv/acme.yaml" "a.corp") =
        some (fileReport "/srv/acme.yaml" "a.corp") ∧
      fileReport "/home/operator/acme.yaml" "a.corp" ≠ fileReport "/srv/acme.yaml" "a.corp" ∧
      ∀ format, render (fileReport "/home/operator/acme.yaml" "a.corp") format ≠
        render (fileReport "/srv/acme.yaml" "a.corp") format := by
  have halike : AlikeRuns quietExternals (fileRun "/home/operator/acme.yaml" "a.corp")
      (fileRun "/srv/acme.yaml" "a.corp") :=
    alikeRuns_fileRun (by decide) (by decide) (by simp) (by simp)
  have hleft := @checkReport_fileRun "/home/operator/acme.yaml" "a.corp" (by decide)
  have hright := @checkReport_fileRun "/srv/acme.yaml" "a.corp" (by decide)
  have hrender : ∀ format, render (fileReport "/home/operator/acme.yaml" "a.corp") format ≠
      render (fileReport "/srv/acme.yaml" "a.corp") format := by
    intro format h
    have harguments := (render_eq_iff_argument halike rfl hleft hright format).mp h
    revert harguments
    decide
  refine ⟨halike, rfl, hleft, hright, ?_, hrender⟩
  intro h
  exact hrender .text (congrArg (fun safe => render safe .text) h)

end Paths
end Portcall
