import Portcall.Cli.Check

/-! A run over probes that keep the remediation rule completes, and its exit code says what the
probes found, however they failed. -/
namespace Portcall
variable (behaviour : String → ProbeOutcome)

/-- The findings of the probes that returned. -/
def returnedFindings : List Finding :=
  probes.flatMap fun probe =>
    match behaviour probe with
    | .returned findings => findings
    | .threw _ => []

/-- The probes that threw. -/
def thrownProbes : List String :=
  probes.filter fun probe =>
    match behaviour probe with
    | .returned _ => false
    | .threw _ => true

section Gather

/-- What a finding of a throw says: where it comes from, and that nothing is known. -/
def ErrorsOf (names : List String) (errors : List Finding) : Prop :=
  errors.map (fun finding => (finding.id, finding.severity)) =
    names.map fun probe => (probe ++ ".probe-error", .unknown)

lemma mapM_runProbe_perm {names : List String} {gathered : List (List Finding)}
    (h : (names.mapM fun probe => runProbe probe (behaviour probe)) = some gathered) :
    ∃ errors, gathered.flatten.Perm ((names.flatMap fun probe =>
        match behaviour probe with
        | .returned findings => findings
        | .threw _ => []) ++ errors) ∧
      ErrorsOf (names.filter fun probe =>
        match behaviour probe with
        | .returned _ => false
        | .threw _ => true) errors := by
  induction names generalizing gathered with
  | nil =>
    obtain rfl := Option.some.inj h
    exact ⟨[], .refl [], rfl⟩
  | cons probe names ih =>
    rw [List.mapM_cons] at h
    obtain ⟨own, hown, h⟩ := Option.bind_eq_some_iff.mp h
    obtain ⟨gathered, hgathered, h⟩ := Option.bind_eq_some_iff.mp h
    obtain rfl := Option.some.inj h
    obtain ⟨errors, hperm, herrors⟩ := ih hgathered
    rw [List.flatten_cons, List.flatMap_cons, List.filter_cons]
    cases hb : behaviour probe with
    | returned findings =>
      rw [hb, runProbe, Option.some.injEq] at hown
      subst hown
      refine ⟨errors, ?_, herrors⟩
      rw [List.append_assoc]
      exact hperm.append_left findings
    | threw error =>
      rw [hb] at hown
      obtain ⟨made, hmade, rfl⟩ := Option.map_eq_some_iff.mp hown
      obtain ⟨hid, hseverity⟩ := probeErrorFinding_spec hmade
      refine ⟨made :: errors, (hperm.cons made).trans List.perm_middle.symm, ?_⟩
      rw [if_pos rfl, ErrorsOf, List.map_cons, List.map_cons, hid, hseverity, herrors]

/-- All findings: those returned, and one for each probe that threw. -/
theorem gatherFindings_perm {findings : List Finding}
    (h : gatherFindings behaviour = some findings) :
    ∃ errors, findings.Perm (returnedFindings behaviour ++ errors) ∧
      ErrorsOf (thrownProbes behaviour) errors := by
  obtain ⟨gathered, hgathered, rfl⟩ := Option.map_eq_some_iff.mp h
  exact mapM_runProbe_perm behaviour hgathered

end Gather

/-- Where all findings are `ok` no probe threw: a throw is `unknown`. -/
lemma not_threw_of_all_ok {behaviour : String → ProbeOutcome} {findings : List Finding}
    (hfindings : gatherFindings behaviour = some findings)
    (h : ∀ finding ∈ findings, finding.severity = .ok) (probe : String)
    (hprobe : probe ∈ probes) (error : ThrownValue) : behaviour probe ≠ .threw error := by
  intro hb
  have hreadable := gatherFindings_isSome_iff.mp (Option.isSome_of_eq_some hfindings) probe hprobe
    error hb
  obtain ⟨made, hmade⟩ : ∃ made, probeErrorFinding probe error = some made :=
    Option.isSome_iff_exists.mp (probeErrorFinding_isSome_iff.mpr hreadable)
  have hm : made ∈ findings := (mem_gatherFindings_iff hfindings).mpr
    ⟨probe, hprobe, [made], by rw [hb, runProbe, hmade]; rfl, List.mem_singleton_self made⟩
  have hok := h made hm
  rw [(probeErrorFinding_spec hmade).2] at hok
  cases hok

section Completes
variable {localeCompare : String → String → ℤ} {ext : Externals} {header : RunHeader}
  {loaded : LoadedProfile ext} {report : Report}

/-- A report that holds what was returned and one `unknown` finding for each probe that threw,
worst first, and that counts them. -/
structure Accounted (report : Report) : Prop where
  findings : ∃ errors, report.findings.Perm (returnedFindings behaviour ++ errors) ∧
    ErrorsOf (thrownProbes behaviour) errors
  sorted : report.findings.Pairwise fun left right =>
    severityRank left.severity ≤ severityRank right.severity
  total : report.summary.total = report.findings.length
  blocker : report.summary.blocker = countOf .blocker report.findings
  degraded : report.summary.degraded = countOf .degraded report.findings
  unknown : report.summary.unknown = countOf .unknown report.findings
  ok : report.summary.ok = countOf .ok report.findings

/-- An exit code that says what the probes found: 2 at a blocker, 0 when no probe threw and all is
`ok`, 1 otherwise, in whatever order the findings come. -/
structure AccurateExit (report : Report) : Prop where
  blocker : (exitCodeFor report.summary.severity).code = 2 ↔
    ∃ finding ∈ report.findings, finding.severity = .blocker
  ok : (exitCodeFor report.summary.severity).code = 0 ↔
    (∀ probe ∈ probes, ∀ thrown, behaviour probe ≠ .threw thrown) ∧
      ∀ finding ∈ report.findings, finding.severity = .ok
  otherwise : (exitCodeFor report.summary.severity).code = 1 ↔
    ¬(∃ finding ∈ report.findings, finding.severity = .blocker) ∧
      ¬((∀ probe ∈ probes, ∀ thrown, behaviour probe ≠ .threw thrown) ∧
        ∀ finding ∈ report.findings, finding.severity = .ok)
  noToolError : (exitCodeFor report.summary.severity).code ≠ 3
  order : ∀ findings, findings.Perm report.findings →
    exitCodeFor (summarise findings).severity = exitCodeFor report.summary.severity

variable {findings : List Finding}

lemma accounted_buildReport (h : gatherFindings behaviour = some findings) :
    Accounted behaviour (buildReport localeCompare header loaded findings) where
  findings := by
    obtain ⟨errors, hperm, herrors⟩ := gatherFindings_perm behaviour h
    exact ⟨errors, (sortFindings_perm localeCompare findings).trans hperm, herrors⟩
  sorted := sortFindings_sorted localeCompare _
  total := rfl
  blocker := congrArg ReportSummary.blocker summarise_eq
  degraded := congrArg ReportSummary.degraded summarise_eq
  unknown := congrArg ReportSummary.unknown summarise_eq
  ok := congrArg ReportSummary.ok summarise_eq

lemma exitCode_blocker_iff (findings : List Finding) :
    (exitCodeFor (rollUp findings)).code = 2 ↔
      ∃ finding ∈ findings, finding.severity = .blocker := by
  rw [← rollUp_eq_blocker_iff]
  cases rollUp findings <;> decide

lemma exitCode_ok_iff (findings : List Finding) : (exitCodeFor (rollUp findings)).code = 0 ↔
    ∀ finding ∈ findings, finding.severity = .ok := by
  rw [← rollUp_eq_ok_iff]
  cases rollUp findings <;> decide

lemma exitCode_cases (severity : Severity) : (exitCodeFor severity).code = 1 ↔
    (exitCodeFor severity).code ≠ 2 ∧ (exitCodeFor severity).code ≠ 0 := by
  cases severity <;> decide

lemma accurateExit_buildReport (h : gatherFindings behaviour = some findings) :
    AccurateExit behaviour (buildReport localeCompare header loaded findings) := by
  have hperm := sortFindings_perm localeCompare findings
  have hok : (∀ finding ∈ sortFindings localeCompare findings, finding.severity = .ok) →
      ∀ probe ∈ probes, ∀ error, behaviour probe ≠ .threw error := fun hall =>
    not_threw_of_all_ok h fun finding hm => hall finding (hperm.mem_iff.mpr hm)
  have hblocker := exitCode_blocker_iff (sortFindings localeCompare findings)
  have hpassed := (exitCode_ok_iff (sortFindings localeCompare findings)).trans
    ⟨fun hall => ⟨hok hall, hall⟩, And.right⟩
  refine ⟨hblocker, hpassed, ?_, ?_, fun findings hperm => ?_⟩
  · exact (exitCode_cases _).trans (and_congr (not_congr hblocker) (not_congr hpassed))
  · exact exitCode_ne_toolError _
  · exact congrArg exitCodeFor (rollUp_perm hperm)

/-- A run over probes that each return remediable findings or throw completes, with a report that
accounts for all of them and an exit code that says what they found, exactly when what they throw
can be read. -/
theorem run_completes_iff (localeCompare : String → String → ℤ) (header : RunHeader)
    (loaded : LoadedProfile ext) (h : ReturnsRemediable behaviour) :
    (∃ report, run localeCompare header loaded behaviour = some report ∧
      Accounted behaviour report ∧ AccurateExit behaviour report) ↔ ThrowsReadable behaviour := by
  rw [← gatherFindings_isSome_iff, Option.isSome_iff_exists]
  constructor
  · rintro ⟨report, hrun, -, -⟩
    obtain ⟨findings, hfindings, -⟩ := run_eq_some_iff.mp hrun
    exact ⟨findings, hfindings⟩
  · rintro ⟨findings, hfindings⟩
    refine ⟨buildReport localeCompare header loaded findings, ?_,
      accounted_buildReport behaviour hfindings, accurateExit_buildReport behaviour hfindings⟩
    rw [run_eq_some_iff]
    exact ⟨findings, hfindings, fun _ => remediable_of_mem_gatherFindings h hfindings, rfl⟩

def fiveMilliseconds : RunHeader :=
  ⟨"2025-01-01T00:00:00.000Z", 5, ⟨"linux", "x64", "node", "24.0.0"⟩⟩

/-- A run whose first probe throws this and whose others each find a blocker. -/
def throwingDns (error : ThrownValue) (probe : String) : ProbeOutcome :=
  if probe = "dns" then .threw error
  else .returned [⟨probe ++ ".down", probe, .blocker, "Down", [], some "Start it.", none⟩]

lemma returnsRemediable_throwingDns (error : ThrownValue) :
    ReturnsRemediable (throwingDns error) := by
  intro probe _ findings hb finding hm
  unfold throwingDns at hb
  split_ifs at hb
  cases hb
  obtain rfl := List.mem_singleton.mp hm
  exact remediable_of_some rfl (by decide)

def cancelled : Thrown := { thrownClass := .error, name := "AbortError" }

/-- A run whose first probe is cancelled completes, with both kinds of findings in its report. -/
theorem run_completes_iff_cancelled : ∃ report,
    run quietExternals.localeCompare fiveMilliseconds (loadedFrom "acme.yaml")
        (throwingDns cancelled.value) = some report ∧
      Accounted (throwingDns cancelled.value) report ∧
      AccurateExit (throwingDns cancelled.value) report := by
  refine (run_completes_iff _ _ _ _ (returnsRemediable_throwingDns cancelled.value)).mpr ?_
  intro probe _ error hb
  unfold throwingDns at hb
  split_ifs at hb
  cases hb
  exact cancelled.readable

/-- An `AggregateError` whose `errors` are not iterable. -/
def uniterable : ThrownValue :=
  { Thrown.value { thrownClass := .aggregateError [], name := "AggregateError" } with
    errors := [none] }

/-- Where a probe throws it, the run rejects. -/
theorem run_rejects_uniterable : ReturnsRemediable (throwingDns uniterable) ∧
    run quietExternals.localeCompare fiveMilliseconds (loadedFrom "acme.yaml")
      (throwingDns uniterable) = none :=
  ⟨returnsRemediable_throwingDns uniterable, by decide⟩

end Completes
end Portcall
