import Mathlib.Data.List.TakeWhile
import Portcall.Engine.ProbeError
import Portcall.Engine.Rollup
import Portcall.Library.OptionMap

/-! One run: every registered probe in its order, then the report. A probe that throws becomes a
finding, unless reading what it threw throws again. That fails the run, and so does a finding that
breaks the remediation rule. -/
namespace Portcall

/-- What a probe's promise comes to. -/
inductive ProbeOutcome where
  | returned (findings : List Finding)
  | threw (error : ThrownValue)
  deriving DecidableEq, Repr

/-- The registered probes, in execution order. -/
def probes : List String := ["dns", "egress", "proxy", "tls", "truststore"]

/-- The findings of one probe, unless what it threw throws again when it is read. -/
def runProbe (probe : String) : ProbeOutcome → Throwing (List Finding)
  | .returned findings => some findings
  | .threw error => (probeErrorFinding probe error).map ([·])

def isBlank (text : String) : Bool := Text.trim text = ""

section Blank
variable {text : String}

/-- A text is blank when all its characters are whitespace. -/
lemma isBlank_eq_false_iff :
    isBlank text = false ↔ ∃ c ∈ text.toList, Text.isWhitespace c = false := by
  have hnil : ∀ chars : List Char, Text.trimChars chars = [] ↔
      ∀ c ∈ chars, Text.isWhitespace c = true := by
    intro chars
    rw [Text.trimChars, List.reverse_eq_nil_iff, List.dropWhile_eq_nil_iff]
    simp only [List.mem_reverse]
    constructor
    · intro h c hc
      rw [← List.takeWhile_append_dropWhile (p := Text.isWhitespace) (l := chars)] at hc
      rcases List.mem_append.mp hc with hc | hc
      · exact List.mem_takeWhile_imp hc
      · exact h c hc
    · exact fun h c hc => h c ((List.dropWhile_sublist _).subset hc)
  rw [isBlank, decide_eq_false_iff_not, Text.trim, String.ofList_eq_empty_iff, hnil]
  simp

lemma isBlank_append {rest : String} (h : isBlank text = false) :
    isBlank (text ++ rest) = false := by
  obtain ⟨c, hc, hvisible⟩ := isBlank_eq_false_iff.mp h
  rw [isBlank_eq_false_iff, String.toList_append]
  exact ⟨c, List.mem_append_left _ hc, hvisible⟩

lemma isBlank_append_right {before : String} (h : isBlank text = false) :
    isBlank (before ++ text) = false := by
  obtain ⟨c, hc, hvisible⟩ := isBlank_eq_false_iff.mp h
  rw [isBlank_eq_false_iff, String.toList_append]
  exact ⟨c, List.mem_append_right _ hc, hvisible⟩

lemma isBlank_ofList_cons {c : Char} {rest : List Char} (h : Text.isWhitespace c = false) :
    isBlank (String.ofList (c :: rest)) = false := by
  rw [isBlank_eq_false_iff, String.toList_ofList]
  exact ⟨c, List.mem_cons_self, h⟩

end Blank

def needsRemediation (finding : Finding) : Bool :=
  finding.severity = .blocker || finding.severity = .degraded

/-- Whether `assertRemediable` lets a finding pass; it throws at one it does not. -/
def assertRemediable (finding : Finding) : Bool :=
  !(needsRemediation finding && finding.remediation.all isBlank)

/-- What the report says about the run itself. -/
structure RunHeader where
  generatedAt : String
  durationMs : ℤ
  platform : ReportPlatform
  deriving DecidableEq, Repr

section Run
variable (localeCompare : String → String → ℤ) {ext : Externals} (header : RunHeader)
  (loaded : LoadedProfile ext) (behaviour : String → ProbeOutcome)

/-- The findings of all probes, in the order of the probes. -/
def gatherFindings : Throwing (List Finding) :=
  (probes.mapM fun probe => runProbe probe (behaviour probe)).map List.flatten

def buildReport (findings : List Finding) : Report :=
  let sorted := sortFindings localeCompare findings
  { schemaVersion := reportSchemaVersion
    tool := ⟨toolName, version⟩
    generatedAt := header.generatedAt
    durationMs := header.durationMs
    platform := header.platform
    profile :=
      { name := loaded.profile.name
        id := loaded.id
        source := loaded.source
        endpoints := loaded.profile.endpoints.length
        runtimes := loaded.profile.runtimes }
    redacted := false
    summary := summarise sorted
    findings := sorted }

/-- The report of a run, unless some finding lacks its remediation. -/
def run : Throwing Report := do
  let findings ← gatherFindings behaviour
  if findings.all assertRemediable then return buildReport localeCompare header loaded findings
  else none

end Run

/-- A finding that says something is broken says what to do about it. -/
def Remediable (finding : Finding) : Prop :=
  finding.severity = .blocker ∨ finding.severity = .degraded →
    ∃ text, finding.remediation = some text ∧ isBlank text = false

section Remediable
variable {finding : Finding}

theorem assertRemediable_iff : assertRemediable finding = true ↔ Remediable finding := by
  unfold assertRemediable needsRemediation Remediable
  cases finding.remediation with
  | none => simp
  | some text => simp [imp_iff_not_or]

lemma remediable_of_unknown (h : finding.severity = .unknown) : Remediable finding := by
  rintro (h' | h') <;> rw [h] at h' <;> cases h'

lemma remediable_of_ok (h : finding.severity = .ok) : Remediable finding := by
  rintro (h' | h') <;> rw [h] at h' <;> cases h'

lemma remediable_of_some {text : String} (h : finding.remediation = some text)
    (hblank : isBlank text = false) : Remediable finding := fun _ => ⟨text, h, hblank⟩

end Remediable

section Returns
variable {localeCompare : String → String → ℤ} {ext : Externals} {header : RunHeader}
  {loaded : LoadedProfile ext} {behaviour : String → ProbeOutcome}

/-- Every probe that returns returns remediable findings. -/
def ReturnsRemediable (behaviour : String → ProbeOutcome) : Prop :=
  ∀ probe ∈ probes, ∀ findings, behaviour probe = .returned findings →
    ∀ finding ∈ findings, Remediable finding

/-- The values that probes throw can be read. -/
def ThrowsReadable (behaviour : String → ProbeOutcome) : Prop :=
  ∀ probe ∈ probes, ∀ error, behaviour probe = .threw error → error.Readable

lemma runProbe_isSome_iff {probe : String} {outcome : ProbeOutcome} :
    (runProbe probe outcome).isSome ↔ ∀ error, outcome = .threw error → error.Readable := by
  cases outcome with
  | returned findings => simp [runProbe]
  | threw error => simp [runProbe, Option.isSome_map, probeErrorFinding_isSome_iff]

/-- The findings are gathered unless some value thrown cannot be read. -/
theorem gatherFindings_isSome_iff :
    (gatherFindings behaviour).isSome ↔ ThrowsReadable behaviour := by
  rw [gatherFindings, Option.isSome_map, OptionMap.mapM_isSome_iff]
  simp only [runProbe_isSome_iff, ThrowsReadable]

lemma mem_gatherFindings_iff {findings : List Finding} {finding : Finding}
    (h : gatherFindings behaviour = some findings) : finding ∈ findings ↔
      ∃ probe ∈ probes, ∃ own, runProbe probe (behaviour probe) = some own ∧ finding ∈ own := by
  obtain ⟨gathered, hgathered, rfl⟩ := Option.map_eq_some_iff.mp h
  simp only [List.mem_flatten, OptionMap.mem_of_mapM_eq_some hgathered]
  constructor
  · rintro ⟨own, ⟨probe, hprobe, hown⟩, hm⟩
    exact ⟨probe, hprobe, own, hown, hm⟩
  · rintro ⟨probe, hprobe, own, hown, hm⟩
    exact ⟨own, ⟨probe, hprobe, hown⟩, hm⟩

lemma remediable_of_mem_gatherFindings (h : ReturnsRemediable behaviour) {findings : List Finding}
    (hfindings : gatherFindings behaviour = some findings) {finding : Finding}
    (hm : finding ∈ findings) : Remediable finding := by
  obtain ⟨probe, hprobe, own, hown, hm⟩ := (mem_gatherFindings_iff hfindings).mp hm
  cases hb : behaviour probe with
  | returned returned =>
    rw [hb, runProbe, Option.some.injEq] at hown
    exact h probe hprobe returned hb finding (hown ▸ hm)
  | threw error =>
    rw [hb] at hown
    obtain ⟨made, hmade, rfl⟩ := Option.map_eq_some_iff.mp hown
    rw [List.mem_singleton.mp hm]
    exact remediable_of_unknown (probeErrorFinding_spec hmade).2

/-- A run returns exactly when its findings are gathered and remediable, and then it returns the
report. -/
theorem run_eq_some_iff {report : Report} :
    run localeCompare header loaded behaviour = some report ↔
      ∃ findings, gatherFindings behaviour = some findings ∧
        (∀ finding ∈ findings, Remediable finding) ∧
        report = buildReport localeCompare header loaded findings := by
  unfold run
  rw [Option.bind_eq_bind, Option.bind_eq_some_iff]
  refine exists_congr fun findings => and_congr_right fun _ => ?_
  have hall : findings.all assertRemediable = true ↔ ∀ finding ∈ findings, Remediable finding := by
    simp only [List.all_eq_true, assertRemediable_iff]
  split_ifs with h
  · rw [Option.pure_def, Option.some.injEq, eq_comm, and_iff_right (hall.mp h)]
  · simp [mt hall.mpr h]

end Returns
end Portcall
