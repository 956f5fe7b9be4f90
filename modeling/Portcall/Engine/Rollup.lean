import Portcall.Library.SortByKey
import Portcall.Report.Types

/-! Roll-up: the worst severity of a list of findings, the counts, and the order findings are
reported in. -/
namespace Portcall

/-- Severities, worst first. -/
def severityOrder : List Severity := [.blocker, .degraded, .unknown, .ok]

def severityRank (severity : Severity) : ℕ := severityOrder.idxOf severity

/-- One severity for a set of findings; nothing found is `ok`. -/
def rollUp (findings : List Finding) : Severity :=
  findings.foldl (fun worst finding =>
    if severityRank finding.severity < severityRank worst then finding.severity else worst) .ok

structure SeverityCounts where
  blocker : ℕ := 0
  degraded : ℕ := 0
  unknown : ℕ := 0
  ok : ℕ := 0
  deriving DecidableEq, Repr

/-- `counts[severity] += 1` -/
def SeverityCounts.increment (counts : SeverityCounts) : Severity → SeverityCounts
  | .blocker => { counts with blocker := counts.blocker + 1 }
  | .degraded => { counts with degraded := counts.degraded + 1 }
  | .unknown => { counts with unknown := counts.unknown + 1 }
  | .ok => { counts with ok := counts.ok + 1 }

def countSeverities (findings : List Finding) : SeverityCounts :=
  findings.foldl (fun counts finding => counts.increment finding.severity) {}

def summarise (findings : List Finding) : ReportSummary :=
  let counts := countSeverities findings
  { total := findings.length
    blocker := counts.blocker
    degraded := counts.degraded
    unknown := counts.unknown
    ok := counts.ok
    severity := rollUp findings }

/-- Worst first, then by probe, then by id; `localeCompare` decides between texts. -/
def compareFindings (localeCompare : String → String → ℤ) (left right : Finding) : ℤ :=
  let bySeverity : ℤ := severityRank left.severity - severityRank right.severity
  if bySeverity ≠ 0 then bySeverity
  else
    let byProbe := localeCompare left.probe right.probe
    if byProbe ≠ 0 then byProbe else localeCompare left.id right.id

/-- `Array.prototype.sort` with that comparator: stable. -/
def sortFindings (localeCompare : String → String → ℤ) (findings : List Finding) : List Finding :=
  findings.insertionSort fun left right => compareFindings localeCompare left right ≤ 0

section Rank
variable {severity : Severity} {finding : Finding} {findings : List Finding}

lemma severityRank_injective {left right : Severity} (h : severityRank left = severityRank right) :
    left = right := by
  cases left <;> cases right <;> revert h <;> decide

lemma severityRank_le_ok : severityRank severity ≤ severityRank .ok := by
  cases severity <;> decide

lemma severityRank_blocker_le : severityRank .blocker ≤ severityRank severity := by
  cases severity <;> decide

end Rank

section RollUp
variable {findings : List Finding} {severity : Severity}

/-- The worst severity so far: no worse than where it started unless it is one of those met, and
never better than any of them. -/
lemma foldl_rollUp (worst : Severity) :
    let result := findings.foldl (fun worst finding =>
      if severityRank finding.severity < severityRank worst then finding.severity else worst) worst
    (result = worst ∨ ∃ finding ∈ findings, finding.severity = result) ∧
      severityRank result ≤ severityRank worst ∧
      ∀ finding ∈ findings, severityRank result ≤ severityRank finding.severity := by
  induction findings generalizing worst with
  | nil => exact ⟨Or.inl rfl, Nat.le_refl _, by simp⟩
  | cons finding findings ih =>
    dsimp only
    rw [List.foldl_cons]
    split_ifs with hlt
    · obtain ⟨hmem, hle, hall⟩ := ih finding.severity
      refine ⟨Or.inr ?_, hle.trans hlt.le, List.forall_mem_cons.mpr ⟨hle, hall⟩⟩
      rcases hmem with he | ⟨found, hfound, he⟩
      · exact ⟨finding, List.mem_cons_self, he.symm⟩
      · exact ⟨found, List.mem_cons_of_mem _ hfound, he⟩
    · obtain ⟨hmem, hle, hall⟩ := ih worst
      refine ⟨hmem.imp id ?_, hle, List.forall_mem_cons.mpr ⟨by omega, hall⟩⟩
      rintro ⟨found, hfound, he⟩
      exact ⟨found, List.mem_cons_of_mem _ hfound, he⟩

/-- The roll-up is the severity whose rank is the least of all findings' and of `ok`. -/
theorem rollUp_eq_iff : rollUp findings = severity ↔
    (severity = .ok ∨ ∃ finding ∈ findings, finding.severity = severity) ∧
      ∀ finding ∈ findings, severityRank severity ≤ severityRank finding.severity := by
  obtain ⟨hmem, -, hall⟩ := @foldl_rollUp findings .ok
  constructor
  · rintro rfl
    exact ⟨hmem, hall⟩
  · rintro ⟨hsome, hleast⟩
    refine severityRank_injective (Nat.le_antisymm ?_ ?_)
    · rcases hsome with rfl | ⟨finding, hm, rfl⟩
      · exact severityRank_le_ok
      · exact hall finding hm
    · rcases hmem with he | ⟨finding, hm, he⟩
      · rw [show rollUp findings = .ok from he]
        exact severityRank_le_ok
      · rw [show rollUp findings = finding.severity from he.symm]
        exact hleast finding hm

/-- The roll-up does not depend on the order of the findings. -/
theorem rollUp_perm {findings' : List Finding} (h : findings.Perm findings') :
    rollUp findings = rollUp findings' := by
  rw [rollUp_eq_iff]
  obtain ⟨hsome, hleast⟩ := rollUp_eq_iff.mp (Eq.refl (rollUp findings'))
  refine ⟨hsome.imp id ?_, fun finding hm => hleast finding (h.subset hm)⟩
  rintro ⟨finding, hm, he⟩
  exact ⟨finding, h.symm.subset hm, he⟩

theorem rollUp_eq_blocker_iff :
    rollUp findings = .blocker ↔ ∃ finding ∈ findings, finding.severity = .blocker := by
  rw [rollUp_eq_iff]
  constructor
  · rintro ⟨h | h, -⟩
    · cases h
    · exact h
  · exact fun h => ⟨Or.inr h, fun _ _ => severityRank_blocker_le⟩

theorem rollUp_eq_ok_iff :
    rollUp findings = .ok ↔ ∀ finding ∈ findings, finding.severity = .ok := by
  rw [rollUp_eq_iff]
  constructor
  · rintro ⟨-, hleast⟩ finding hm
    exact severityRank_injective (Nat.le_antisymm severityRank_le_ok (hleast finding hm))
  · exact fun h => ⟨Or.inl rfl, fun finding hm => by rw [h finding hm]⟩

end RollUp

section Counts
variable {findings : List Finding}

/-- How many of the findings have this severity. -/
def countOf (severity : Severity) (findings : List Finding) : ℕ :=
  findings.countP fun finding => finding.severity = severity

lemma foldl_increment (counts : SeverityCounts) :
    findings.foldl (fun counts finding => counts.increment finding.severity) counts =
      { blocker := counts.blocker + countOf .blocker findings
        degraded := counts.degraded + countOf .degraded findings
        unknown := counts.unknown + countOf .unknown findings
        ok := counts.ok + countOf .ok findings } := by
  induction findings generalizing counts with
  | nil => rfl
  | cons finding findings ih =>
    rw [List.foldl_cons, ih]
    cases h : finding.severity <;> simp [SeverityCounts.increment, countOf, h] <;> omega

/-- The summary counts each severity. -/
theorem summarise_eq : summarise findings =
    { total := findings.length
      blocker := countOf .blocker findings
      degraded := countOf .degraded findings
      unknown := countOf .unknown findings
      ok := countOf .ok findings
      severity := rollUp findings } := by
  unfold summarise countSeverities
  simp [foldl_increment]

/-- The summary does not depend on the order of the findings. -/
theorem summarise_perm {findings' : List Finding} (h : findings.Perm findings') :
    summarise findings = summarise findings' := by
  simp only [summarise_eq, countOf, h.length_eq, h.countP_eq, rollUp_perm h]

end Counts

section Sorted
variable (localeCompare : String → String → ℤ) (findings : List Finding)

theorem sortFindings_perm : (sortFindings localeCompare findings).Perm findings :=
  List.perm_insertionSort _ _

/-- The findings come worst first, whatever `localeCompare` makes of their texts. -/
theorem sortFindings_sorted : (sortFindings localeCompare findings).Pairwise fun left right =>
    severityRank left.severity ≤ severityRank right.severity := by
  refine SortByKey.pairwise_insertionSort (fun left right h => ?_) (fun left right h => ?_)
  · unfold compareFindings at h
    dsimp only at h
    split_ifs at h <;> omega
  · unfold compareFindings at h
    dsimp only at h
    split_ifs at h <;> omega

end Sorted
end Portcall
