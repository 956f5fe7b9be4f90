import Portcall.Net.Codes
import Portcall.Seams

/-! The finding the engine makes of a probe that throws. -/
namespace Portcall

inductive ProbeErrorClass where
  | networkPolicy
  | aborted
  | unclassified
  deriving DecidableEq, Repr

def ProbeErrorClass.text : ProbeErrorClass → String
  | .networkPolicy => "network-policy"
  | .aborted => "aborted"
  | .unclassified => "unclassified"

def classifyProbeError (error : ThrownValue) : Throwing ProbeErrorClass := do
  let policyError ← error.isPolicyError
  if policyError then return .networkPolicy
  let isError ← error.isError
  if !isError then return .unclassified
  let name ← error.name
  if name = "AbortError" then return .aborted
  let name ← error.nameAgain
  return if name = "TimeoutError" then .aborted else .unclassified

def remediationFor (probeName : String) : ProbeErrorClass → String
  | .networkPolicy =>
    "The " ++ probeName ++ " probe tried to contact a host the active profile does not name, " ++
    "and portcall refused. Add that host to the profile if it belongs there, or send this " ++
    "report to the tool vendor - a probe reaching outside the profile is a bug. " ++
    "Other probes in this run are unaffected."
  | .aborted =>
    "The " ++ probeName ++ " probe ran out of time. Re-run with --timeout raised. " ++
    "Other probes in this run are unaffected; only " ++ probeName ++ " results are missing."
  | .unclassified =>
    "Re-run with --timeout raised, and send this report to the tool vendor. " ++
    "Other probes in this run are unaffected; only " ++ probeName ++ " results are missing."

/-- The host a policy denial refused. -/
def deniedHost (error : ThrownValue) : Throwing (List Evidence) := do
  let policyError ← error.isPolicyErrorAgain
  if !policyError then return []
  let host ← error.host
  return [⟨"host", host, .hostname⟩]

def probeErrorFinding (probeName : String) (error : ThrownValue) : Throwing Finding := do
  let errorClass ← classifyProbeError error
  let code ← error.extractCode
  let denied ← deniedHost error
  return {
    id := probeName ++ ".probe-error"
    probe := probeName
    severity := .unknown
    title := "The " ++ probeName ++ " probe could not complete"
    evidence :=
      [⟨"error class", errorClass.text, .text⟩, ⟨"code", code.getD noCode, .text⟩] ++ denied
    remediation := some (remediationFor probeName errorClass) }

section Readable

/-- What was read holds no machine code. -/
def NoMachineCode (read : Throwing (Option String)) : Prop :=
  ∀ code, read = some (some code) → isMachineCode code = false

/-- A value that throws at none of the questions it is asked for its class, its code and its host. -/
structure ThrownValue.Readable (error : ThrownValue) : Prop where
  policyError : error.isPolicyError ≠ none
  isError : error.isPolicyError = some false → error.isError ≠ none
  name : error.isPolicyError = some false → error.isError = some true → error.name ≠ none
  nameAgain : error.isPolicyError = some false → error.isError = some true →
    error.name ≠ some "AbortError" → error.nameAgain ≠ none
  code : error.code ≠ none
  cause : NoMachineCode error.code → error.causeCode ≠ none
  aggregate : NoMachineCode error.code → NoMachineCode error.causeCode →
    error.isAggregateError ≠ none
  /-- The iteration throws, if it does, only behind an item with a machine code. -/
  errors : NoMachineCode error.code → NoMachineCode error.causeCode →
    error.isAggregateError = some true → ∀ before after, error.errors = before ++ none :: after →
      ∃ item ∈ before, ¬NoMachineCode item
  policyErrorAgain : error.isPolicyErrorAgain ≠ none
  host : error.isPolicyErrorAgain = some true → error.host ≠ none

variable {error : ThrownValue} {probeName : String}

lemma noMachineCode_some_iff {code : Option String} :
    NoMachineCode (some code) ↔ codeOf code = none := by
  cases code with
  | none => simp [NoMachineCode, codeOf]
  | some code => simp [NoMachineCode, codeOf]

lemma firstCode_isSome_iff {items : List (Throwing (Option String))} :
    (firstCode items).isSome ↔ ∀ before after, items = before ++ none :: after →
      ∃ item ∈ before, ¬NoMachineCode item := by
  induction items with
  | nil => simp [firstCode]
  | cons item rest ih =>
    cases item with
    | none =>
      refine iff_of_false (by simp [firstCode]) fun h => ?_
      obtain ⟨item, hm, -⟩ := h [] rest rfl
      exact absurd hm List.not_mem_nil
    | some code =>
      rw [firstCode_some]
      cases hcode : codeOf code with
      | some found =>
        refine iff_of_true (by simp) fun before after hsplit => ?_
        cases before with
        | nil => cases hsplit
        | cons first before =>
          obtain ⟨rfl, -⟩ := List.cons.inj hsplit
          exact ⟨_, List.mem_cons_self, by rw [noMachineCode_some_iff, hcode]; simp⟩
      | none =>
        have hnone : NoMachineCode (some code) := noMachineCode_some_iff.mpr hcode
        rw [Option.isSome_none, if_neg Bool.false_ne_true, ih]
        constructor
        · intro h before after hsplit
          cases before with
          | nil => cases hsplit
          | cons first before =>
            obtain ⟨item, hm, hitem⟩ := h before after (List.cons.inj hsplit).2
            exact ⟨item, List.mem_cons_of_mem _ hm, hitem⟩
        · intro h before after hsplit
          obtain ⟨item, hm, hitem⟩ := h (some code :: before) after (by rw [hsplit]; rfl)
          rcases List.mem_cons.mp hm with rfl | hm
          · exact absurd hnone hitem
          · exact ⟨item, hm, hitem⟩

lemma classifyProbeError_isSome_iff : (classifyProbeError error).isSome ↔
    error.isPolicyError ≠ none ∧
      (error.isPolicyError = some false → error.isError ≠ none ∧
        (error.isError = some true → error.name ≠ none ∧
          (error.name ≠ some "AbortError" → error.nameAgain ≠ none))) := by
  unfold classifyProbeError
  cases error.isPolicyError with
  | none => simp
  | some policyError =>
    cases policyError with
    | true => simp
    | false =>
      cases error.isError with
      | none => simp
      | some isError =>
        cases isError with
        | false => simp
        | true =>
          cases error.name with
          | none => simp
          | some name =>
            by_cases hname : name = "AbortError"
            · simp [hname]
            · cases error.nameAgain <;> simp [hname]

lemma extractCode_isSome_iff : error.extractCode.isSome ↔
    error.code ≠ none ∧ (NoMachineCode error.code → error.causeCode ≠ none ∧
      (NoMachineCode error.causeCode → error.isAggregateError ≠ none ∧
        (error.isAggregateError = some true → (firstCode error.errors).isSome))) := by
  unfold ThrownValue.extractCode
  cases error.code with
  | none => simp
  | some direct =>
    rw [noMachineCode_some_iff]
    cases hdirect : codeOf direct with
    | some found => simp [hdirect]
    | none =>
      cases error.causeCode with
      | none => simp [hdirect]
      | some fromCause =>
        rw [noMachineCode_some_iff]
        cases hcause : codeOf fromCause with
        | some found => simp [hdirect, hcause]
        | none =>
          cases error.isAggregateError with
          | none => simp [hdirect, hcause]
          | some aggregate => cases aggregate <;> simp [hdirect, hcause]

lemma deniedHost_isSome_iff : (deniedHost error).isSome ↔
    error.isPolicyErrorAgain ≠ none ∧ (error.isPolicyErrorAgain = some true → error.host ≠ none) := by
  unfold deniedHost
  cases error.isPolicyErrorAgain with
  | none => simp
  | some policyError =>
    cases policyError with
    | false => simp
    | true => cases error.host <;> simp

lemma readable_iff : error.Readable ↔
    (classifyProbeError error).isSome ∧ error.extractCode.isSome ∧ (deniedHost error).isSome := by
  rw [classifyProbeError_isSome_iff, extractCode_isSome_iff, deniedHost_isSome_iff,
    firstCode_isSome_iff]
  constructor
  · intro h
    exact ⟨⟨h.policyError, fun hp => ⟨h.isError hp, fun he => ⟨h.name hp he, h.nameAgain hp he⟩⟩⟩,
      ⟨h.code, fun hc => ⟨h.cause hc, fun hc' => ⟨h.aggregate hc hc', h.errors hc hc'⟩⟩⟩,
      h.policyErrorAgain, h.host⟩
  · rintro ⟨⟨hpolicy, hclass⟩, ⟨hcode, hcause⟩, hagain, hhost⟩
    exact {
      policyError := hpolicy
      isError := fun h => (hclass h).1
      name := fun h herror => ((hclass h).2 herror).1
      nameAgain := fun h herror => ((hclass h).2 herror).2
      code := hcode
      cause := fun h => (hcause h).1
      aggregate := fun h h' => ((hcause h).2 h').1
      errors := fun h h' => ((hcause h).2 h').2
      policyErrorAgain := hagain
      host := hhost }

/-- A finding is made of exactly the values that can be read. -/
theorem probeErrorFinding_isSome_iff :
    (probeErrorFinding probeName error).isSome ↔ error.Readable := by
  rw [readable_iff, probeErrorFinding]
  cases classifyProbeError error <;> cases error.extractCode <;> cases deniedHost error <;> simp

lemma probeErrorFinding_spec {finding : Finding}
    (h : probeErrorFinding probeName error = some finding) :
    finding.id = probeName ++ ".probe-error" ∧ finding.severity = .unknown := by
  unfold probeErrorFinding at h
  obtain ⟨errorClass, -, h⟩ := Option.bind_eq_some_iff.mp h
  obtain ⟨code, -, h⟩ := Option.bind_eq_some_iff.mp h
  obtain ⟨denied, -, h⟩ := Option.bind_eq_some_iff.mp h
  cases h
  exact ⟨rfl, rfl⟩

/-- Plain data can be read. -/
lemma Thrown.readable (thrown : Thrown) : thrown.value.Readable := by
  refine readable_iff.mpr ⟨?_, by rw [extractCode_value]; rfl, ?_⟩
  · simp [classifyProbeError_isSome_iff, Thrown.value]
  · simp [deniedHost_isSome_iff, Thrown.value]

end Readable
end Portcall
