import Portcall.Report.Types

/-! Redaction: the one boundary between a report and its renderers. Evidence is hashed by its
declared kind, and everything else is copied. -/
namespace Portcall
variable (rx : ReportExternals)

/-- The kinds that may identify the customer, their staff or their network. -/
def isSensitive : EvidenceKind → Bool
  | .hostname | .ip | .username | .serial | .path | .url | .dn => true
  | .public | .text | .number => false

def kindTag : EvidenceKind → String
  | .hostname => "host"
  | .ip => "ip"
  | .username => "user"
  | .serial => "serial"
  | .path => "path"
  | .url => "url"
  | .dn => "dn"
  | .public => "public"
  | .text => "text"
  | .number => "number"

structure RedactionOptions where
  enabled : Bool
  /-- Values the vendor already knows. -/
  publicValues : List String
  salt : String
  deriving DecidableEq, Repr

def token (kind : EvidenceKind) (value salt : String) : String :=
  "<" ++ kindTag kind ++ ":" ++ rx.digest salt value ++ ">"

/-- `value.trim().toLowerCase()` -/
def normaliseValue (value : String) : String := rx.toLowerCase (Text.trim value)

def normalisePublic (values : List String) : List String := values.map (normaliseValue rx)

def redactEvidence (salt : String) (publicValues : List String) (evidence : Evidence) : Evidence :=
  if !isSensitive evidence.kind then evidence
  else if publicValues.contains (normaliseValue rx evidence.value) then evidence
  else { evidence with value := token rx evidence.kind evidence.value salt }

def redactFinding (salt : String) (publicValues : List String) (finding : Finding) : Finding :=
  { finding with evidence := finding.evidence.map (redactEvidence rx salt publicValues) }

def redactReport (report : Report) (options : RedactionOptions) : Report :=
  let publicValues := normalisePublic rx options.publicValues
  { report with
    redacted := options.enabled
    findings :=
      if options.enabled then report.findings.map (redactFinding rx options.salt publicValues)
      else report.findings }

/-- A report that has passed the boundary, which is the only way to come by one. -/
structure RedactedReport where
  report : Report
  passed : ∃ original options, report = redactReport rx original options

def redact (report : Report) (options : RedactionOptions) : RedactedReport rx where
  report := redactReport rx report options
  passed := ⟨report, options, rfl⟩

/-- Lists related by what a function cannot tell apart have one image under it. -/
lemma map_eq_map_of_forall₂ {α β : Type*} {R : α → α → Prop} {f : α → β} {left right : List α}
    (h : List.Forall₂ R left right) (hf : ∀ a b, R a b → f a = f b) :
    left.map f = right.map f := by
  induction h with
  | nil => rfl
  | cons hhead _ ih => rw [List.map_cons, List.map_cons, hf _ _ hhead, ih]

section Alike
variable {rx}

/-- Two pieces of evidence that may differ where only a token of them is reported. -/
def AlikeEvidence (rx : ReportExternals) (options : RedactionOptions) (left right : Evidence) :
    Prop :=
  left.label = right.label ∧ left.kind = right.kind ∧
    (left.value = right.value ∨
      isSensitive left.kind = true ∧
        normaliseValue rx left.value ∉ normalisePublic rx options.publicValues ∧
        normaliseValue rx right.value ∉ normalisePublic rx options.publicValues ∧
        token rx left.kind left.value options.salt = token rx right.kind right.value options.salt)

/-- Two findings alike in all but their evidence, and alike in that up to tokens. -/
structure AlikeFinding (rx : ReportExternals) (options : RedactionOptions) (left right : Finding) :
    Prop where
  id : left.id = right.id
  probe : left.probe = right.probe
  severity : left.severity = right.severity
  title : left.title = right.title
  remediation : left.remediation = right.remediation
  docs : left.docs = right.docs
  evidence : List.Forall₂ (AlikeEvidence rx options) left.evidence right.evidence

variable {options : RedactionOptions}

lemma AlikeEvidence.redact_eq {left right : Evidence} (h : AlikeEvidence rx options left right) :
    redactEvidence rx options.salt (normalisePublic rx options.publicValues) left =
      redactEvidence rx options.salt (normalisePublic rx options.publicValues) right := by
  obtain ⟨leftLabel, leftValue, kind⟩ := left
  obtain ⟨rightLabel, rightValue, rightKind⟩ := right
  obtain ⟨hlabel, hkind, hvalue⟩ := h
  dsimp only at hlabel hkind hvalue
  subst hlabel hkind
  rcases hvalue with rfl | ⟨hsensitive, hleft, hright, htoken⟩
  · rfl
  · simp [redactEvidence, hsensitive, hleft, hright, htoken]

/-- Alike findings are the same finding once redacted. -/
theorem AlikeFinding.redact_eq {left right : Finding} (h : AlikeFinding rx options left right) :
    redactFinding rx options.salt (normalisePublic rx options.publicValues) left =
      redactFinding rx options.salt (normalisePublic rx options.publicValues) right := by
  have hevidence := map_eq_map_of_forall₂ h.evidence fun _ _ h => h.redact_eq
  unfold redactFinding
  rw [hevidence, h.id, h.probe, h.severity, h.title, h.remediation, h.docs]

end Alike
end Portcall
