import Mathlib.Algebra.Ring.Nat
import Mathlib.Data.List.Sort

/-! The finding model: what a probe may say, and how severely it may say it. -/
namespace Portcall

/-- The four severities a finding can carry. -/
inductive Severity where
  | blocker
  | degraded
  | ok
  | unknown
  deriving DecidableEq, Repr

/-- What kind of value a piece of evidence holds. -/
inductive EvidenceKind where
  | hostname
  | ip
  | username
  | serial
  | path
  | url
  | dn
  | «public»
  | text
  | number
  deriving DecidableEq, Repr

structure Evidence where
  label : String
  value : String
  kind : EvidenceKind
  deriving DecidableEq, Repr

structure Finding where
  id : String
  probe : String
  severity : Severity
  title : String
  evidence : List Evidence
  remediation : Option String := none
  docs : Option String := none
  deriving DecidableEq, Repr

/-- Cap a severity by whether the endpoint is required by the profile; `unknown` is never capped. -/
def cap (severity : Severity) (required : Bool) : Severity :=
  if required then severity
  else match severity with
    | .blocker => .degraded
    | .degraded => .degraded
    | .ok => .ok
    | .unknown => .unknown

@[simp] lemma cap_unknown (required : Bool) : cap .unknown required = .unknown := by
  cases required <;> rfl

/-- Capping softens a verdict and never turns it into "could not tell". -/
@[simp] lemma cap_eq_unknown (severity : Severity) (required : Bool) :
    cap severity required = .unknown ↔ severity = .unknown := by
  cases severity <;> cases required <;> simp [cap]

/-- The values listed under one label, in order. -/
def valuesOf (label : String) (evidence : List Evidence) : List String :=
  (evidence.filter (fun item => item.label = label)).map Evidence.value

def Finding.values (finding : Finding) (label : String) : List String :=
  valuesOf label finding.evidence

section ValuesOf
variable (label : String)

@[simp] lemma valuesOf_nil : valuesOf label [] = [] := rfl

@[simp] lemma valuesOf_cons (item : Evidence) (rest : List Evidence) :
    valuesOf label (item :: rest) =
      if item.label = label then item.value :: valuesOf label rest else valuesOf label rest := by
  by_cases h : item.label = label <;> simp [valuesOf, h]

@[simp] lemma valuesOf_append (left right : List Evidence) :
    valuesOf label (left ++ right) = valuesOf label left ++ valuesOf label right := by
  simp [valuesOf]

lemma valuesOf_flatMap {α : Type*} (evidence : α → List Evidence) (items : List α) :
    valuesOf label (items.flatMap evidence) = items.flatMap fun a => valuesOf label (evidence a) := by
  induction items with
  | nil => rfl
  | cons a items ih => rw [List.flatMap_cons, List.flatMap_cons, valuesOf_append, ih]

/-- A run of evidence under one label is all listed or not at all. -/
lemma valuesOf_map {α : Type*} (label' : String) (value : α → String) (kind : EvidenceKind)
    (items : List α) :
    valuesOf label (items.map fun a => ⟨label', value a, kind⟩) =
      if label' = label then items.map value else [] := by
  induction items with
  | nil => simp
  | cons a items ih =>
    rw [List.map_cons, valuesOf_cons, ih]
    split_ifs <;> rfl

/-- So is a piece of evidence that may be left out. -/
lemma valuesOf_map_toList (label' : String) (kind : EvidenceKind) (value : Option String) :
    valuesOf label (value.map fun value => Evidence.mk label' value kind).toList =
      if label' = label then value.toList else [] := by
  cases value with
  | none => simp
  | some value => simp

end ValuesOf

/-- The findings under one of these ids, in order. -/
def withIds (ids : List String) (findings : List Finding) : List Finding :=
  findings.filter fun finding => finding.id ∈ ids

section WithIds
variable {ids : List String} {findings : List Finding}

@[simp] lemma withIds_nil : withIds ids [] = [] := rfl

@[simp] lemma withIds_append (left right : List Finding) :
    withIds ids (left ++ right) = withIds ids left ++ withIds ids right := List.filter_append ..

lemma withIds_eq_self (h : ∀ finding ∈ findings, finding.id ∈ ids) :
    withIds ids findings = findings := List.filter_eq_self.mpr fun finding hm => by simp [h finding hm]

lemma withIds_eq_nil (h : ∀ finding ∈ findings, finding.id ∉ ids) : withIds ids findings = [] :=
  List.filter_eq_nil_iff.mpr fun finding hm => by simp [h finding hm]

end WithIds
end Portcall
