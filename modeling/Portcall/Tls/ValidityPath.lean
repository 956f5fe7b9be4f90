import Mathlib
import Portcall.Library.OptionMap
import Portcall.Tls.Handoff
import Portcall.Tls.Padding

/-! The verdicts on dates. They are read off every certificate presented, and so agree with the
ones the issuance path deserves exactly where the padding has no date of its own to add. -/
namespace Portcall.Tls

/-- The capture without the certificates at the dropped positions. -/
def CapturedChain.without (drop : ℕ → Bool) (capture : CapturedChain) : CapturedChain :=
  { capture with
    chainDer := ((List.range capture.chainDer.length).filter (fun i => !drop i)).filterMap
      (capture.chainDer[·]?) }

def validityIds : List String :=
  ["tls.chain-not-yet-valid", "tls.chain-expired", "tls.chain-expiring-soon"]

/-- Which of the verdicts on dates are among the findings, and how severe. -/
def validityVerdicts (findings : List Finding) : List (String × Severity) :=
  (findings.filter (fun finding => finding.id ∈ validityIds)).map fun finding =>
    (finding.id, finding.severity)

section Dates
variable (now : ℤ) (certificate : X509Certificate)

def NotYetValid : Prop := now < certificate.notBefore
def Expired : Prop := certificate.notAfter ≤ now

/-- Within the warning window, or past it. -/
def Expiring : Prop := daysUntil certificate.notAfter now ≤ expiryWarningDays

instance : Decidable (NotYetValid now certificate) := inferInstanceAs (Decidable (_ < _))
instance : Decidable (Expired now certificate) := inferInstanceAs (Decidable (_ ≤ _))
instance : Decidable (Expiring now certificate) := inferInstanceAs (Decidable (_ ≤ _))

/-- What a set of certificates deserves to be told about its dates. -/
def dateVerdicts (required : Bool) (certificates : List X509Certificate) :
    List (String × Severity) :=
  (if ∃ certificate ∈ certificates, NotYetValid now certificate then
    [("tls.chain-not-yet-valid", cap .blocker required)] else []) ++
  if ∃ certificate ∈ certificates, Expired now certificate then
    [("tls.chain-expired", cap .blocker required)]
  else if ∃ certificate ∈ certificates, Expiring now certificate then
    [("tls.chain-expiring-soon", .degraded)]
  else []

end Dates

section Presented
variable (ext : Externals) (chainDer : List (List UInt8))

/-- The certificates that parse. -/
def parsed : List X509Certificate := chainDer.filterMap ext.x509Der

/-- Where they stand among those presented. -/
def parsedAt : List ℕ :=
  (List.range chainDer.length).filter fun i => (parseOne ext chainDer[i]?).isSome

/-- Where the certificates on the leaf's issuance path stand. What does not parse has no names:
nothing leads to it, and as a leaf it leads nowhere. -/
def leafPath : List ℕ :=
  match parseOne ext chainDer.head? with
  | none => [0]
  | some _ => (issuancePath ext (parsed ext chainDer)).filterMap ((parsedAt ext chainDer)[·]?)

/-- A certificate on the leaf's issuance path. -/
def OnLeafPath (certificate : X509Certificate) : Prop :=
  ∃ i ∈ leafPath ext chainDer, parseOne ext chainDer[i]? = some certificate

/-- If the leaf parses: a date that some presented certificate has is had by one on the path, and
where something presented does not parse no certificate has any. -/
def PaddingAddsNoDate (now : ℤ) : Prop :=
  (parseOne ext chainDer.head?).isSome → ∀ P ∈ [NotYetValid now, Expired now, Expiring now],
    (∃ certificate ∈ parsed ext chainDer, P certificate) →
      (∀ der ∈ chainDer, (ext.x509Der der).isSome) ∧
        ∃ certificate, OnLeafPath ext chainDer certificate ∧ P certificate

end Presented

/-- The verdicts on dates describe the chain and not its padding: they outlast every deletion of
certificates off the path, and an expired certificate off it is no blocker. -/
structure DatesOfPath (ext : Externals) (capture : CapturedChain) (target : ChainTarget)
    (policy : TlsPolicy) (options : ChainEvaluationOptions) : Prop where
  deleted : ∀ drop : ℕ → Bool, (∀ i ∈ leafPath ext capture.chainDer, drop i = false) →
    (evaluateChain ext (capture.without drop) target policy options).map
        (fun evaluation => validityVerdicts evaluation.findings) =
      (evaluateChain ext capture target policy options).map
        (fun evaluation => validityVerdicts evaluation.findings)
  padding : (∀ certificate, OnLeafPath ext capture.chainDer certificate →
      ¬Expired options.now certificate) →
    ∀ evaluation, evaluateChain ext capture target policy options = some evaluation →
      ∀ finding ∈ evaluation.findings, finding.id = "tls.chain-expired" →
        finding.severity ≠ .blocker

section Choice
variable {chain : List X509Certificate} {now : ℤ}

/-- A certificate with its position, as the choices keep it. -/
private def windowAt (entry : X509Certificate × ℕ) : ValidityWindow := ⟨entry.1, entry.2⟩

lemma earliestExpiring_eq_argmin :
    earliestExpiring chain =
      (chain.zipIdx.argmin (fun entry => entry.1.notAfter)).map windowAt := by
  rw [earliestExpiring, List.argmin, ← Option.map_none windowAt]
  refine List.foldl_hom (Option.map windowAt) ?_
  intro earliest entry
  cases earliest with
  | none => rfl
  | some window =>
    simp only [List.argAux, Option.map_some, windowAt]
    split_ifs <;> rfl

lemma notYetValid_eq_argmax :
    notYetValid chain now =
      ((chain.zipIdx.filter (fun entry => NotYetValid now entry.1)).argmax
        (fun entry => entry.1.notBefore)).map windowAt := by
  rw [notYetValid, List.argmax, List.foldl_filter, ← Option.map_none windowAt]
  refine List.foldl_hom (Option.map windowAt) ?_
  intro latest entry
  by_cases hvalid : entry.1.notBefore ≤ now
  · simp [NotYetValid, hvalid, not_lt.mpr hvalid]
  · have hlater : now < entry.1.notBefore := not_le.mp hvalid
    cases latest with
    | none => simp [NotYetValid, hlater, hvalid, List.argAux, windowAt]
    | some window =>
      simp only [NotYetValid, hvalid, hlater, List.argAux, decide_true, if_true, Option.map_some,
        if_false, windowAt]
      split_ifs <;> rfl

lemma mem_zipIdx_fst {certificate : X509Certificate} :
    (∃ entry ∈ chain.zipIdx, entry.1 = certificate) ↔ certificate ∈ chain := by
  have h : certificate ∈ chain.zipIdx.map Prod.fst ↔ certificate ∈ chain := by
    rw [List.zipIdx_map_fst]
  rw [← h, List.mem_map]

/-- A certificate not valid yet is chosen exactly where there is one. -/
lemma notYetValid_isSome_iff :
    (notYetValid chain now).isSome ↔ ∃ certificate ∈ chain, NotYetValid now certificate := by
  rw [notYetValid_eq_argmax, Option.isSome_map, ← Option.ne_none_iff_isSome, Ne,
    List.argmax_eq_none, List.filter_eq_nil_iff, not_forall]
  simp only [not_forall, not_not, decide_eq_true_eq, exists_prop]
  constructor
  · rintro ⟨entry, hm, hlater⟩
    exact ⟨entry.1, mem_zipIdx_fst.mp ⟨entry, hm, rfl⟩, hlater⟩
  · rintro ⟨certificate, hm, hlater⟩
    obtain ⟨entry, hentry, rfl⟩ := mem_zipIdx_fst.mpr hm
    exact ⟨entry, hentry, hlater⟩

/-- What is chosen by expiry is a certificate of the chain, and none expires before it. -/
lemma earliestExpiring_spec (hne : chain ≠ []) :
    ∃ window, earliestExpiring chain = some window ∧ window.certificate ∈ chain ∧
      ∀ certificate ∈ chain, window.certificate.notAfter ≤ certificate.notAfter := by
  have hne' : chain.zipIdx.argmin (fun entry => entry.1.notAfter) ≠ none := by
    rw [Ne, List.argmin_eq_none, List.zipIdx_eq_nil_iff]
    exact hne
  obtain ⟨entry, hentry⟩ := Option.ne_none_iff_exists'.mp hne'
  refine ⟨windowAt entry, by rw [earliestExpiring_eq_argmin, hentry]; rfl, ?_, ?_⟩
  · exact mem_zipIdx_fst.mp ⟨entry, List.argmin_mem hentry, rfl⟩
  · intro certificate hm
    obtain ⟨other, hother, rfl⟩ := mem_zipIdx_fst.mpr hm
    exact List.le_of_mem_argmin (f := fun entry => entry.1.notAfter) hother hentry

lemma daysUntil_mono {deadline deadline' : ℤ} (h : deadline ≤ deadline') :
    daysUntil deadline now ≤ daysUntil deadline' now :=
  Int.ediv_le_ediv (by decide) (by omega)

/-- An expired certificate is past the warning window. -/
lemma Expired.expiring {certificate : X509Certificate} (h : Expired now certificate) :
    Expiring now certificate := by
  have hzero : daysUntil now now ≤ expiryWarningDays := by simp [daysUntil, expiryWarningDays]
  exact (daysUntil_mono h).trans hzero

end Choice

section Verdicts
variable {ext : Externals} {capture : CapturedChain} {target : ChainTarget} {policy : TlsPolicy}
  {options : ChainEvaluationOptions} {chain : List X509Certificate} {now : ℤ}

lemma validityVerdicts_append (left right : List Finding) :
    validityVerdicts (left ++ right) = validityVerdicts left ++ validityVerdicts right := by
  simp [validityVerdicts]

lemma validityVerdicts_eq_nil {findings : List Finding}
    (h : ∀ finding ∈ findings, finding.id ∉ validityIds) : validityVerdicts findings = [] := by
  simpa [validityVerdicts] using h

lemma validityVerdicts_singleton {finding : Finding} (h : finding.id ∈ validityIds) :
    validityVerdicts [finding] = [(finding.id, finding.severity)] := by
  rw [validityVerdicts, List.filter_cons_of_pos (by simpa using h)]
  rfl

/-- The findings on dates say what all the certificates together deserve. -/
theorem validityVerdicts_validityFindings (hne : chain ≠ []) :
    validityVerdicts (validityFindings target capture chain now) =
      dateVerdicts now target.required chain := by
  obtain ⟨window, hwindow, hm, hfirst⟩ := earliestExpiring_spec hne
  have hexpired : (∃ certificate ∈ chain, Expired now certificate) ↔
      Expired now window.certificate :=
    ⟨fun ⟨_, hc, h⟩ => (hfirst _ hc).trans h, fun h => ⟨_, hm, h⟩⟩
  have hexpiring : (∃ certificate ∈ chain, Expiring now certificate) ↔
      Expiring now window.certificate :=
    ⟨fun ⟨_, hc, h⟩ => (daysUntil_mono (hfirst _ hc)).trans h, fun h => ⟨_, hm, h⟩⟩
  rw [validityFindings, validityVerdicts_append, dateVerdicts]
  simp only [hexpired, hexpiring, ← notYetValid_isSome_iff]
  congr 1
  · cases notYetValid chain now with
    | none => rfl
    | some early =>
      have hid : (chainNotYetValid target capture early now).id ∈ validityIds := by
        change "tls.chain-not-yet-valid" ∈ validityIds
        decide
      exact validityVerdicts_singleton hid
  · rw [hwindow, Option.bind_some]
    by_cases hpast : Expired now window.certificate
    · have hpast' : window.certificate.notAfter ≤ now := hpast
      have hid : (chainExpired target capture window
          (daysUntil window.certificate.notAfter now)).id ∈ validityIds := by
        change "tls.chain-expired" ∈ validityIds
        decide
      rw [if_pos hpast', if_pos hpast]
      exact validityVerdicts_singleton hid
    · have hpast' : ¬window.certificate.notAfter ≤ now := hpast
      rw [if_neg hpast', if_neg hpast]
      by_cases hsoon : Expiring now window.certificate
      · have hsoon' : daysUntil window.certificate.notAfter now ≤ expiryWarningDays := hsoon
        have hid : (chainExpiringSoon target capture window
            (daysUntil window.certificate.notAfter now)).id ∈ validityIds := by
          change "tls.chain-expiring-soon" ∈ validityIds
          decide
        rw [if_pos hsoon', if_pos hsoon]
        exact validityVerdicts_singleton hid
      · have hsoon' : ¬daysUntil window.certificate.notAfter now ≤ expiryWarningDays := hsoon
        rw [if_neg hsoon', if_neg hsoon]
        rfl

lemma id_not_mem_of_root {verdict : RootVerdict} {roots : CertificateIndex} {findings : List Finding}
    (h : rootFindings target capture chain verdict policy roots = some findings) :
    ∀ finding ∈ findings, finding.id ∉ validityIds := by
  intro finding hm
  unfold rootFindings at h
  split at h
  · cases h
    obtain ⟨matched, -, rfl⟩ := Option.map_eq_some_iff.mp (Option.mem_toList.mp hm)
    change "tls.public-root" ∉ validityIds
    decide
  · obtain ⟨found, hfound, rfl⟩ := Option.map_eq_some_iff.mp h
    obtain ⟨top, -, rfl⟩ := Option.map_eq_some_iff.mp hfound
    rw [List.mem_singleton.mp hm]
    change "tls.private-root" ∉ validityIds
    decide
  · obtain ⟨found, hfound, rfl⟩ := Option.map_eq_some_iff.mp h
    obtain ⟨top, -, rfl⟩ := Option.map_eq_some_iff.mp hfound
    rw [List.mem_singleton.mp hm]
    change "tls.root-indeterminate" ∉ validityIds
    decide

lemma id_not_mem_of_protocol :
    ∀ finding ∈ protocolFindings target capture policy, finding.id ∉ validityIds := by
  intro finding hm
  unfold protocolFindings at hm
  split at hm
  · rw [List.mem_singleton.mp hm]
    change "tls.protocol-unknown" ∉ validityIds
    decide
  · split_ifs at hm
    · rw [List.mem_singleton.mp hm]
      change "tls.protocol" ∉ validityIds
      decide
    · rw [List.mem_singleton.mp hm]
      change "tls.protocol-below-minimum" ∉ validityIds
      decide

lemma id_not_mem_of_name {leaf : X509Certificate} :
    ∀ finding ∈ nameFindings target capture ext leaf, finding.id ∉ validityIds := by
  intro finding hm
  unfold nameFindings at hm
  split_ifs at hm
  · cases hm
  · split at hm
    · rw [List.mem_singleton.mp hm]
      change "tls.leaf-no-san" ∉ validityIds
      decide
    · split_ifs at hm
      · cases hm
      · rw [List.mem_singleton.mp hm]
        change "tls.sni-mismatch" ∉ validityIds
        decide

/-- A chain that parses is told what all its certificates together deserve. -/
theorem validityVerdicts_evaluateChain (hparse : parseChain ext capture.chainDer = some chain) :
    (evaluateChain ext capture target policy options).map
        (fun evaluation => validityVerdicts evaluation.findings) =
      some (dateVerdicts options.now target.required chain) := by
  cases chain with
  | nil =>
    have hder : capture.chainDer = [] :=
      List.forall₂_nil_right_iff.mp (OptionMap.mapM_eq_some_iff.mp hparse)
    unfold evaluateChain
    rw [hder]
    rfl
  | cons leaf rest =>
    have hne : leaf :: rest ≠ [] := List.cons_ne_nil _ _
    obtain ⟨evaluation, he⟩ := Option.isSome_iff_exists.mp
      (@evaluateChain_isSome ext capture target policy options)
    have hder : ¬capture.chainDer.isEmpty = true := by
      rw [List.isEmpty_iff]
      intro hnil
      rw [hnil] at hparse
      cases hparse
    rw [he, Option.map_some, ← @validityVerdicts_validityFindings capture target _ _ hne]
    unfold evaluateChain at he
    rw [if_neg hder, hparse] at he
    obtain ⟨verdict, -, he⟩ := Option.bind_eq_some_iff.mp he
    obtain ⟨root, hroot, he⟩ := Option.bind_eq_some_iff.mp he
    cases he
    rw [validityVerdicts_append, validityVerdicts_append, validityVerdicts_append,
      validityVerdicts_eq_nil (id_not_mem_of_root hroot),
      validityVerdicts_eq_nil id_not_mem_of_protocol,
      validityVerdicts_eq_nil id_not_mem_of_name, List.nil_append, List.nil_append,
      List.append_nil]

lemma mem_validityVerdicts {findings : List Finding} {finding : Finding} (hm : finding ∈ findings)
    (hid : finding.id ∈ validityIds) :
    (finding.id, finding.severity) ∈ validityVerdicts findings :=
  List.mem_map.mpr ⟨finding, List.mem_filter.mpr ⟨hm, by simpa using hid⟩, rfl⟩

/-- Of a chain that does not parse nothing is said about dates. -/
lemma validityVerdicts_of_unparsed (hparse : parseChain ext capture.chainDer = none) :
    (evaluateChain ext capture target policy options).map
        (fun evaluation => validityVerdicts evaluation.findings) = some [] := by
  unfold evaluateChain
  split_ifs
  · rfl
  · rw [hparse]
    rfl

end Verdicts

section Deserved
variable {now : ℤ} {required : Bool} {left right : List X509Certificate}

lemma notYetValid_mem_iff : "tls.chain-not-yet-valid" ∈ (dateVerdicts now required left).map Prod.fst ↔
    ∃ certificate ∈ left, NotYetValid now certificate := by
  rw [dateVerdicts]
  split_ifs with hearly <;> simp [hearly]

lemma expired_mem_iff : "tls.chain-expired" ∈ (dateVerdicts now required left).map Prod.fst ↔
    ∃ certificate ∈ left, Expired now certificate := by
  rw [dateVerdicts]
  split_ifs with hearly hexpired <;> simp [*]

lemma expiring_mem_iff :
    ("tls.chain-expired" ∈ (dateVerdicts now required left).map Prod.fst ∨
        "tls.chain-expiring-soon" ∈ (dateVerdicts now required left).map Prod.fst) ↔
      ∃ certificate ∈ left, Expiring now certificate := by
  rw [expired_mem_iff]
  by_cases hexpired : ∃ certificate ∈ left, Expired now certificate
  · simp only [hexpired, true_or, true_iff]
    obtain ⟨certificate, hm, h⟩ := hexpired
    exact ⟨certificate, hm, h.expiring⟩
  · rw [dateVerdicts, if_neg hexpired]
    split_ifs with hearly hsoon <;> simp [*]

/-- Two sets of certificates deserve the same exactly when they agree on all three dates. -/
theorem dateVerdicts_eq_iff :
    dateVerdicts now required left = dateVerdicts now required right ↔
      ∀ P ∈ [NotYetValid now, Expired now, Expiring now],
        (∃ certificate ∈ left, P certificate) ↔ ∃ certificate ∈ right, P certificate := by
  simp only [List.forall_mem_cons, List.not_mem_nil, false_implies, implies_true, and_true]
  constructor
  · intro h
    refine ⟨?_, ?_, ?_⟩
    · rw [← @notYetValid_mem_iff now required, h, notYetValid_mem_iff]
    · rw [← @expired_mem_iff now required, h, expired_mem_iff]
    · rw [← @expiring_mem_iff now required, h, expiring_mem_iff]
  · rintro ⟨hearly, hexpired, hexpiring⟩
    simp only [dateVerdicts, hearly, hexpired, hexpiring]

/-- Nothing is deserved exactly where no certificate has any of the dates. -/
lemma dateVerdicts_eq_nil_iff : dateVerdicts now required left = [] ↔
    ∀ P ∈ [NotYetValid now, Expired now, Expiring now], ¬∃ certificate ∈ left, P certificate := by
  have hnil : dateVerdicts now required [] = [] := by simp [dateVerdicts]
  rw [← hnil, dateVerdicts_eq_iff]
  simp

end Deserved

section Deleted
variable {ext : Externals} {capture : CapturedChain} {chain : List X509Certificate}
  {drop : ℕ → Bool}

/-- What is kept of a list stands where nothing is dropped. -/
lemma mem_kept {α : Type*} {l : List α} {a : α} :
    a ∈ ((List.range l.length).filter (fun i => !drop i)).filterMap (l[·]?) ↔
      ∃ i, drop i = false ∧ l[i]? = some a := by
  simp only [List.mem_filterMap, List.mem_filter, List.mem_range, Bool.not_eq_true']
  constructor
  · rintro ⟨i, ⟨-, hd⟩, hi⟩
    exact ⟨i, hd, hi⟩
  · rintro ⟨i, hd, hi⟩
    exact ⟨i, ⟨(List.getElem?_eq_some_iff.mp hi).1, hd⟩, hi⟩

lemma mem_withoutIndices {certificate : X509Certificate} :
    certificate ∈ withoutIndices drop chain ↔ ∃ i, drop i = false ∧ chain[i]? = some certificate :=
  mem_kept

/-- The leaf stays the leaf while it is not deleted. -/
lemma head?_without (hdrop : drop 0 = false) :
    (capture.without drop).chainDer.head? = capture.chainDer.head? := by
  rw [CapturedChain.without]
  cases capture.chainDer with
  | nil => rfl
  | cons leaf rest =>
    rw [List.length_cons, List.range_succ_eq_map, List.filter_cons_of_pos (by simp [hdrop])]
    rfl

/-- Deleting from the capture deletes from the chain it parses to. -/
lemma parseChain_without (hparse : parseChain ext capture.chainDer = some chain) :
    parseChain ext (capture.without drop).chainDer = some (withoutIndices drop chain) := by
  have hforall := OptionMap.mapM_eq_some_iff.mp hparse
  rw [parseChain, OptionMap.mapM_eq_some_iff, CapturedChain.without, withoutIndices,
    ← hforall.length_eq]
  exact OptionMap.forall₂_filterMap_getElem? hforall _

end Deleted

section Parsed
variable {ext : Externals} {chainDer : List (List UInt8)} {chain : List X509Certificate}

lemma mem_parsed {certificate : X509Certificate} : certificate ∈ parsed ext chainDer ↔
    ∃ i : ℕ, parseOne ext chainDer[i]? = some certificate := by
  rw [parsed, List.mem_filterMap]
  constructor
  · rintro ⟨der, hm, h⟩
    obtain ⟨i, hi⟩ := List.mem_iff_getElem?.mp hm
    exact ⟨i, by rw [hi]; exact h⟩
  · rintro ⟨i, hi⟩
    obtain ⟨der, hder, h⟩ := Option.bind_eq_some_iff.mp hi
    exact ⟨der, List.mem_of_getElem? hder, h⟩

lemma mem_parsedAt {i : ℕ} :
    i ∈ parsedAt ext chainDer ↔ (parseOne ext chainDer[i]?).isSome := by
  rw [parsedAt, List.mem_filter, List.mem_range, and_iff_right_iff_imp]
  intro h
  obtain ⟨certificate, h⟩ := Option.isSome_iff_exists.mp h
  obtain ⟨der, hder, -⟩ := Option.bind_eq_some_iff.mp h
  exact (List.getElem?_eq_some_iff.mp hder).1

/-- A leaf that parses leads only to what parses. -/
lemma isSome_of_mem_leafPath (hleaf : (parseOne ext chainDer.head?).isSome) {i : ℕ}
    (hi : i ∈ leafPath ext chainDer) : (parseOne ext chainDer[i]?).isSome := by
  obtain ⟨leaf, hleaf⟩ := Option.isSome_iff_exists.mp hleaf
  rw [leafPath, hleaf] at hi
  obtain ⟨j, -, hj⟩ := List.mem_filterMap.mp hi
  exact mem_parsedAt.mp (List.mem_of_getElem? hj)

/-- Where everything parses, a certificate stands where its bytes do. -/
lemma parseOne_getElem? (hparse : parseChain ext chainDer = some chain) (i : ℕ) :
    parseOne ext chainDer[i]? = chain[i]? := by
  have hforall := OptionMap.mapM_eq_some_iff.mp hparse
  by_cases hi : i < chainDer.length
  · rw [List.getElem?_eq_getElem hi, List.getElem?_eq_getElem (hforall.length_eq ▸ hi)]
    exact hforall.get hi _
  · rw [List.getElem?_eq_none (not_lt.mp hi),
      List.getElem?_eq_none (hforall.length_eq ▸ not_lt.mp hi)]
    rfl

lemma mem_of_parseChain (hparse : parseChain ext chainDer = some chain)
    {certificate : X509Certificate} : certificate ∈ chain ↔ certificate ∈ parsed ext chainDer := by
  rw [parsed, List.mem_filterMap]
  exact OptionMap.mem_of_mapM_eq_some hparse certificate

/-- Where everything parses, the leaf's path is that of the chain. -/
lemma leafPath_eq (hparse : parseChain ext chainDer = some chain) (hne : chain ≠ []) :
    leafPath ext chainDer = issuancePath ext chain := by
  have hforall := OptionMap.mapM_eq_some_iff.mp hparse
  have hparsed : parsed ext chainDer = chain := by
    clear hne hparse
    induction hforall with
    | nil => rfl
    | cons h _ ih => rw [parsed, List.filterMap_cons_some h, ← parsed, ih]
  have hat : parsedAt ext chainDer = List.range chain.length := by
    rw [parsedAt, hforall.length_eq, List.filter_eq_self]
    intro i hi
    rw [parseOne_getElem? hparse, List.getElem?_eq_getElem (List.mem_range.mp hi)]
    rfl
  obtain ⟨leaf, rest, rfl⟩ := List.exists_cons_of_ne_nil hne
  have hleaf : parseOne ext chainDer.head? = some leaf := by
    rw [List.head?_eq_getElem?, parseOne_getElem? hparse]
    rfl
  rw [leafPath, hleaf, hparsed, hat]
  refine (List.filterMap_congr fun i hi => ?_).trans List.filterMap_some
  rw [List.getElem?_range (lt_of_mem_issuancePath hi)]

end Parsed

section Law
variable {ext : Externals} {capture : CapturedChain} {target : ChainTarget} {policy : TlsPolicy}
  {options : ChainEvaluationOptions} {chain : List X509Certificate}

/-- Where nothing is said of the dates, whatever is deleted, what is said describes the path. -/
lemma datesOfPath_of_silent
    (hwhole : (evaluateChain ext capture target policy options).map
      (fun evaluation => validityVerdicts evaluation.findings) = some [])
    (hkept : ∀ drop : ℕ → Bool, (∀ i ∈ leafPath ext capture.chainDer, drop i = false) →
      (evaluateChain ext (capture.without drop) target policy options).map
        (fun evaluation => validityVerdicts evaluation.findings) = some []) :
    DatesOfPath ext capture target policy options := by
  refine ⟨fun drop hdrop => (hkept drop hdrop).trans hwhole.symm, ?_⟩
  intro _ evaluation he finding hm hid
  rw [he, Option.map_some, Option.some.injEq] at hwhole
  have hsaid := mem_validityVerdicts hm (by rw [hid]; decide)
  rw [hwhole] at hsaid
  cases hsaid

/-- Of a chain whose leaf does not parse nothing is said about dates. -/
lemma validityVerdicts_of_leaf (h : parseOne ext capture.chainDer.head? = none) :
    (evaluateChain ext capture target policy options).map
        (fun evaluation => validityVerdicts evaluation.findings) = some [] := by
  cases hder : capture.chainDer with
  | nil =>
    unfold evaluateChain
    rw [hder]
    rfl
  | cons leaf rest =>
    rw [hder] at h
    refine validityVerdicts_of_unparsed ?_
    rw [parseChain, hder, List.mapM_cons, show ext.x509Der leaf = none from h]
    rfl

lemma datesOfPath_of_leaf (h : parseOne ext capture.chainDer.head? = none) :
    DatesOfPath ext capture target policy options := by
  refine datesOfPath_of_silent (validityVerdicts_of_leaf h) fun drop hdrop => ?_
  have hleaf : drop 0 = false := hdrop 0 (by rw [leafPath, h]; exact List.mem_singleton_self 0)
  refine validityVerdicts_of_leaf ?_
  rw [head?_without hleaf]
  exact h

/-- What is left after a deletion, where all that is left parses. -/
lemma mem_of_parseChain_without {drop : ℕ → Bool}
    (h : parseChain ext (capture.without drop).chainDer = some chain) {certificate} :
    certificate ∈ chain ↔
      ∃ i : ℕ, drop i = false ∧ parseOne ext capture.chainDer[i]? = some certificate := by
  rw [mem_of_parseChain h, parsed, List.mem_filterMap]
  constructor
  · rintro ⟨der, hm, hder⟩
    obtain ⟨i, hd, hi⟩ := mem_kept.mp hm
    exact ⟨i, hd, by rw [hi]; exact hder⟩
  · rintro ⟨i, hd, hi⟩
    obtain ⟨der, hder, h⟩ := Option.bind_eq_some_iff.mp hi
    exact ⟨der, mem_kept.mpr ⟨i, hd, hder⟩, h⟩

/-- Where something off the path does not parse, dates are kept quiet, until it is deleted. -/
lemma datesOfPath_iff_of_unparsed (hleaf : (parseOne ext capture.chainDer.head?).isSome)
    (hparse : parseChain ext capture.chainDer = none) :
    DatesOfPath ext capture target policy options ↔
      ∀ P ∈ [NotYetValid options.now, Expired options.now, Expiring options.now],
        ¬∃ certificate ∈ parsed ext capture.chainDer, P certificate := by
  constructor
  · rintro h P hP ⟨certificate, hm, hdate⟩
    obtain ⟨i, hi⟩ := mem_parsed.mp hm
    -- what does not parse is deleted
    let drop (i : ℕ) := !(parseOne ext capture.chainDer[i]?).isSome
    have hall : ∀ der ∈ (capture.without drop).chainDer, (ext.x509Der der).isSome := by
      intro der hder
      obtain ⟨j, hd, hj⟩ := mem_kept.mp hder
      have hd : (parseOne ext capture.chainDer[j]?).isSome := by simpa [drop] using hd
      rwa [hj] at hd
    obtain ⟨chain, hchain⟩ := Option.isSome_iff_exists.mp (OptionMap.mapM_isSome_iff.mpr hall)
    have hsaid := h.deleted drop fun j hj => by simp [drop, isSome_of_mem_leafPath hleaf hj]
    rw [validityVerdicts_evaluateChain hchain, validityVerdicts_of_unparsed hparse,
      Option.some.injEq, dateVerdicts_eq_nil_iff] at hsaid
    have hleft : certificate ∈ chain :=
      (mem_of_parseChain_without hchain).mpr ⟨i, by simp [drop, hi], hi⟩
    exact hsaid P hP ⟨certificate, hleft, hdate⟩
  · intro h
    refine datesOfPath_of_silent (validityVerdicts_of_unparsed hparse) fun drop _ => ?_
    cases hchain : parseChain ext (capture.without drop).chainDer with
    | none => exact validityVerdicts_of_unparsed hchain
    | some chain =>
      rw [validityVerdicts_evaluateChain hchain, Option.some.injEq, dateVerdicts_eq_nil_iff]
      rintro P hP ⟨certificate, hm, hdate⟩
      obtain ⟨i, -, hi⟩ := (mem_of_parseChain_without hchain).mp hm
      exact h P hP ⟨certificate, mem_parsed.mpr ⟨i, hi⟩, hdate⟩

/-- Where everything parses, a date reported off the path but not on it is what makes the
difference. -/
lemma datesOfPath_iff_of_parsed (hparse : parseChain ext capture.chainDer = some chain) :
    DatesOfPath ext capture target policy options ↔
      ∀ P ∈ [NotYetValid options.now, Expired options.now, Expiring options.now],
        (∃ certificate ∈ chain, P certificate) →
          ∃ certificate, OnLeafPath ext capture.chainDer certificate ∧ P certificate := by
  have hdeleted : ∀ drop, (evaluateChain ext (capture.without drop) target policy options).map
        (fun evaluation => validityVerdicts evaluation.findings) =
      (evaluateChain ext capture target policy options).map
        (fun evaluation => validityVerdicts evaluation.findings) ↔
      ∀ P ∈ [NotYetValid options.now, Expired options.now, Expiring options.now],
        (∃ certificate ∈ withoutIndices drop chain, P certificate) ↔
          ∃ certificate ∈ chain, P certificate := by
    intro drop
    rw [validityVerdicts_evaluateChain (parseChain_without hparse),
      validityVerdicts_evaluateChain hparse, Option.some.injEq, dateVerdicts_eq_iff]
  have hpath : ∀ certificate, OnLeafPath ext capture.chainDer certificate ↔
      ∃ i ∈ leafPath ext capture.chainDer, chain[i]? = some certificate := by
    simp [OnLeafPath, parseOne_getElem? hparse]
  constructor
  · intro h P hP hdate
    let drop i := !(leafPath ext capture.chainDer).contains i
    have hkept := (hdeleted drop).mp (h.deleted drop fun j hj => by simp [drop, hj]) P hP
    obtain ⟨certificate, hm, hdate⟩ := hkept.mpr hdate
    obtain ⟨j, hj, hcertificate⟩ := mem_withoutIndices.mp hm
    exact ⟨certificate, (hpath certificate).mpr ⟨j, by simpa [drop] using hj, hcertificate⟩, hdate⟩
  · intro h
    refine ⟨fun drop hdrop => (hdeleted drop).mpr fun P hP => ⟨?_, fun hdate => ?_⟩, ?_⟩
    · rintro ⟨certificate, hm, hdate⟩
      obtain ⟨i, -, hi⟩ := mem_withoutIndices.mp hm
      exact ⟨certificate, List.mem_of_getElem? hi, hdate⟩
    · obtain ⟨certificate, honpath, hdate⟩ := h P hP hdate
      obtain ⟨i, hi, hcertificate⟩ := (hpath certificate).mp honpath
      exact ⟨certificate, mem_withoutIndices.mpr ⟨i, hdrop i hi, hcertificate⟩, hdate⟩
    · intro hvalid evaluation he finding hm hid
      have hverdicts := @validityVerdicts_evaluateChain _ _ target policy options _ hparse
      rw [he, Option.map_some, Option.some.injEq] at hverdicts
      have hsaid := mem_validityVerdicts hm (by rw [hid]; decide)
      rw [hverdicts, hid] at hsaid
      have hexpired := expired_mem_iff.mp (List.mem_map_of_mem (f := Prod.fst) hsaid)
      obtain ⟨certificate, honpath, hpast⟩ := h (Expired options.now) (by simp) hexpired
      exact absurd hpast (hvalid certificate honpath)

/-- The verdicts on dates describe the leaf's path exactly when nothing else presented has a date to
add to those of the path, or a date to hide by not parsing. -/
theorem datesOfPath_iff (ext : Externals) (capture : CapturedChain) (target : ChainTarget)
    (policy : TlsPolicy) (options : ChainEvaluationOptions) :
    DatesOfPath ext capture target policy options ↔
      PaddingAddsNoDate ext capture.chainDer options.now := by
  cases hleaf : parseOne ext capture.chainDer.head? with
  | none =>
    refine iff_of_true (datesOfPath_of_leaf hleaf) fun h => ?_
    rw [hleaf] at h
    cases h
  | some leaf =>
    have hisSome : (parseOne ext capture.chainDer.head?).isSome := by rw [hleaf]; rfl
    rw [PaddingAddsNoDate, forall_prop_of_true hisSome]
    have hall := @OptionMap.mapM_isSome_iff _ _ ext.x509Der capture.chainDer
    cases hparse : parseChain ext capture.chainDer with
    | none =>
      rw [show List.mapM ext.x509Der capture.chainDer = none from hparse] at hall
      rw [datesOfPath_iff_of_unparsed hisSome hparse]
      simp only [← hall, Option.isSome_none, Bool.false_eq_true, false_and, imp_false]
    | some chain =>
      rw [show List.mapM ext.x509Der capture.chainDer = some chain from hparse] at hall
      rw [datesOfPath_iff_of_parsed hparse]
      simp only [← hall, Option.isSome_some, true_and, mem_of_parseChain hparse]

end Law

section Stale

/-- A certificate that ended in 2020 and that nothing in the chain below names. -/
def staleIntermediate : X509Certificate :=
  { namedCertificate "Acme Corp Retired CA" "Acme Corp Retired Root" [9] with
    notBefore := 1483228800000
    notAfter := 1577836800000 }

/-- A parser that also reads the stale certificate. -/
def staleExternals : Externals :=
  { fixtureExternals with
    x509Der := fun der =>
      if der = staleIntermediate.rawData then some staleIntermediate
      else fixtureExternals.x509Der der }

/-- A self-signed certificate that is in its time, with the stale one sent after it. -/
def stalePadding : CapturedChain where
  chainDer := [fixtureRoot.rawData, staleIntermediate.rawData]
  negotiatedProtocol := some "TLSv1.3"
  negotiatedCipher := none
  requestedSni := "api.example.com"
  via := .direct

private lemma parseChain_stalePadding :
    parseChain staleExternals stalePadding.chainDer = some [fixtureRoot, staleIntermediate] := by
  have hdiffer : fixtureRoot.rawData ≠ staleIntermediate.rawData := by decide
  simp [parseChain, stalePadding, staleExternals, hdiffer, fixtureExternals]

private lemma leafPath_stalePadding : leafPath staleExternals stalePadding.chainDer = [0] :=
  (leafPath_eq parseChain_stalePadding (List.cons_ne_nil _ _)).trans
    (issuancePath_of_selfSigned rfl)

/-- In 2024, with the stale certificate off the path, the endpoint is blocked for expiry. -/
theorem stale_padding_blocks :
    parseChain staleExternals stalePadding.chainDer = some [fixtureRoot, staleIntermediate] ∧
      leafPath staleExternals stalePadding.chainDer = [0] ∧
      (∃ evaluation finding, evaluateChain staleExternals stalePadding ⟨"api.example.com", true⟩ {}
          ⟨fixtureIndex, 1704067200000⟩ = some evaluation ∧ finding ∈ evaluation.findings ∧
        finding.id = "tls.chain-expired" ∧ finding.severity = .blocker) ∧
      ¬DatesOfPath staleExternals stalePadding ⟨"api.example.com", true⟩ {}
        ⟨fixtureIndex, 1704067200000⟩ := by
  have hverdicts := @validityVerdicts_evaluateChain _ _ ⟨"api.example.com", true⟩ {}
    ⟨fixtureIndex, 1704067200000⟩ _ parseChain_stalePadding
  obtain ⟨evaluation, he, hv⟩ := Option.map_eq_some_iff.mp hverdicts
  have hexpired : ("tls.chain-expired", Severity.blocker) ∈
      validityVerdicts evaluation.findings := by
    rw [hv]
    decide
  obtain ⟨finding, hfinding, hsaid⟩ := List.mem_map.mp hexpired
  have hm := (List.mem_filter.mp hfinding).1
  obtain ⟨hid, hseverity⟩ := Prod.mk.inj hsaid
  refine ⟨parseChain_stalePadding, leafPath_stalePadding,
    ⟨evaluation, finding, he, hm, hid, hseverity⟩, fun h => ?_⟩
  refine h.padding (fun certificate hc => ?_) evaluation he finding hm hid hseverity
  obtain ⟨i, hi, hc⟩ := hc
  rw [leafPath_stalePadding] at hi
  obtain rfl := List.mem_singleton.mp hi
  rw [parseOne_getElem? parseChain_stalePadding] at hc
  obtain rfl := Option.some.inj hc
  decide

/-- In 2015 the root is not valid yet either, and the padding adds nothing to that. -/
theorem datesOfPath_stalePadding : DatesOfPath staleExternals stalePadding
    ⟨"api.example.com", true⟩ {} ⟨fixtureIndex, 1420070400000⟩ := by
  refine (datesOfPath_iff _ _ _ _ _).mpr fun _ P hP hdate => ⟨?_, fixtureRoot, ?_, ?_⟩
  · exact OptionMap.mapM_isSome_iff.mp (Option.isSome_of_eq_some parseChain_stalePadding)
  · refine ⟨0, by rw [leafPath_stalePadding]; exact List.mem_singleton_self 0, ?_⟩
    exact parseOne_getElem? parseChain_stalePadding 0
  · simp only [← mem_of_parseChain parseChain_stalePadding] at hdate
    have hexpired : ¬∃ certificate ∈ [fixtureRoot, staleIntermediate],
        Expired 1420070400000 certificate := by decide
    have hexpiring : ¬∃ certificate ∈ [fixtureRoot, staleIntermediate],
        Expiring 1420070400000 certificate := by decide
    rcases List.mem_cons.mp hP with rfl | hP
    · decide
    rcases List.mem_cons.mp hP with rfl | hP
    · exact absurd hdate hexpired
    · obtain rfl := List.mem_singleton.mp hP
      exact absurd hdate hexpiring

end Stale
end Portcall.Tls
