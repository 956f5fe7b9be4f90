import Mathlib.Data.List.ReduceOption
import Mathlib.Data.Set.Card
import Portcall.Truststore.Totality

/-! The verdicts of the cross-check against the sets of certificates they are about: which set
each verdict counts, lists and grades. -/
namespace Portcall.Truststore
variable (ext : Externals) (input : CrossCheckInput)

/-- The certificates some platform store that was read holds and the public list does not. -/
def AddedDer : Set (List UInt8) :=
  {der | OsHolds ext input.osStores der ∧ ¬HoldsDer ext input.publicRootPems der}

/-- Those of them a trust set does not hold. -/
def MissingDer (set : TrustSet) : Set (List UInt8) :=
  {der | der ∈ AddedDer ext input ∧ ¬HoldsDer ext set.pems der}

/-- A list of anchors that names each certificate of a set once, as some platform store holds
it. -/
structure Enumerates (ders : Set (List UInt8)) (anchors : List Anchor) : Prop where
  nodup : (anchors.map Anchor.der).Nodup
  mem_iff : ∀ der, der ∈ ders ↔ ∃ anchor ∈ anchors, anchor.der = der
  held : ∀ anchor ∈ anchors, ∃ store ∈ input.osStores, store.failure = none ∧
    ∃ pem ∈ store.pems, ∃ certificate, ext.x509 pem = some certificate ∧
      anchorOf ext certificate = anchor

/-- What a missing-root finding says about the set it is for. -/
structure MissingRootSpec (set : TrustSet) (missing : List Anchor) (finding : Finding) : Prop where
  id : finding.id = (runtimeIds set.runtime).missingRoot
  store : finding.values "runtime store" = set.locator.toList
  count : finding.values "missing anchors" = [toString (MissingDer ext input set).ncard]
  /-- At most five distinct members are listed, the correlated one first. -/
  listed : ∃ listed : List Anchor, finding.values "anchor" = listed.map Anchor.subject ∧
    listed.length = min 5 (MissingDer ext input set).ncard ∧ (listed.map Anchor.der).Nodup ∧
    (∀ anchor ∈ listed, anchor ∈ missing) ∧
    ∀ correlation, correlate missing input.observedAnchors = some correlation →
      listed.head? = some correlation.matched
  /-- It blocks exactly when an observed anchor is tied to a member and the set was read whole. -/
  severity : finding.severity =
    if (correlate missing input.observedAnchors).isSome && !set.isPartial then .blocker
    else .degraded
  tied : (correlate missing input.observedAnchors).isSome ↔
    ∃ anchor ∈ input.observedAnchors, ∃ candidate ∈ missing, Tied anchor candidate

/-- What a roots-present finding says about the set it is for. -/
structure RootsPresentSpec (set : TrustSet) (finding : Finding) : Prop where
  id : finding.id = (runtimeIds set.runtime).rootsPresent
  store : finding.values "runtime store" = set.locator.toList
  severity : finding.severity = .ok

/-- The verdict on one trust set: missing-root when something is missing, roots-present when
nothing is and the set was read whole, none when nothing is and it was not. -/
def VerdictSpec (set : TrustSet) (verdict : Option Finding) : Prop :=
  ∃ missing, Enumerates ext input (MissingDer ext input set) missing ∧
    ((MissingDer ext input set).Nonempty →
      ∃ finding, verdict = some finding ∧ MissingRootSpec ext input set missing finding) ∧
    (MissingDer ext input set = ∅ → set.isPartial = false →
      ∃ finding, verdict = some finding ∧ RootsPresentSpec set finding) ∧
    (MissingDer ext input set = ∅ → set.isPartial = true → verdict = none)

/-- The finding is a verdict on a trust set of the runtime. -/
def isVerdictOn (runtime : Runtime) (finding : Finding) : Bool :=
  finding.id = (runtimeIds runtime).missingRoot || finding.id = (runtimeIds runtime).rootsPresent

section Ids

/-- Ids under which no verdict is reported, besides the per-runtime ones. -/
def otherIds : List String :=
  osFindingIds ++ ["truststore.java.store-unreadable", "truststore.crosscheck.indeterminate"]

lemma isVerdictOn_of_mem_otherIds {finding : Finding} (h : finding.id ∈ otherIds)
    (runtime : Runtime) : isVerdictOn runtime finding = false := by
  have hall : ∀ id ∈ otherIds, ∀ runtime, id ≠ (runtimeIds runtime).missingRoot ∧
      id ≠ (runtimeIds runtime).rootsPresent := by
    intro id hid runtime
    cases runtime <;> revert id <;> decide
  obtain ⟨hm, hp⟩ := hall _ h runtime
  simp [isVerdictOn, hm, hp]

/-- Ids of what is reported about no runtime. -/
def surroundingIds : List String := osFindingIds ++ ["truststore.crosscheck.indeterminate"]

lemma mem_otherIds_of_surrounding {id : String} (h : id ∈ surroundingIds) : id ∈ otherIds := by
  rcases List.mem_append.mp h with h | h
  · exact List.mem_append_left _ h
  · exact List.mem_append_right _ (List.mem_cons_of_mem _ h)

/-- The per-runtime ids of findings that are no verdicts. -/
def storeIds (runtime : Runtime) : List String :=
  [(runtimeIds runtime).platformVerifier, (runtimeIds runtime).extraCaUnreadable,
    (runtimeIds runtime).extraCaConfigured, (runtimeIds runtime).storeNotFound]

lemma isVerdictOn_of_mem_storeIds {finding : Finding} (runtime : Runtime)
    (h : finding.id ∈ storeIds runtime) (runtime' : Runtime) :
    isVerdictOn runtime' finding = false := by
  have hall : ∀ id ∈ storeIds runtime, id ≠ (runtimeIds runtime').missingRoot ∧
      id ≠ (runtimeIds runtime').rootsPresent := by
    cases runtime <;> cases runtime' <;> decide
  obtain ⟨hm, hp⟩ := hall _ h
  simp [isVerdictOn, hm, hp]

lemma isVerdictOn_of_ne {finding : Finding} {runtime runtime' : Runtime}
    (h : isVerdictOn runtime finding = true) (hne : runtime' ≠ runtime) :
    isVerdictOn runtime' finding = false := by
  have hall : ∀ id, id = (runtimeIds runtime).missingRoot ∨ id = (runtimeIds runtime).rootsPresent →
      id ≠ (runtimeIds runtime').missingRoot ∧ id ≠ (runtimeIds runtime').rootsPresent := by
    rintro id (rfl | rfl)
    · cases runtime <;> cases runtime' <;> first | exact absurd rfl hne | decide
    · cases runtime <;> cases runtime' <;> first | exact absurd rfl hne | decide
  rw [isVerdictOn, Bool.or_eq_true, decide_eq_true_eq, decide_eq_true_eq] at h
  obtain ⟨hm, hp⟩ := hall _ h
  simp [isVerdictOn, hm, hp]

end Ids

section SetVerdict
variable {ext input}

lemma setOf_forall_eq_empty {ders : Set (List UInt8)} {anchors : List Anchor}
    (h : Enumerates ext input ders anchors) : ders = ∅ ↔ anchors = [] := by
  rw [Set.eq_empty_iff_forall_notMem]
  constructor
  · intro hempty
    rw [List.eq_nil_iff_forall_not_mem]
    exact fun anchor hm => hempty anchor.der ((h.mem_iff _).mpr ⟨anchor, hm, rfl⟩)
  · rintro rfl der hm
    obtain ⟨anchor, ha, -⟩ := (h.mem_iff der).mp hm
    simp at ha

lemma ncard_eq_length {ders : Set (List UInt8)} {anchors : List Anchor}
    (h : Enumerates ext input ders anchors) : ders.ncard = anchors.length := by
  have hset : ders = ((anchors.map Anchor.der).toFinset : Set (List UInt8)) := by
    ext der
    rw [h.mem_iff]
    simp
  rw [hset, Set.ncard_coe_finset, List.toFinset_card_of_nodup h.nodup, List.length_map]

/-- The anchors a set lacks enumerate the certificates it lacks. -/
theorem enumerates_missingFrom {publicIndex index : CertificateIndex} {set : TrustSet}
    (hpublic : certificateIndex ext input.publicRootPems = some publicIndex)
    (hindex : certificateIndex ext set.pems = some index) :
    Enumerates ext input (MissingDer ext input set)
      (missingFrom (locallyAdded ext input.osStores publicIndex) index) := by
  have hmem : ∀ anchor, anchor ∈ missingFrom (locallyAdded ext input.osStores publicIndex) index ↔
      anchor ∈ (allAnchors ext input.osStores).values ∧
        ¬HoldsDer ext input.publicRootPems anchor.der ∧ ¬HoldsDer ext set.pems anchor.der := by
    intro anchor
    rw [missingFrom, List.mem_filter, mem_locallyAdded, ← hasCertificate_iff hpublic,
      ← hasCertificate_iff hindex]
    simp [and_assoc]
  refine ⟨?_, fun der => ?_, fun anchor ha => ?_⟩
  · exact nodup_der_locallyAdded.sublist (List.filter_sublist.map _)
  · constructor
    · rintro ⟨⟨hos, hpub⟩, hset⟩
      obtain ⟨anchor, ha, rfl⟩ := (der_mem_allAnchors_iff der).mpr hos
      exact ⟨anchor, (hmem anchor).mpr ⟨ha, hpub, hset⟩, rfl⟩
    · rintro ⟨anchor, ha, rfl⟩
      obtain ⟨hall, hpub, hset⟩ := (hmem anchor).mp ha
      exact ⟨⟨(der_mem_allAnchors_iff _).mp ⟨anchor, hall, rfl⟩, hpub⟩, hset⟩
  · exact mem_allAnchors ((hmem anchor).mp ha).1

/-- The report order lists every missing anchor once. -/
lemma orderedMissing_perm {missing : List Anchor} (observed : List ObservedAnchor)
    (hnd : missing.Nodup) : (orderedMissing missing (correlate missing observed)).Perm missing := by
  cases hc : correlate missing observed with
  | none => exact List.Perm.refl _
  | some correlation =>
    obtain ⟨-, hmatched, -⟩ := correlate_eq_some hc
    rw [orderedMissing]
    have herase : missing.filter (fun anchor => anchor ≠ correlation.matched) =
        missing.erase correlation.matched := by
      rw [hnd.erase_eq_filter]
      refine List.filter_congr fun anchor _ => ?_
      rw [Bool.eq_iff_iff]
      simp
    rw [herase]
    exact (List.perm_cons_erase hmatched).symm

/-- What a missing-root finding lists under each of its labels. -/
lemma values_missingRootFinding (set : TrustSet) (missing : List Anchor)
    (correlation : Option Correlation) :
    (missingRootFinding set missing correlation).values "missing anchors" =
        [toString missing.length] ∧
      (missingRootFinding set missing correlation).values "anchor" =
        ((orderedMissing missing correlation).take maxReportedDns).map Anchor.subject ∧
      (missingRootFinding set missing correlation).values "runtime store" =
        set.locator.toList := by
  simp only [missingRootFinding, Finding.values, valuesOf_append, valuesOf_map,
    valuesOf_map_toList]
  cases correlation <;> cases set.isPartial <;> simp

/-- The finding says what the list of missing anchors says. -/
theorem missingRootSpec_of_enumerates {set : TrustSet} {missing : List Anchor}
    (h : Enumerates ext input (MissingDer ext input set) missing) :
    MissingRootSpec ext input set missing
      (missingRootFinding set missing (correlate missing input.observedAnchors)) := by
  have hperm := orderedMissing_perm input.observedAnchors (List.Nodup.of_map _ h.nodup)
  obtain ⟨hcount, hlisted, hstore⟩ := values_missingRootFinding set missing
    (correlate missing input.observedAnchors)
  refine ⟨rfl, hstore, ?_, ?_, ?_, correlate_isSome_iff⟩
  · rw [hcount, ncard_eq_length h]
  · refine ⟨_, hlisted, ?_, ?_, ?_, ?_⟩
    · rw [List.length_take, hperm.length_eq, ncard_eq_length h]
      rfl
    · have hnd := (hperm.map Anchor.der).nodup_iff.mpr h.nodup
      exact hnd.sublist ((List.take_sublist _ _).map _)
    · exact fun anchor hm => hperm.subset (List.mem_of_mem_take hm)
    · intro correlation hc
      rw [hc]
      rfl
  · cases hc : correlate missing input.observedAnchors with
    | none => rfl
    | some correlation =>
      cases hp : set.isPartial <;> simp [missingRootFinding, hp]

lemma values_rootsPresent (set : TrustSet) (coverage : OsCoverage) :
    (rootsPresentFinding set coverage).values "runtime store" = set.locator.toList := by
  simp only [rootsPresentFinding, Finding.values, valuesOf_append, valuesOf_map_toList]
  by_cases hp : coverage.level = .partialRead <;> by_cases hu : 0 < coverage.unparsed <;>
    simp [hp, hu]

/-- The verdict on a set whose blocks parse is the specified one. -/
theorem verdictSpec_of_setVerdict {publicIndex : CertificateIndex} {set : TrustSet}
    {coverage : OsCoverage} {verdict : Option Finding}
    (hpublic : certificateIndex ext input.publicRootPems = some publicIndex)
    (h : setVerdict ext (locallyAdded ext input.osStores publicIndex) input.observedAnchors
      coverage set = some verdict) :
    VerdictSpec ext input set verdict := by
  obtain ⟨index, hindex, rfl⟩ := Option.map_eq_some_iff.mp h
  have henum := enumerates_missingFrom hpublic hindex
  refine ⟨_, henum, fun hne => ?_, fun hempty hwhole => ?_, fun hempty hpart => ?_⟩
  · have hlen : 0 < (missingFrom (locallyAdded ext input.osStores publicIndex) index).length := by
      rw [List.length_pos_iff, Ne, ← setOf_forall_eq_empty henum]
      exact hne.ne_empty
    exact ⟨_, if_pos hlen, missingRootSpec_of_enumerates henum⟩
  · rw [setOf_forall_eq_empty henum] at hempty
    refine ⟨rootsPresentFinding set coverage, ?_, rfl, values_rootsPresent _ _, rfl⟩
    simp [hempty, hwhole]
  · rw [setOf_forall_eq_empty henum] at hempty
    simp [hempty, hpart]

end SetVerdict

section Runtime
variable {ext input} {runtime : Runtime} {outcomes : List RuntimeStoreOutcome}
  {added : List Anchor} {observed : List ObservedAnchor} {coverage : OsCoverage}

lemma filter_isVerdictOn_eq_nil {findings : List Finding} (runtime' : Runtime)
    (h : ∀ finding ∈ findings, isVerdictOn runtime' finding = false) :
    findings.filter (isVerdictOn runtime') = [] :=
  List.filter_eq_nil_iff.mpr fun finding hm => by simp [h finding hm]

/-- The finding is about the runtime's stores, and no verdict. -/
def AboutStores (runtime : Runtime) (finding : Finding) : Prop :=
  finding.id ∈ storeIds runtime ∨ finding.id = "truststore.java.store-unreadable"

lemma AboutStores.isVerdictOn_eq_false {finding : Finding} (h : AboutStores runtime finding)
    (runtime' : Runtime) : isVerdictOn runtime' finding = false := by
  rcases h with h | h
  · exact isVerdictOn_of_mem_storeIds runtime h runtime'
  · exact isVerdictOn_of_mem_otherIds (by simp [otherIds, h]) runtime'

lemma aboutStores_of_id {finding : Finding} {id : String} (hid : finding.id = id)
    (h : id ∈ storeIds runtime) : AboutStores runtime finding := Or.inl (hid ▸ h)

/-- What an outcome says is about its store. -/
lemma aboutStores_of_mem_outcomeFindings {outcome : RuntimeStoreOutcome} {finding : Finding}
    (h : finding ∈ outcomeFindings runtime outcome) : AboutStores runtime finding := by
  rcases List.mem_append.mp h with h | h
  · split_ifs at h with hkind
    · unfold extraCaFindings at h
      split at h
      · simp at h
      · rw [List.mem_singleton.mp h]
        exact aboutStores_of_id (show _ = (runtimeIds runtime).extraCaConfigured from rfl)
          (by simp [storeIds])
      · rw [List.mem_singleton.mp h]
        exact aboutStores_of_id (show _ = (runtimeIds runtime).extraCaUnreadable from rfl)
          (by simp [storeIds])
    · simp at h
  · split_ifs at h
    · right
      rw [List.mem_singleton.mp h]
      rfl
    · simp at h

lemma isVerdictOn_of_setVerdict {set : TrustSet} {finding : Finding}
    (h : setVerdict ext added observed coverage set = some (some finding)) :
    isVerdictOn set.runtime finding = true := by
  obtain ⟨index, -, h⟩ := Option.map_eq_some_iff.mp h
  dsimp only at h
  split_ifs at h
  · cases h
    simp [isVerdictOn, missingRootFinding]
  · cases h
    simp [isVerdictOn, rootsPresentFinding]

lemma runtime_of_mem_trustSets {set : TrustSet} (h : set ∈ trustSets runtime outcomes) :
    set.runtime = runtime := by
  obtain ⟨base, -, rfl⟩ := List.mem_map.mp h
  rfl

/-- The verdicts of one runtime's sets are verdicts on it and on no other runtime. -/
lemma isVerdictOn_of_mem_verdicts {verdicts : List (Option Finding)} {finding : Finding}
    (h : (trustSets runtime outcomes).mapM (setVerdict ext added observed coverage) =
      some verdicts) (hm : finding ∈ verdicts.reduceOption) :
    isVerdictOn runtime finding = true := by
  obtain ⟨set, hs, hv⟩ := (OptionMap.mem_of_mapM_eq_some h _).mp (List.reduceOption_mem_iff.mp hm)
  exact runtime_of_mem_trustSets hs ▸ isVerdictOn_of_setVerdict hv

/-- What one runtime's findings are made of: what is said about its stores, then the verdicts on
its sets, if it does not ask the platform and some platform store was read. -/
theorem runtimeFindings_eq_some {findings : List Finding}
    (h : runtimeFindings ext runtime outcomes added observed coverage = some findings) :
    ∃ about verdicts, findings = about ++ verdicts.reduceOption ∧
      (∀ finding ∈ about, AboutStores runtime finding) ∧
      ((asksPlatform outcomes = true ∨ coverage.level = .none) ∧ verdicts = [] ∨
        asksPlatform outcomes = false ∧ coverage.level ≠ .none ∧
          (trustSets runtime outcomes).mapM (setVerdict ext added observed coverage) =
            some verdicts) := by
  have hstores : ∀ finding ∈ outcomes.flatMap (outcomeFindings runtime),
      AboutStores runtime finding := by
    intro finding hm
    obtain ⟨outcome, -, ho⟩ := List.mem_flatMap.mp hm
    exact aboutStores_of_mem_outcomeFindings ho
  -- without a set there is nothing to judge, whether or not a platform store was read
  have hempty : asksPlatform outcomes = false → trustSets runtime outcomes = [] →
      ((asksPlatform outcomes = true ∨ coverage.level = .none) ∧ ([] : List (Option Finding)) = [] ∨
        asksPlatform outcomes = false ∧ coverage.level ≠ .none ∧
          (trustSets runtime outcomes).mapM (setVerdict ext added observed coverage) =
            some []) := by
    intro hasks hsets
    by_cases hlevel : coverage.level = .none
    · exact Or.inl ⟨Or.inr hlevel, rfl⟩
    · exact Or.inr ⟨hasks, hlevel, by rw [hsets]; rfl⟩
  unfold runtimeFindings at h
  dsimp only at h
  split_ifs at h with hasks hsets hlocated hlevel
  · refine ⟨findings, [], by simp, ?_, Or.inl ⟨Or.inl hasks, rfl⟩⟩
    cases h
    refine List.forall_mem_append.mpr ⟨hstores, fun finding hm => ?_⟩
    rw [List.mem_singleton.mp hm]
    exact aboutStores_of_id (show _ = (runtimeIds runtime).platformVerifier from rfl)
      (by simp [storeIds])
  · cases h
    exact ⟨_, [], by simp, hstores,
      hempty (Bool.eq_false_iff.mpr hasks) (List.isEmpty_iff.mp hsets)⟩
  · refine ⟨findings, [], by simp, ?_,
      hempty (Bool.eq_false_iff.mpr hasks) (List.isEmpty_iff.mp hsets)⟩
    cases h
    refine List.forall_mem_append.mpr ⟨hstores, fun finding hm => ?_⟩
    rw [List.mem_singleton.mp hm]
    exact aboutStores_of_id (show _ = (runtimeIds runtime).storeNotFound from rfl)
      (by simp [storeIds])
  · cases h
    exact ⟨_, [], by simp, hstores, Or.inl ⟨Or.inr hlevel, rfl⟩⟩
  · obtain ⟨verdicts, hverdicts, rfl⟩ := Option.map_eq_some_iff.mp h
    exact ⟨_, verdicts, rfl, hstores,
      Or.inr ⟨Bool.eq_false_iff.mpr hasks, hlevel, hverdicts⟩⟩

/-- The verdicts among one runtime's findings: those on its sets, where there are sets to judge
and platform stores to judge them by; and none on any other runtime. -/
theorem filter_runtimeFindings {findings : List Finding}
    (h : runtimeFindings ext runtime outcomes added observed coverage = some findings) :
    (∀ runtime', runtime' ≠ runtime ∨ coverage.level = .none →
      findings.filter (isVerdictOn runtime') = []) ∧
    (coverage.level ≠ .none → asksPlatform outcomes = false → ∃ verdicts,
      (trustSets runtime outcomes).mapM (setVerdict ext added observed coverage) =
        some verdicts ∧ findings.filter (isVerdictOn runtime) = verdicts.reduceOption) := by
  obtain ⟨about, verdicts, rfl, habout, hverdicts⟩ := runtimeFindings_eq_some h
  have hstores : ∀ runtime', about.filter (isVerdictOn runtime') = [] := fun runtime' =>
    filter_isVerdictOn_eq_nil runtime' fun finding hm =>
      (habout finding hm).isVerdictOn_eq_false runtime'
  simp only [List.filter_append, hstores, List.nil_append]
  rcases hverdicts with ⟨hnone, rfl⟩ | ⟨hasks, hlevel, hverdicts⟩
  · refine ⟨fun _ _ => rfl, fun hlevel hasks => ?_⟩
    rcases hnone with hplatform | hnone
    · rw [hplatform] at hasks
      cases hasks
    · exact absurd hnone hlevel
  · have hmem : ∀ finding ∈ verdicts.reduceOption, isVerdictOn runtime finding = true :=
      fun finding hm => isVerdictOn_of_mem_verdicts hverdicts hm
    refine ⟨fun runtime' hor => ?_, fun _ _ => ⟨verdicts, hverdicts, ?_⟩⟩
    · exact filter_isVerdictOn_eq_nil runtime' fun finding hm =>
        isVerdictOn_of_ne (hmem finding hm) (hor.resolve_right hlevel)
    · exact List.filter_eq_self.mpr hmem

/-- Without a platform store that was read, one runtime's findings are about its stores. -/
lemma aboutStores_of_mem_runtimeFindings {findings : List Finding} {finding : Finding}
    (h : runtimeFindings ext runtime outcomes added observed coverage = some findings)
    (hlevel : coverage.level = .none) (hm : finding ∈ findings) : AboutStores runtime finding := by
  obtain ⟨about, verdicts, rfl, habout, ⟨-, rfl⟩ | ⟨-, hread, -⟩⟩ := runtimeFindings_eq_some h
  · exact habout finding (by simpa using hm)
  · exact absurd hlevel hread

end Runtime

section CrossCheck
variable {ext input}

/-- What a cross-check that returns is made of. -/
lemma crossCheck_eq_some {findings : List Finding} (h : crossCheck ext input = some findings) :
    ∃ publicIndex runtimes, certificateIndex ext input.publicRootPems = some publicIndex ∧
      (input.runtimes.mapM fun runtime => runtimeFindings ext runtime (input.outcomesOf runtime)
        (locallyAdded ext input.osStores publicIndex) input.observedAnchors
        (osCoverage ext input.osStores)) = some runtimes ∧
      findings = osFindings ext input.osStores input.osCommands
          ((locallyAdded ext input.osStores publicIndex).map fun anchor => derKey anchor.der) ++
        runtimes.flatten ++
        if (osCoverage ext input.osStores).level = .none then
          [indeterminateFinding input.osStores] else [] := by
  unfold crossCheck at h
  obtain ⟨publicIndex, hindex, h⟩ := Option.bind_eq_some_iff.mp h
  obtain ⟨runtimes, hruntimes, h⟩ := Option.bind_eq_some_iff.mp h
  exact ⟨publicIndex, runtimes, hindex, hruntimes, (Option.some.inj h).symm⟩

/-- What a filter keeps of a cross-check, if it keeps nothing that is about no runtime. -/
lemma filter_crossCheck {p : Finding → Bool}
    (hp : ∀ finding, finding.id ∈ surroundingIds → p finding = false) (keys : List String)
    (runtimes : List (List Finding)) :
    (osFindings ext input.osStores input.osCommands keys ++ runtimes.flatten ++
        if (osCoverage ext input.osStores).level = .none then
          [indeterminateFinding input.osStores] else []).filter p = runtimes.flatten.filter p := by
  have hnil : ∀ findings : List Finding, (∀ finding ∈ findings, finding.id ∈ surroundingIds) →
      findings.filter p = [] := fun findings h =>
    List.filter_eq_nil_iff.mpr fun finding hm => by simp [hp finding (h finding hm)]
  have hos : (osFindings ext input.osStores input.osCommands keys).filter p = [] :=
    hnil _ fun finding hm => List.mem_append_left _ (id_mem_of_mem_osFindings hm)
  have htail : (if (osCoverage ext input.osStores).level = .none then
      [indeterminateFinding input.osStores] else []).filter p = [] := by
    refine hnil _ fun finding hm => ?_
    split_ifs at hm
    · rw [List.mem_singleton.mp hm]
      simp [surroundingIds, indeterminateFinding]
    · simp at hm
  rw [List.filter_append, List.filter_append, hos, htail, List.nil_append, List.append_nil]

/-- The verdicts on a declared runtime that does not ask the platform, in a cross-check that
returns: one specified verdict for each of its trust sets, in order. -/
theorem verdicts_of_crossCheck {findings : List Finding} {runtime : Runtime}
    (h : crossCheck ext input = some findings) (hnodup : input.runtimes.Nodup)
    (hread : ¬NoOsStoreRead input.osStores) (hruntime : runtime ∈ input.runtimes)
    (hasks : asksPlatform (input.outcomesOf runtime) = false) :
    ∃ verdicts, List.Forall₂ (VerdictSpec ext input)
        (trustSets runtime (input.outcomesOf runtime)) verdicts ∧
      findings.filter (isVerdictOn runtime) = verdicts.reduceOption := by
  obtain ⟨publicIndex, runtimes, hindex, hruntimes, rfl⟩ := crossCheck_eq_some h
  have hlevel : (osCoverage ext input.osStores).level ≠ .none :=
    fun hn => hread ((level_eq_none_iff ext _).mp hn)
  obtain ⟨own, hown⟩ := Option.isSome_iff_exists.mp
    (OptionMap.mapM_isSome_iff.mp (Option.isSome_of_eq_some hruntimes) runtime hruntime)
  obtain ⟨verdicts, hverdicts, hfilter⟩ := (filter_runtimeFindings hown).2 hlevel hasks
  refine ⟨verdicts, ?_, ?_⟩
  · refine (OptionMap.mapM_eq_some_iff.mp hverdicts).imp fun set verdict hv => ?_
    exact verdictSpec_of_setVerdict hindex hv
  · rw [filter_crossCheck fun finding hm =>
      isVerdictOn_of_mem_otherIds (mem_otherIds_of_surrounding hm) runtime, ← hfilter]
    apply OptionMap.filter_flatten_of_nodup hruntimes hnodup hruntime hown
    intro other _ hne findings hf
    exact (filter_runtimeFindings hf).1 runtime (Or.inl hne.symm)

/-- Neither a finding about a platform store nor one about a runtime's says that nothing could be
cross-checked. -/
lemma id_ne_indeterminate {finding : Finding}
    (h : finding.id ∈ osFindingIds ∨ ∃ runtime, AboutStores runtime finding) :
    finding.id ≠ "truststore.crosscheck.indeterminate" := by
  intro he
  rcases h with h | ⟨runtime, h⟩
  · rw [he] at h
    revert h
    decide
  · rw [AboutStores, he] at h
    revert h
    cases runtime <;> decide

/-- Without a platform store that was read there are no verdicts, and one finding says so. -/
theorem no_verdicts_of_crossCheck {findings : List Finding}
    (h : crossCheck ext input = some findings) (hread : NoOsStoreRead input.osStores) :
    (∀ runtime, findings.filter (isVerdictOn runtime) = []) ∧
      findings.countP (fun finding => finding.id = "truststore.crosscheck.indeterminate") = 1 := by
  obtain ⟨publicIndex, runtimes, -, hruntimes, rfl⟩ := crossCheck_eq_some h
  have hlevel : (osCoverage ext input.osStores).level = .none := (level_eq_none_iff ext _).mpr hread
  have hown : ∀ finding ∈ runtimes.flatten, ∃ runtime, AboutStores runtime finding := by
    intro finding hm
    obtain ⟨own, hm, hfinding⟩ := List.mem_flatten.mp hm
    obtain ⟨runtime, -, hf⟩ := (OptionMap.mem_of_mapM_eq_some hruntimes own).mp hm
    exact ⟨runtime, aboutStores_of_mem_runtimeFindings hf hlevel hfinding⟩
  constructor
  · intro runtime
    rw [filter_crossCheck fun finding hm =>
      isVerdictOn_of_mem_otherIds (mem_otherIds_of_surrounding hm) runtime]
    refine filter_isVerdictOn_eq_nil runtime fun finding hm => ?_
    obtain ⟨other, hother⟩ := hown finding hm
    exact hother.isVerdictOn_eq_false runtime
  · rw [List.countP_append, if_pos hlevel, List.countP_eq_zero.mpr, Nat.zero_add]
    · rfl
    · intro finding hm
      rw [decide_eq_true_eq]
      exact id_ne_indeterminate ((List.mem_append.mp hm).imp id_mem_of_mem_osFindings
        (hown finding))

/-- The whole cross-check, certificates parsing: no verdict and one finding that says so when no
platform store was read; else, for every declared runtime that does not ask the platform, one
specified verdict for each of its trust sets and no other verdict on it. -/
theorem crossCheck_verdicts (ext : Externals) (input : CrossCheckInput)
    (hpublic : AllParse ext input.publicRootPems)
    (hstores : ∀ outcome ∈ input.runtimeStores, AllParse ext outcome.pems)
    (hnodup : input.runtimes.Nodup) :
    ∃ findings, crossCheck ext input = some findings ∧
      (NoOsStoreRead input.osStores →
        (∀ runtime, findings.filter (isVerdictOn runtime) = []) ∧
        findings.countP (fun finding => finding.id = "truststore.crosscheck.indeterminate") = 1) ∧
      (¬NoOsStoreRead input.osStores → ∀ runtime ∈ input.runtimes,
        asksPlatform (input.outcomesOf runtime) = false →
          ∃ verdicts, List.Forall₂ (VerdictSpec ext input)
              (trustSets runtime (input.outcomesOf runtime)) verdicts ∧
            findings.filter (isVerdictOn runtime) = verdicts.reduceOption) := by
  obtain ⟨findings, hf⟩ := Option.isSome_iff_exists.mp
    ((isSome_crossCheck_iff input hpublic).mpr (indexedSetsParse_of_allParse hstores))
  exact ⟨findings, hf, fun hread => no_verdicts_of_crossCheck hf hread,
    fun hread runtime hruntime hasks => verdicts_of_crossCheck hf hnodup hread hruntime hasks⟩

/-- One local root, which the JDK on this machine holds and Node does not. -/
def localRootInput : CrossCheckInput where
  osStores := [⟨.linuxCaBundle, "/etc/ssl/certs/ca-certificates.crt", [fixturePem], none, none,
    none, some 3⟩]
  runtimeStores :=
    [⟨.node, .nodeBundled, none, [], .standalone, [], none, false, none, none⟩,
      ⟨.java, .javaCacerts, some "/opt/jdk/lib/security/cacerts", [], .standalone, [fixturePem],
        some .pkcs12, false, none, none⟩]
  runtimes := [.node, .java]
  publicRootPems := []
  observedAnchors := []
  osCommands := []

lemma allParse_localRootInput :
    ∀ outcome ∈ localRootInput.runtimeStores, AllParse fixtureExternals outcome.pems := by
  intro outcome ho pem hp
  simp only [localRootInput, List.mem_cons, List.not_mem_nil, or_false] at ho
  rcases ho with rfl | rfl
  · simp at hp
  · rw [List.mem_singleton.mp hp, x509_fixturePem]
    rfl

/-- The verdicts at that input. -/
theorem crossCheck_verdicts_localRoot :
    ∃ findings, crossCheck fixtureExternals localRootInput = some findings ∧
      (NoOsStoreRead localRootInput.osStores →
        (∀ runtime, findings.filter (isVerdictOn runtime) = []) ∧
        findings.countP (fun finding => finding.id = "truststore.crosscheck.indeterminate") = 1) ∧
      (¬NoOsStoreRead localRootInput.osStores → ∀ runtime ∈ localRootInput.runtimes,
        asksPlatform (localRootInput.outcomesOf runtime) = false →
          ∃ verdicts, List.Forall₂ (VerdictSpec fixtureExternals localRootInput)
              (trustSets runtime (localRootInput.outcomesOf runtime)) verdicts ∧
            findings.filter (isVerdictOn runtime) = verdicts.reduceOption) := by
  refine crossCheck_verdicts fixtureExternals localRootInput ?_ allParse_localRootInput (by decide)
  simp [AllParse, localRootInput]

end CrossCheck
end Portcall.Truststore
