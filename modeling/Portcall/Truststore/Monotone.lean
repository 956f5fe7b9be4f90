import Portcall.Engine.Rollup
import Portcall.Truststore.Comparison

/-! What following a remediation does to the verdicts: one more certificate in a runtime's store
never makes a verdict harsher, and one more in a platform store, or one more anchor observed,
never makes one milder. -/
namespace Portcall.Truststore
open Rearrangement
variable {ext : Externals}

/-- The sets of one runtime the cross-check gives a verdict on. -/
def CrossCheckInput.judgedSetsOf (input : CrossCheckInput) (runtime : Runtime) : List TrustSet :=
  if asksPlatform (input.outcomesOf runtime) || osEvidenceLevel input.osStores = .none then []
  else trustSets runtime (input.outcomesOf runtime)

/-- The sets it gives a verdict on, in report order. -/
def CrossCheckInput.judgedSets (input : CrossCheckInput) : List TrustSet :=
  input.runtimes.flatMap input.judgedSetsOf

/-- The verdict on one of them. -/
def verdictOn (ext : Externals) (input : CrossCheckInput) (set : TrustSet) :
    Throwing (Option Finding) :=
  (certificateIndex ext input.publicRootPems).bind fun publicIndex =>
    setVerdict ext (locallyAdded ext input.osStores publicIndex) input.observedAnchors
      (osCoverage ext input.osStores) set

/-- The finding is a verdict on a set of some runtime. -/
def isVerdict (finding : Finding) : Bool :=
  [Runtime.node, .go, .python, .java].any fun runtime => isVerdictOn runtime finding

/-- The cross-check returns these findings, and these are its verdicts, one or none for each of
the judged sets. -/
structure Judged (ext : Externals) (input : CrossCheckInput) (findings : List Finding)
    (verdicts : List (Option Finding)) : Prop where
  returned : crossCheck ext input = some findings
  judged : input.judgedSets.mapM (verdictOn ext input) = some verdicts
  reported : findings.filter isVerdict = verdicts.reduceOption

section Judged
variable {input : CrossCheckInput}

lemma isVerdict_iff {finding : Finding} :
    isVerdict finding = true ↔ ∃ runtime, isVerdictOn runtime finding = true := by
  rw [isVerdict, List.any_eq_true]
  constructor
  · rintro ⟨runtime, -, h⟩
    exact ⟨runtime, h⟩
  · rintro ⟨runtime, h⟩
    exact ⟨runtime, by cases runtime <;> simp, h⟩

lemma isVerdict_eq_false {finding : Finding}
    (h : ∀ runtime, isVerdictOn runtime finding = false) : isVerdict finding = false := by
  rw [← Bool.not_eq_true, isVerdict_iff]
  rintro ⟨runtime, hr⟩
  simp [h runtime] at hr

/-- The verdicts among one runtime's findings are those on its judged sets. -/
lemma filter_isVerdict_runtimeFindings {publicIndex : CertificateIndex} {runtime : Runtime}
    {findings : List Finding}
    (hpublic : certificateIndex ext input.publicRootPems = some publicIndex)
    (h : runtimeFindings ext runtime (input.outcomesOf runtime)
      (locallyAdded ext input.osStores publicIndex) input.observedAnchors
      (osCoverage ext input.osStores) = some findings) :
    ∃ verdicts, (input.judgedSetsOf runtime).mapM (verdictOn ext input) = some verdicts ∧
      findings.filter isVerdict = verdicts.reduceOption := by
  obtain ⟨about, verdicts, rfl, habout, hverdicts⟩ := runtimeFindings_eq_some h
  refine ⟨verdicts, ?_, ?_⟩
  · have hon : verdictOn ext input = setVerdict ext (locallyAdded ext input.osStores publicIndex)
        input.observedAnchors (osCoverage ext input.osStores) := by
      funext set
      rw [verdictOn, hpublic]
      rfl
    rw [CrossCheckInput.judgedSetsOf, hon]
    rcases hverdicts with ⟨hnone, rfl⟩ | ⟨hasks, hlevel, hv⟩
    · rw [if_pos]
      · rfl
      · rw [Bool.or_eq_true, decide_eq_true_eq]
        exact hnone
    · rw [if_neg]
      · exact hv
      · rw [hasks, Bool.false_or, decide_eq_true_eq]
        exact hlevel
  · have hstores : about.filter isVerdict = [] :=
      List.filter_eq_nil_iff.mpr fun finding hm => by
        simp [isVerdict_eq_false (habout finding hm).isVerdictOn_eq_false]
    have hall : verdicts.reduceOption.filter isVerdict = verdicts.reduceOption := by
      refine List.filter_eq_self.mpr fun finding hm => isVerdict_iff.mpr ⟨runtime, ?_⟩
      rcases hverdicts with ⟨-, rfl⟩ | ⟨-, -, hv⟩
      · simp at hm
      · exact isVerdictOn_of_mem_verdicts hv hm
    rw [List.filter_append, hstores, hall, List.nil_append]

lemma exists_verdicts {publicIndex : CertificateIndex} {runtimes : List Runtime}
    {findings : List (List Finding)}
    (hpublic : certificateIndex ext input.publicRootPems = some publicIndex)
    (h : (runtimes.mapM fun runtime => runtimeFindings ext runtime (input.outcomesOf runtime)
      (locallyAdded ext input.osStores publicIndex) input.observedAnchors
      (osCoverage ext input.osStores)) = some findings) :
    ∃ verdicts, (runtimes.flatMap input.judgedSetsOf).mapM (verdictOn ext input) = some verdicts ∧
      findings.flatten.filter isVerdict = verdicts.reduceOption := by
  rw [OptionMap.mapM_eq_some_iff] at h
  induction h with
  | nil => exact ⟨[], rfl, rfl⟩
  | cons hown _ ih =>
    obtain ⟨own, ho, hfo⟩ := filter_isVerdict_runtimeFindings hpublic hown
    obtain ⟨rest, hr, hfr⟩ := ih
    refine ⟨own ++ rest, ?_, ?_⟩
    · rw [List.flatMap_cons, List.mapM_append, ho, hr]
      rfl
    · rw [List.flatten_cons, List.filter_append, hfo, hfr, List.reduceOption_append]

/-- Whatever the cross-check returns, its verdicts are those on the judged sets. -/
theorem exists_judged {findings : List Finding} (h : crossCheck ext input = some findings) :
    ∃ verdicts, Judged ext input findings verdicts := by
  obtain ⟨publicIndex, runtimes, hpublic, hruntimes, hfindings⟩ := crossCheck_eq_some h
  obtain ⟨verdicts, hv, hf⟩ := exists_verdicts hpublic hruntimes
  refine ⟨verdicts, h, hv, ?_⟩
  rw [hfindings, filter_crossCheck, hf]
  exact fun finding hm =>
    isVerdict_eq_false (isVerdictOn_of_mem_otherIds (mem_otherIds_of_surrounding hm))

end Judged
/-- A verdict, in outline, is not harsher than one before it: it is no graver, says that a root is
missing only where that one did, and counts no more of them. -/
def NotHarsher (before after : Option Outline) : Prop :=
  ∀ later ∈ after, ∃ earlier ∈ before,
    severityRank earlier.severity ≤ severityRank later.severity ∧
    (∀ runtime, later.id = (runtimeIds runtime).missingRoot →
      earlier.id = (runtimeIds runtime).missingRoot) ∧
    ∀ count : ℕ, later.missingAnchors = [toString count] →
      ∃ larger : ℕ, earlier.missingAnchors = [toString larger] ∧ count ≤ larger

/-- The same set of roots, and perhaps more of them. -/
def GrownSet (set set' : TrustSet) : Prop := ∃ pems, set' = { set with pems } ∧ set.pems ⊆ pems

/-- The other input asks no more of each set: no more anchors are held, no more were observed, and
the sets hold no fewer. -/
structure Milder (ext : Externals) (input input' : CrossCheckInput) : Prop where
  held : ∀ anchor, HeldAnchor ext input'.osStores anchor → HeldAnchor ext input.osStores anchor
  publicRootPems : input'.publicRootPems = input.publicRootPems
  observedAnchors : input'.observedAnchors ⊆ input.observedAnchors
  judgedSets : List.Forall₂ GrownSet input.judgedSets input'.judgedSets

section NotHarsher
variable {set set' : TrustSet}

lemma rootsPresent_ne_missingRoot (runtime runtime' : Runtime) :
    (runtimeIds runtime).rootsPresent ≠ (runtimeIds runtime').missingRoot := by
  cases runtime <;> cases runtime' <;> decide

/-- What keeps a missing root from blocking still does where less is matched. -/
lemma missingRoot_softened {strength strength' : Option MatchStrength} {part : Bool}
    (hstrength : strength'.isSome → strength.isSome) (h : (strength.isNone || part) = true) :
    (strength'.isNone || part) = true := by
  rw [Bool.or_eq_true, Option.isNone_iff_eq_none, ← Option.not_isSome_iff_eq_none] at h ⊢
  exact h.imp_left fun hnone hsome => hnone (hstrength hsome)

/-- With fewer anchors missing, and a match only where there was one, the outline of a verdict is
not harsher. -/
lemma notHarsher_verdictOutline {missing missing' : ℕ} {strength strength' : Option MatchStrength}
    (hset : GrownSet set set') (hmissing : missing' ≤ missing)
    (hstrength : strength'.isSome → strength.isSome) :
    NotHarsher (verdictOutline set missing strength) (verdictOutline set' missing' strength') := by
  obtain ⟨pems, rfl, -⟩ := hset
  intro later hlater
  unfold verdictOutline at hlater ⊢
  by_cases hpos' : 0 < missing'
  · rw [if_pos hpos', Option.mem_some_iff] at hlater
    subst hlater
    rw [if_pos (hpos'.trans_le hmissing)]
    refine ⟨_, rfl, ?_, fun _ hid => hid, ?_⟩
    · dsimp only
      split_ifs with hsoft hsoft'
      · exact le_rfl
      · exact absurd (missingRoot_softened hstrength hsoft) hsoft'
      · exact severityRank_blocker_le
      · exact le_rfl
    · intro count hcount
      have hc := Text.toString_nat_injective (List.singleton_inj.mp hcount)
      exact ⟨missing, rfl, hc ▸ hmissing⟩
  · rw [if_neg hpos'] at hlater
    split_ifs at hlater with hpart
    · cases hlater
    · rw [Option.mem_some_iff] at hlater
      subst hlater
      have hid : ∀ runtime, (runtimeIds set.runtime).rootsPresent =
          (runtimeIds runtime).missingRoot → False := rootsPresent_ne_missingRoot _
      by_cases hpos : 0 < missing
      · rw [if_pos hpos]
        exact ⟨_, rfl, severityRank_le_ok, fun runtime h => (hid runtime h).elim, by simp⟩
      · rw [if_neg hpos, if_neg hpart]
        exact ⟨_, rfl, le_rfl, fun runtime h => (hid runtime h).elim, by simp⟩

/-- One set, judged by the milder input. -/
theorem notHarsher_verdictOn {input input' : CrossCheckInput} {verdict verdict' : Option Finding}
    (hbytes : ReadsBytes ext) (h : Milder ext input input') (hset : GrownSet set set')
    (hv : verdictOn ext input set = some verdict)
    (hv' : verdictOn ext input' set' = some verdict') :
    NotHarsher (verdict.map outline) (verdict'.map outline) := by
  obtain ⟨publicIndex, hpublic, hv⟩ := Option.bind_eq_some_iff.mp hv
  rw [verdictOn, h.publicRootPems, hpublic, Option.bind_some] at hv'
  obtain ⟨index, hindex, -⟩ := Option.map_eq_some_iff.mp hv
  obtain ⟨index', hindex', -⟩ := Option.map_eq_some_iff.mp hv'
  obtain ⟨_, hsome, ho⟩ := @outline_setVerdict ext set
    (locallyAdded ext input.osStores publicIndex) input.observedAnchors
    (osCoverage ext input.osStores) index hindex
  obtain ⟨_, hsome', ho'⟩ := @outline_setVerdict ext set'
    (locallyAdded ext input'.osStores publicIndex) input'.observedAnchors
    (osCoverage ext input'.osStores) index' hindex'
  rw [Option.some.inj (hv.symm.trans hsome), Option.some.inj (hv'.symm.trans hsome'), ho, ho']
  have hsub : missingFrom (locallyAdded ext input'.osStores publicIndex) index' ⊆
      missingFrom (locallyAdded ext input.osStores publicIndex) index := by
    obtain ⟨pems, rfl, hpems⟩ := hset
    intro anchor ha
    rw [mem_missingFrom hindex', mem_locallyAdded_iff hbytes hpublic] at ha
    rw [mem_missingFrom hindex, mem_locallyAdded_iff hbytes hpublic]
    obtain ⟨⟨hheld, hroot⟩, hlacks⟩ := ha
    refine ⟨⟨h.held anchor hheld, hroot⟩, ?_⟩
    rintro ⟨pem, hp, hc⟩
    exact hlacks ⟨pem, hpems hp, hc⟩
  have hnodup : (missingFrom (locallyAdded ext input'.osStores publicIndex) index').Nodup :=
    (List.Nodup.of_map _ nodup_der_locallyAdded).filter _
  apply notHarsher_verdictOutline hset (List.subperm_of_subset hnodup hsub).length_le
  rw [Option.isSome_map, Option.isSome_map]
  exact correlate_isSome_mono hsub h.observedAnchors

/-- The milder input judges no set more harshly. -/
theorem notHarsher_of_milder {input input' : CrossCheckInput} {findings findings' : List Finding}
    {verdicts verdicts' : List (Option Finding)} (hbytes : ReadsBytes ext)
    (h : Milder ext input input') (hv : Judged ext input findings verdicts)
    (hv' : Judged ext input' findings' verdicts') :
    List.Forall₂ (fun before after => NotHarsher (before.map outline) (after.map outline))
      verdicts verdicts' := by
  apply OptionMap.forall₂_of_mapM h.judgedSets hv.judged hv'.judged
  intro set set' verdict verdict' hset hs hs'
  exact notHarsher_verdictOn hbytes h hset hs hs'

end NotHarsher
/-- One certificate more in a runtime's store that was read. -/
def RuntimeCertificateAdded (pem : String) (input input' : CrossCheckInput) : Prop :=
  ∃ stores, input' = { input with runtimeStores := stores } ∧
    Changed (fun store store' : RuntimeStoreOutcome => store.failure = none ∧
      ∃ pems, store' = { store with pems } ∧ Inserted pem store.pems pems)
      input.runtimeStores stores

/-- One certificate more in a platform store that was read. -/
def OsCertificateAdded (pem : String) (input input' : CrossCheckInput) : Prop :=
  ∃ stores, input' = { input with osStores := stores } ∧
    Changed (fun store store' : TrustStoreOutcome => store.failure = none ∧
      ∃ pems, store' = { store with pems } ∧ Inserted pem store.pems pems)
      input.osStores stores

/-- One anchor more was observed. -/
def AnchorObserved (anchor : ObservedAnchor) (input input' : CrossCheckInput) : Prop :=
  ∃ observed, input' = input.withObserved observed ∧
    Inserted anchor input.observedAnchors observed

/-- The same read of a runtime's store, and perhaps more blocks in it. -/
def GrownRuntimeRead (store store' : RuntimeStoreOutcome) : Prop :=
  ∃ pems, store' = { store with pems } ∧ store.pems ⊆ pems

section Sets
variable {input input' : CrossCheckInput} {pem : String}
  {outcomes outcomes' : List RuntimeStoreOutcome}

lemma onlyBlocks_grownRuntimeRead : OnlyBlocks GrownRuntimeRead := by
  rintro store _ ⟨pems, rfl, -⟩
  exact ⟨pems, rfl⟩

/-- More blocks in the stores are more blocks in the sets, and no other sets. -/
lemma forall₂_trustSets {runtime : Runtime}
    (h : List.Forall₂ GrownRuntimeRead outcomes outcomes') :
    List.Forall₂ GrownSet (trustSets runtime outcomes) (trustSets runtime outcomes') := by
  have hadditions : Shuffled GrownRuntimeRead (additions outcomes) (additions outcomes') :=
    .of_forall₂ (onlyBlocks_grownRuntimeRead.forall₂.additions h)
  have hpems : (additions outcomes).flatMap RuntimeStoreOutcome.pems ⊆
      (additions outcomes').flatMap RuntimeStoreOutcome.pems := by
    intro pem hm
    obtain ⟨store, hs, hp⟩ := List.mem_flatMap.mp hm
    obtain ⟨_, hs', pems, rfl, hsub⟩ := hadditions.exists_mem hs
    exact List.mem_flatMap.mpr ⟨_, hs', hsub hp⟩
  have hpartial := @OnlyBlocks.any_eq _ _ _ RuntimeStoreOutcome.isPartial
    onlyBlocks_grownRuntimeRead (fun _ _ => rfl) hadditions
  refine List.rel_map ?_ (onlyBlocks_grownRuntimeRead.forall₂.bases h)
  rintro base _ ⟨pems, rfl, hsub⟩
  refine ⟨pems ++ (additions outcomes').flatMap RuntimeStoreOutcome.pems, ?_, ?_⟩
  · rw [trustSetOf, trustSetOf, hpartial]
  · exact List.append_subset.mpr ⟨List.subset_append_of_subset_left _ hsub,
      List.subset_append_of_subset_right _ hpems⟩

/-- The same sets are judged, each grown or as it was. -/
lemma forall₂_judgedSets {stores : List RuntimeStoreOutcome}
    (h : List.Forall₂ GrownRuntimeRead input.runtimeStores stores) :
    List.Forall₂ GrownSet input.judgedSets
      { input with runtimeStores := stores : CrossCheckInput }.judgedSets := by
  apply List.rel_flatMap (R := Eq) (List.forall₂_refl _)
  rintro runtime _ rfl
  have houtcomes : List.Forall₂ GrownRuntimeRead (input.outcomesOf runtime)
      (CrossCheckInput.outcomesOf { input with runtimeStores := stores } runtime) :=
    onlyBlocks_grownRuntimeRead.forall₂.filter (fun _ _ => rfl) h
  have hasks : asksPlatform (input.outcomesOf runtime) =
      asksPlatform (CrossCheckInput.outcomesOf { input with runtimeStores := stores } runtime) :=
    onlyBlocks_grownRuntimeRead.any_eq (fun _ _ => rfl) (.of_forall₂ houtcomes)
  unfold CrossCheckInput.judgedSetsOf
  rw [hasks]
  split_ifs
  · exact .nil
  · exact forall₂_trustSets houtcomes

end Sets
section Monotone
variable {input input' : CrossCheckInput} {pem : String}

/-- One certificate more in a runtime's store asks no more of any set. -/
lemma milder_of_runtimeCertificateAdded (h : RuntimeCertificateAdded pem input input') :
    Milder ext input input' := by
  obtain ⟨stores, rfl, hchanged⟩ := h
  refine ⟨fun _ ha => ha, rfl, List.Subset.refl _, forall₂_judgedSets ?_⟩
  refine hchanged.forall₂.imp fun store store' hs => ?_
  cases hs with
  | refl => exact ⟨store.pems, rfl, List.Subset.refl _⟩
  | single hs =>
    obtain ⟨-, pems, rfl, hinserted⟩ := hs
    exact ⟨pems, rfl, hinserted.subset⟩

lemma forall₂_grownSet_refl (sets : List TrustSet) : List.Forall₂ GrownSet sets sets :=
  List.forall₂_same.mpr fun set _ => ⟨set.pems, rfl, List.Subset.refl _⟩

/-- Without it, one certificate more in a platform store, less is asked of the same sets. -/
lemma milder_of_osCertificateAdded (h : OsCertificateAdded pem input input') :
    Milder ext input' input ∧ input'.judgedSets = input.judgedSets := by
  obtain ⟨stores, rfl, hchanged⟩ := h
  have hgrown : Shuffled GrownOsRead input.osStores stores := by
    refine .of_forall₂ (hchanged.forall₂.imp fun store store' hs => ?_)
    cases hs with
    | refl => exact ⟨store.pems, rfl, List.Subset.refl _⟩
    | single hs =>
      obtain ⟨-, pems, rfl, hinserted⟩ := hs
      exact ⟨pems, rfl, hinserted.subset⟩
  have hlevel : (osCoverage ext stores).level = (osCoverage ext input.osStores).level := by
    refine (level_congr ?_ hgrown).symm
    rintro store _ ⟨pems, rfl, -⟩
    rfl
  have hsets : CrossCheckInput.judgedSets { input with osStores := stores } = input.judgedSets := by
    have hone : CrossCheckInput.judgedSetsOf { input with osStores := stores } =
        input.judgedSetsOf := by
      funext runtime
      unfold CrossCheckInput.judgedSetsOf
      change osEvidenceLevel stores = osEvidenceLevel input.osStores at hlevel
      rw [hlevel]
      rfl
    rw [CrossCheckInput.judgedSets, hone]
    rfl
  refine ⟨⟨fun _ => heldAnchor_mono hgrown, rfl, List.Subset.refl _, ?_⟩, hsets⟩
  rw [hsets]
  exact forall₂_grownSet_refl _

/-- So is it without one of the anchors that were observed. -/
lemma milder_of_anchorObserved {anchor : ObservedAnchor} (h : AnchorObserved anchor input input') :
    Milder ext input' input ∧ input'.judgedSets = input.judgedSets := by
  obtain ⟨observed, rfl, hinserted⟩ := h
  refine ⟨⟨fun _ ha => ha, rfl, ?_, forall₂_grownSet_refl _⟩, rfl⟩
  exact hinserted.subset

lemma RuntimeCertificateAdded.allParse (h : RuntimeCertificateAdded pem input input')
    (hpem : (ext.x509 pem).isSome)
    (hstores : ∀ outcome ∈ input.runtimeStores, AllParse ext outcome.pems) :
    ∀ outcome ∈ input'.runtimeStores, AllParse ext outcome.pems := by
  obtain ⟨stores, rfl, hchanged⟩ := h
  intro outcome ho
  rcases hchanged.mem ho with ho | ⟨store, hs, -, pems, rfl, hinserted⟩
  · exact hstores outcome ho
  · intro other hother
    rcases hinserted.mem_iff.mp hother with rfl | hother
    · exact hpem
    · exact hstores store hs other hother

/-- Following the remediation helps, and what is learned of the machine only adds to what is
reported: one certificate more in a runtime's store that was read makes no verdict harsher, and
one more in a platform store that was read, or one more anchor observed, makes none milder. -/
theorem crossCheck_monotone (ext : Externals) (input : CrossCheckInput) (hbytes : ReadsBytes ext)
    (hpublic : AllParse ext input.publicRootPems)
    (hstores : ∀ outcome ∈ input.runtimeStores, AllParse ext outcome.pems) :
    (∀ pem input', RuntimeCertificateAdded pem input input' → (ext.x509 pem).isSome →
      ∃ findings findings' verdicts verdicts', Judged ext input findings verdicts ∧
        Judged ext input' findings' verdicts' ∧
        List.Forall₂ GrownSet input.judgedSets input'.judgedSets ∧
        List.Forall₂ (fun before after => NotHarsher (before.map outline) (after.map outline))
          verdicts verdicts') ∧
    ∀ input', (∃ pem, OsCertificateAdded pem input input') ∨
        (∃ anchor, AnchorObserved anchor input input') →
      ∃ findings findings' verdicts verdicts', Judged ext input findings verdicts ∧
        Judged ext input' findings' verdicts' ∧ input'.judgedSets = input.judgedSets ∧
        List.Forall₂ (fun before after => NotHarsher (after.map outline) (before.map outline))
          verdicts verdicts' := by
  obtain ⟨findings, hf⟩ := crossCheck_of_allParse hpublic hstores
  obtain ⟨verdicts, hv⟩ := exists_judged hf
  constructor
  · intro pem input' hadded hpem
    have hmilder : Milder ext input input' := milder_of_runtimeCertificateAdded hadded
    obtain ⟨findings', hf'⟩ := crossCheck_of_allParse (hmilder.publicRootPems.symm ▸ hpublic)
      (hadded.allParse hpem hstores)
    obtain ⟨verdicts', hv'⟩ := exists_judged hf'
    exact ⟨findings, findings', verdicts, verdicts', hv, hv', hmilder.judgedSets,
      notHarsher_of_milder hbytes hmilder hv hv'⟩
  · intro input' hmore
    have hmilder : Milder ext input' input ∧ input'.judgedSets = input.judgedSets := by
      rcases hmore with ⟨pem, hadded⟩ | ⟨anchor, hobserved⟩
      · exact milder_of_osCertificateAdded hadded
      · exact milder_of_anchorObserved hobserved
    have hsame : input'.runtimeStores = input.runtimeStores := by
      rcases hmore with ⟨pem, stores, rfl, -⟩ | ⟨anchor, observed, rfl, -⟩
      · rfl
      · rfl
    obtain ⟨findings', hf'⟩ := crossCheck_of_allParse (hmilder.1.publicRootPems ▸ hpublic)
      (hsame.symm ▸ hstores)
    obtain ⟨verdicts', hv'⟩ := exists_judged hf'
    exact ⟨findings, findings', verdicts, verdicts', hv, hv', hmilder.2,
      (notHarsher_of_milder hbytes hmilder.1 hv' hv).flip⟩

/-- The local root imported where it was missing: Node's own bundle now holds it. -/
def importedInput : CrossCheckInput :=
  { localRootInput with
    runtimeStores :=
      [⟨.node, .nodeBundled, none, [], .standalone, [fixturePem], none, false, none, none⟩,
        ⟨.java, .javaCacerts, some "/opt/jdk/lib/security/cacerts", [], .standalone, [fixturePem],
          some .pkcs12, false, none, none⟩] }

lemma runtimeCertificateAdded_imported :
    RuntimeCertificateAdded fixturePem localRootInput importedInput := by
  refine ⟨importedInput.runtimeStores, rfl, @Changed.intro _ _ [] _ _ _ ⟨rfl, _, rfl, ?_⟩⟩
  exact @Inserted.intro _ _ [] []

/-- An anchor observed on the machine of the local root. -/
def observedRoot : ObservedAnchor :=
  ⟨some fixtureDer, "cn=portcall synthetic cert dir root one",
    "cn=portcall synthetic cert dir root one", "api.example.com", .direct, .private⟩

lemma anchorObserved_root : AnchorObserved observedRoot localRootInput
    (localRootInput.withObserved [observedRoot]) :=
  ⟨_, rfl, @Inserted.intro _ _ [] []⟩

/-- The import helps Node, and the observation does not help it. -/
theorem crossCheck_monotone_imported :
    (∃ findings findings' verdicts verdicts',
      Judged fixtureExternals localRootInput findings verdicts ∧
      Judged fixtureExternals importedInput findings' verdicts' ∧
      List.Forall₂ GrownSet localRootInput.judgedSets importedInput.judgedSets ∧
      List.Forall₂ (fun before after => NotHarsher (before.map outline) (after.map outline))
        verdicts verdicts') ∧
    ∃ findings findings' verdicts verdicts',
      Judged fixtureExternals localRootInput findings verdicts ∧
      Judged fixtureExternals (localRootInput.withObserved [observedRoot]) findings' verdicts' ∧
      (localRootInput.withObserved [observedRoot]).judgedSets = localRootInput.judgedSets ∧
      List.Forall₂ (fun before after => NotHarsher (after.map outline) (before.map outline))
        verdicts verdicts' := by
  have h := crossCheck_monotone fixtureExternals localRootInput readsBytes_fixture
    (by simp [AllParse, localRootInput]) allParse_localRootInput
  refine ⟨h.1 fixturePem importedInput runtimeCertificateAdded_imported ?_,
    h.2 _ (Or.inr ⟨observedRoot, anchorObserved_root⟩)⟩
  rw [x509_fixturePem]
  rfl

end Monotone
end Portcall.Truststore
