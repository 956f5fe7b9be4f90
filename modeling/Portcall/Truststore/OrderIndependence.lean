import Portcall.Tls.Interleaving
import Portcall.Truststore.Comparison

/-! The cross-check does not depend on the order of what it is given: not on the order in which
the captures completed, nor on that of the stores, of the blocks in them, or of the public
roots. -/
namespace Portcall.Truststore
open Rearrangement
variable {ext : Externals}

/-- The same read of a platform store, its blocks in some other order. -/
def SameOsRead (store store' : TrustStoreOutcome) : Prop :=
  ∃ pems, store' = { store with pems } ∧ store.pems.Perm pems

/-- The same read of a runtime's store, its blocks in some other order. -/
def SameRuntimeRead (store store' : RuntimeStoreOutcome) : Prop :=
  ∃ pems, store' = { store with pems } ∧ store.pems.Perm pems

/-- The same set of roots, its blocks in some other order. -/
def SameSet (set set' : TrustSet) : Prop :=
  ∃ pems, set' = { set with pems } ∧ set.pems.Perm pems

/-- The same input in some other order. -/
structure Reordered (input input' : CrossCheckInput) : Prop where
  osStores : Shuffled SameOsRead input.osStores input'.osStores
  runtimeStores : Shuffled SameRuntimeRead input.runtimeStores input'.runtimeStores
  publicRootPems : input.publicRootPems.Perm input'.publicRootPems
  observedAnchors : input.observedAnchors.Perm input'.observedAnchors
  runtimes : input'.runtimes = input.runtimes
  osCommands : input'.osCommands = input.osCommands

section Sets
variable {runtime : Runtime} {outcomes outcomes' : List RuntimeStoreOutcome}

lemma onlyBlocks_sameRuntimeRead : OnlyBlocks SameRuntimeRead := by
  rintro store _ ⟨pems, rfl, -⟩
  exact ⟨pems, rfl⟩

/-- The sets a runtime consults are the same, whatever the order of its stores. -/
theorem shuffled_trustSets (h : Shuffled SameRuntimeRead outcomes outcomes') :
    Shuffled SameSet (trustSets runtime outcomes) (trustSets runtime outcomes') := by
  have hadditions := onlyBlocks_sameRuntimeRead.shuffled.additions h
  have hpems : ((additions outcomes).flatMap RuntimeStoreOutcome.pems).Perm
      ((additions outcomes').flatMap RuntimeStoreOutcome.pems) := by
    apply hadditions.perm_flatMap
    rintro store _ ⟨pems, rfl, hperm⟩
    exact hperm
  have hpartial := @OnlyBlocks.any_eq _ _ _ RuntimeStoreOutcome.isPartial
    onlyBlocks_sameRuntimeRead (fun _ _ => rfl) hadditions
  apply (onlyBlocks_sameRuntimeRead.shuffled.bases h).map
  rintro base _ ⟨pems, rfl, hperm⟩
  refine ⟨_, ?_, hperm.append hpems⟩
  rw [trustSetOf, trustSetOf, hpartial]

end Sets

section Held

lemma holdsDer_congr {pems pems' : List String} (h : pems.Perm pems') (der : List UInt8) :
    HoldsDer ext pems der ↔ HoldsDer ext pems' der := by
  simp only [HoldsDer, h.mem_iff]

lemma SameOsRead.grown {store store' : TrustStoreOutcome} (h : SameOsRead store store') :
    GrownOsRead store store' := by
  obtain ⟨pems, rfl, hperm⟩ := h
  exact ⟨pems, rfl, hperm.subset⟩

lemma SameOsRead.symm {store store' : TrustStoreOutcome} (h : SameOsRead store store') :
    SameOsRead store' store := by
  obtain ⟨pems, rfl, hperm⟩ := h
  exact ⟨store.pems, rfl, hperm.symm⟩

/-- The anchors this machine adds are the same. -/
theorem locallyAdded_perm {osStores osStores' : List TrustStoreOutcome}
    {publicRootPems publicRootPems' : List String} {publicIndex publicIndex' : CertificateIndex}
    (hbytes : ReadsBytes ext) (hstores : Shuffled SameOsRead osStores osStores')
    (hroots : publicRootPems.Perm publicRootPems')
    (hpublic : certificateIndex ext publicRootPems = some publicIndex)
    (hpublic' : certificateIndex ext publicRootPems' = some publicIndex') :
    (locallyAdded ext osStores publicIndex).Perm (locallyAdded ext osStores' publicIndex') := by
  rw [List.perm_ext_iff_of_nodup (List.Nodup.of_map _ nodup_der_locallyAdded)
    (List.Nodup.of_map _ nodup_der_locallyAdded)]
  intro anchor
  rw [mem_locallyAdded_iff hbytes hpublic, mem_locallyAdded_iff hbytes hpublic',
    holdsDer_congr hroots]
  refine and_congr_left fun _ => ⟨?_, ?_⟩
  · exact heldAnchor_mono (hstores.imp fun _ _ => SameOsRead.grown)
  · exact heldAnchor_mono (hstores.symm fun _ _ hs => hs.symm.grown)

end Held

section Verdict
variable {added added' : List Anchor} {observed observed' : List ObservedAnchor}
  {coverage coverage' : OsCoverage} {set set' : TrustSet}

/-- The verdict on a set, in outline, does not depend on any order. -/
theorem outline_setVerdict_congr (hset : SameSet set set') (hadded : added.Perm added')
    (hobserved : observed.Perm observed') :
    (setVerdict ext added observed coverage set).join.map outline =
      (setVerdict ext added' observed' coverage' set').join.map outline := by
  obtain ⟨pems, rfl, hperm⟩ := hset
  have hparse : AllParse ext set.pems ↔ AllParse ext pems := by
    simp only [AllParse, hperm.mem_iff]
  by_cases hall : AllParse ext set.pems
  · obtain ⟨index, hindex⟩ := Option.isSome_iff_exists.mp
      ((certificateIndex_isSome_iff ext _).mpr hall)
    obtain ⟨index', hindex'⟩ := Option.isSome_iff_exists.mp
      ((certificateIndex_isSome_iff ext _).mpr (hparse.mp hall))
    obtain ⟨verdict, hv, ho⟩ := @outline_setVerdict ext set added observed coverage index hindex
    obtain ⟨verdict', hv', ho'⟩ :=
      @outline_setVerdict ext { set with pems } added' observed' coverage' index' hindex'
    have hmissing : (missingFrom added index).Perm (missingFrom added' index') := by
      have hsame : ∀ der, index.hasCertificate der = index'.hasCertificate der := by
        intro der
        rw [Bool.eq_iff_iff, hasCertificate_iff hindex, hasCertificate_iff hindex',
          holdsDer_congr hperm]
      simp only [missingFrom, hsame]
      exact hadded.filter _
    rw [hv, hv', Option.join_some, Option.join_some, ho, ho', hmissing.length_eq,
      strength_correlate_congr (fun _ => hmissing.mem_iff) fun _ => hobserved.mem_iff]
    rfl
  · have hnone : setVerdict ext added observed coverage set = none := by
      rw [← Option.not_isSome_iff_eq_none, setVerdict_isSome_iff]
      exact hall
    have hnone' : setVerdict ext added' observed' coverage' { set with pems } = none := by
      rw [← Option.not_isSome_iff_eq_none, setVerdict_isSome_iff]
      exact fun h => hall (hparse.mpr h)
    rw [hnone, hnone']

end Verdict
section OsFindings
variable {commands : List TrustStoreCommand} {keys keys' : List String}

lemma outline_readFinding (store : TrustStoreOutcome) (parsed : StoreAnchors) :
    outline (readFinding store parsed keys) = ⟨"truststore.os.read", .ok, [], []⟩ := by
  refine outline_of_labels fun item hm => ?_
  simp only [readFinding, List.mem_append, Option.mem_toList, Option.map_eq_some_iff,
    List.mem_ite_nil_right, List.mem_cons, List.not_mem_nil, or_false] at hm
  obtain (((rfl | rfl) | ⟨_, -, rfl⟩) | rfl | rfl) | ⟨-, rfl⟩ := hm <;> simp

/-- What is said about a platform store that was not read does not look at its blocks. -/
lemma storeFinding_of_failure {store store' : TrustStoreOutcome} (h : SameOsRead store store')
    (hfailure : store.failure ≠ none) :
    storeFinding ext commands keys store = storeFinding ext commands keys' store' := by
  obtain ⟨pems, rfl, -⟩ := h
  unfold storeFinding
  dsimp only
  cases hf : store.failure with
  | none => exact absurd hf hfailure
  | some failure => cases failure <;> rfl

lemma outline_storeFinding {store store' : TrustStoreOutcome} (h : SameOsRead store store') :
    (storeFinding ext commands keys store).map outline =
      (storeFinding ext commands keys' store').map outline := by
  by_cases hfailure : store.failure = none
  · obtain ⟨pems, rfl, -⟩ := h
    simp only [storeFinding, hfailure, Option.map_some, outline_readFinding]
  · rw [storeFinding_of_failure h hfailure]

theorem outline_osFindings {osStores osStores' : List TrustStoreOutcome}
    (h : Shuffled SameOsRead osStores osStores') :
    ((osFindings ext osStores commands keys).map outline).Perm
      ((osFindings ext osStores' commands keys').map outline) := by
  rw [osFindings, osFindings, List.map_append, List.map_append, List.map_filterMap,
    List.map_filterMap, h.isEmpty_eq]
  exact (h.perm_filterMap fun _ _ hs => outline_storeFinding hs).append_right _

end OsFindings

section Runtime
variable {runtime : Runtime} {outcomes outcomes' : List RuntimeStoreOutcome}
  {added added' : List Anchor} {observed observed' : List ObservedAnchor}
  {coverage coverage' : OsCoverage}

/-- What is said about a runtime's store counts its blocks at most. -/
lemma outcomeFindings_congr {store store' : RuntimeStoreOutcome}
    (h : SameRuntimeRead store store') :
    outcomeFindings runtime store = outcomeFindings runtime store' := by
  obtain ⟨pems, rfl, hperm⟩ := h
  simp only [outcomeFindings, extraCaFindings, javaStoreUnreadableFinding, hperm.length_eq]

lemma outline_storeNotFoundFinding (searched : List String) :
    outline (storeNotFoundFinding runtime searched) =
      ⟨(runtimeIds runtime).storeNotFound, .unknown, [], []⟩ := by
  refine outline_of_labels fun item hm => ?_
  obtain ⟨path, -, rfl⟩ := List.mem_map.mp hm
  simp

/-- One runtime's findings, in outline. -/
theorem outline_runtimeFindings {findings findings' : List Finding}
    (houtcomes : Shuffled SameRuntimeRead outcomes outcomes') (hadded : added.Perm added')
    (hobserved : observed.Perm observed') (hlevel : coverage.level = coverage'.level)
    (h : runtimeFindings ext runtime outcomes added observed coverage = some findings)
    (h' : runtimeFindings ext runtime outcomes' added' observed' coverage' = some findings') :
    (findings.map outline).Perm (findings'.map outline) := by
  have hstores : ((outcomes.flatMap (outcomeFindings runtime)).map outline).Perm
      ((outcomes'.flatMap (outcomeFindings runtime)).map outline) := by
    refine (houtcomes.perm_flatMap fun store store' hs => ?_).map _
    rw [outcomeFindings_congr hs]
  have hasks : asksPlatform outcomes = asksPlatform outcomes' :=
    onlyBlocks_sameRuntimeRead.any_eq (fun _ _ => rfl) houtcomes
  have hlocated : (outcomes.any fun outcome =>
      outcome.failure ≠ some .notConfigured && outcome.failure ≠ some .notFound) =
      outcomes'.any fun outcome =>
        outcome.failure ≠ some .notConfigured && outcome.failure ≠ some .notFound :=
    onlyBlocks_sameRuntimeRead.any_eq (fun _ _ => rfl) houtcomes
  have hsets := @shuffled_trustSets runtime _ _ houtcomes
  unfold runtimeFindings at h h'
  dsimp only at h h'
  rw [hasks, hsets.isEmpty_eq, hlevel, hlocated] at h
  split_ifs at h h' with hasks' hempty' hlocated' hlevel'
  · cases h
    cases h'
    rw [List.map_append, List.map_append]
    exact hstores.append_right _
  · cases h
    cases h'
    rw [List.append_nil, List.append_nil]
    exact hstores
  · cases h
    cases h'
    rw [List.map_append, List.map_append, List.map_singleton, List.map_singleton,
      outline_storeNotFoundFinding, outline_storeNotFoundFinding]
    exact hstores.append_right _
  · cases h
    cases h'
    exact hstores
  · obtain ⟨verdicts, hverdicts, rfl⟩ := Option.map_eq_some_iff.mp h
    obtain ⟨verdicts', hverdicts', rfl⟩ := Option.map_eq_some_iff.mp h'
    rw [List.map_append, List.map_append, OptionMap.reduceOption_of_mapM hverdicts,
      OptionMap.reduceOption_of_mapM hverdicts', List.map_filterMap, List.map_filterMap]
    refine hstores.append (hsets.perm_filterMap fun set set' hset => ?_)
    exact outline_setVerdict_congr hset hadded hobserved

end Runtime
section CrossCheck
variable {input input' : CrossCheckInput}

lemma Reordered.outcomesOf (h : Reordered input input') (runtime : Runtime) :
    Shuffled SameRuntimeRead (input.outcomesOf runtime) (input'.outcomesOf runtime) :=
  onlyBlocks_sameRuntimeRead.shuffled.filter (fun _ _ => rfl) h.runtimeStores

/-- Two cross-checks of one input that both return say the same. -/
theorem outline_crossCheck {findings findings' : List Finding} (hbytes : ReadsBytes ext)
    (h : Reordered input input') (hf : crossCheck ext input = some findings)
    (hf' : crossCheck ext input' = some findings') :
    (findings.map outline).Perm (findings'.map outline) := by
  obtain ⟨publicIndex, runtimes, hpublic, hruntimes, rfl⟩ := crossCheck_eq_some hf
  obtain ⟨publicIndex', runtimes', hpublic', hruntimes', rfl⟩ := crossCheck_eq_some hf'
  rw [h.runtimes] at hruntimes'
  have hlevel : (osCoverage ext input.osStores).level = (osCoverage ext input'.osStores).level := by
    refine level_congr ?_ h.osStores
    rintro store _ ⟨pems, rfl, -⟩
    rfl
  have hadded := locallyAdded_perm hbytes h.osStores h.publicRootPems hpublic hpublic'
  have hflat : ((runtimes.map (List.map outline)).flatten).Perm
      (runtimes'.map (List.map outline)).flatten := by
    apply List.Perm.flatten_congr
    rw [List.forall₂_map_left_iff, List.forall₂_map_right_iff]
    apply OptionMap.forall₂_of_mapM (R := Eq) (List.forall₂_refl _) hruntimes hruntimes'
    rintro runtime _ own own' rfl ho ho'
    exact outline_runtimeFindings (h.outcomesOf runtime) hadded h.observedAnchors hlevel ho ho'
  rw [List.map_append, List.map_append, List.map_append, List.map_append, List.map_flatten,
    List.map_flatten, hlevel, h.osCommands, indeterminateFinding, indeterminateFinding,
    h.osStores.length_eq]
  exact ((outline_osFindings h.osStores).append hflat).append_right _

lemma Reordered.allParse (h : Reordered input input')
    (hstores : ∀ outcome ∈ input.runtimeStores, AllParse ext outcome.pems) :
    ∀ outcome ∈ input'.runtimeStores, AllParse ext outcome.pems := by
  intro outcome ho pem hp
  obtain ⟨store, hs, pems, rfl, hperm⟩ := (h.runtimeStores.symm
    (S := fun outcome store => SameRuntimeRead store outcome) fun _ _ hs => hs).exists_mem ho
  exact hstores store hs pem (hperm.mem_iff.mpr hp)

/-- Both return, and say the same. -/
lemma crossCheck_reordered (hbytes : ReadsBytes ext) (h : Reordered input input')
    (hpublic : AllParse ext input.publicRootPems)
    (hstores : ∀ outcome ∈ input.runtimeStores, AllParse ext outcome.pems) :
    ∃ findings findings', crossCheck ext input = some findings ∧
      crossCheck ext input' = some findings' ∧
      (findings.map outline).Perm (findings'.map outline) := by
  have hpublic' : AllParse ext input'.publicRootPems :=
    fun pem hp => hpublic pem (h.publicRootPems.mem_iff.mpr hp)
  obtain ⟨findings, hf⟩ := crossCheck_of_allParse hpublic hstores
  obtain ⟨findings', hf'⟩ := crossCheck_of_allParse hpublic' (h.allParse hstores)
  exact ⟨findings, findings', hf, hf', outline_crossCheck hbytes h hf hf'⟩

lemma SameOsRead.refl (store : TrustStoreOutcome) : SameOsRead store store :=
  ⟨store.pems, rfl, List.Perm.refl _⟩

lemma SameRuntimeRead.refl (store : RuntimeStoreOutcome) : SameRuntimeRead store store :=
  ⟨store.pems, rfl, List.Perm.refl _⟩

lemma reordered_withObserved {observed observed' : List ObservedAnchor}
    (h : observed.Perm observed') :
    Reordered (input.withObserved observed) (input.withObserved observed') where
  osStores := .of_forall₂ (List.forall₂_same.mpr fun store _ => SameOsRead.refl store)
  runtimeStores := .of_forall₂ (List.forall₂_same.mpr fun store _ => SameRuntimeRead.refl store)
  publicRootPems := List.Perm.refl _
  observedAnchors := h
  runtimes := rfl
  osCommands := rfl

/-- The same findings in outline, each as often, for every order of what the cross-check is given;
and so for every order in which the captures complete. -/
theorem crossCheck_order_independent (ext : Externals) (input : CrossCheckInput)
    (hbytes : ReadsBytes ext) (hpublic : AllParse ext input.publicRootPems)
    (hstores : ∀ outcome ∈ input.runtimeStores, AllParse ext outcome.pems) :
    (∀ input', Reordered input input' →
      ∃ findings findings', crossCheck ext input = some findings ∧
        crossCheck ext input' = some findings' ∧
        (findings.map outline).Perm (findings'.map outline)) ∧
    ∀ profile capturer env options observed observed',
      Tls.AllCaptured ext profile capturer env options observed →
      Tls.AllCaptured ext profile capturer env options observed' →
      ∃ findings findings', crossCheck ext (input.withObserved observed) = some findings ∧
        crossCheck ext (input.withObserved observed') = some findings' ∧
        (findings.map outline).Perm (findings'.map outline) := by
  refine ⟨fun input' h => crossCheck_reordered hbytes h hpublic hstores, ?_⟩
  intro profile capturer env options observed observed' hc hc'
  exact crossCheck_reordered hbytes (reordered_withObserved (Tls.observed_perm hc hc')) hpublic
    hstores

/-- Two hosts observed behind the local root, one that sent it and one that did not. -/
def observedHosts : List ObservedAnchor :=
  [⟨some fixtureDer, "cn=portcall synthetic cert dir root one",
      "cn=portcall synthetic cert dir root one", "api.example.com", .direct, .private⟩,
    ⟨none, "cn=portcall synthetic cert dir root one", "cn=example intermediate",
      "www.example.com", .proxy, .private⟩]

/-- Two platform stores read, the second with a block that is no certificate. -/
def twoStoresInput : CrossCheckInput :=
  { localRootInput with
    osStores := [⟨.macosSystemRoots, "/System/Library/Keychains/SystemRootCertificates.keychain",
        [fixturePem], none, none, some 5000, some 30⟩,
      ⟨.macosAdminAnchors, "/Library/Keychains/System.keychain", [fixturePem, unparsablePem], none,
        none, some 5000, some 20⟩]
    observedAnchors := observedHosts }

/-- The same, everything in the other order. -/
def twoStoresReversed : CrossCheckInput :=
  { localRootInput with
    osStores := [⟨.macosAdminAnchors, "/Library/Keychains/System.keychain",
        [unparsablePem, fixturePem], none, none, some 5000, some 20⟩,
      ⟨.macosSystemRoots, "/System/Library/Keychains/SystemRootCertificates.keychain",
        [fixturePem], none, none, some 5000, some 30⟩]
    runtimeStores := localRootInput.runtimeStores.reverse
    observedAnchors := observedHosts.reverse }

lemma reordered_twoStores : Reordered twoStoresInput twoStoresReversed where
  osStores := ⟨_, .cons ⟨_, rfl, List.Perm.refl _⟩ (.cons ⟨_, rfl, List.Perm.swap _ _ _⟩ .nil),
    List.Perm.swap _ _ _⟩
  runtimeStores := ⟨_, List.forall₂_same.mpr fun store _ => SameRuntimeRead.refl store,
    (List.reverse_perm _).symm⟩
  publicRootPems := List.Perm.refl _
  observedAnchors := (List.reverse_perm _).symm
  runtimes := rfl
  osCommands := rfl

/-- The two inputs are judged alike. -/
theorem crossCheck_order_independent_twoStores :
    ∃ findings findings', crossCheck fixtureExternals twoStoresInput = some findings ∧
      crossCheck fixtureExternals twoStoresReversed = some findings' ∧
      (findings.map outline).Perm (findings'.map outline) :=
  (crossCheck_order_independent fixtureExternals twoStoresInput readsBytes_fixture
    (by simp [AllParse, twoStoresInput, localRootInput]) allParse_localRootInput).1
    twoStoresReversed reordered_twoStores

end CrossCheck
end Portcall.Truststore
