import Portcall.Tls.Handoff
import Portcall.Truststore.Verdicts

/-! The two probes together: a private root a chain was watched ending in, held by the platform
and missing from a runtime's store, is reported as the blocker it is. -/
namespace Portcall.Truststore
variable {ext : Externals} {input : CrossCheckInput}

/-- The same machine over other observations. -/
def CrossCheckInput.withObserved (input : CrossCheckInput) (observed : List ObservedAnchor) :
    CrossCheckInput :=
  { input with observedAnchors := observed }

/-- A set of roots the cross-check gives a verdict on, read whole. -/
structure JudgedWhole (input : CrossCheckInput) (runtime : Runtime) (set : TrustSet) : Prop where
  declared : runtime ∈ input.runtimes
  asks : asksPlatform (input.outcomesOf runtime) = false
  mem : set ∈ trustSets runtime (input.outcomesOf runtime)
  whole : set.isPartial = false

/-- A correlated finding says how it was correlated. -/
lemma values_match_missingRootFinding (set : TrustSet) (missing : List Anchor)
    (correlation : Option Correlation) :
    (missingRootFinding set missing correlation).values "match" =
      ((correlation.map Correlation.strength).map MatchStrength.text).toList := by
  simp only [missingRootFinding, Finding.values, valuesOf_append, valuesOf_map,
    valuesOf_map_toList]
  cases correlation <;> cases set.isPartial <;> simp

/-- The verdict on every set of a declared runtime is among the findings. -/
lemma exists_mem_of_crossCheck {findings : List Finding} {runtime : Runtime} {set : TrustSet}
    (h : crossCheck ext input = some findings) (hread : ¬NoOsStoreRead input.osStores)
    (hdeclared : runtime ∈ input.runtimes)
    (hasks : asksPlatform (input.outcomesOf runtime) = false)
    (hset : set ∈ trustSets runtime (input.outcomesOf runtime)) :
    ∃ publicIndex verdict, certificateIndex ext input.publicRootPems = some publicIndex ∧
      setVerdict ext (locallyAdded ext input.osStores publicIndex) input.observedAnchors
        (osCoverage ext input.osStores) set = some verdict ∧
      ∀ finding ∈ verdict, finding ∈ findings := by
  obtain ⟨publicIndex, runtimes, hindex, hruntimes, rfl⟩ := crossCheck_eq_some h
  have hlevel : (osCoverage ext input.osStores).level ≠ .none :=
    fun hn => hread ((level_eq_none_iff ext _).mp hn)
  obtain ⟨own, hown⟩ := Option.isSome_iff_exists.mp
    (OptionMap.mapM_isSome_iff.mp (Option.isSome_of_eq_some hruntimes) runtime hdeclared)
  obtain ⟨verdicts, hverdicts, hfilter⟩ := (filter_runtimeFindings hown).2 hlevel hasks
  obtain ⟨verdict, hverdict⟩ := Option.isSome_iff_exists.mp
    (OptionMap.mapM_isSome_iff.mp (Option.isSome_of_eq_some hverdicts) set hset)
  refine ⟨publicIndex, verdict, hindex, hverdict, fun finding hf => ?_⟩
  have hmem : finding ∈ own.filter (isVerdictOn runtime) := by
    rw [hfilter, List.reduceOption_mem_iff, ← Option.mem_def.mp hf]
    exact (OptionMap.mem_of_mapM_eq_some hverdicts _).mpr ⟨set, hset, hverdict⟩
  have hown' : own ∈ runtimes :=
    (OptionMap.mem_of_mapM_eq_some hruntimes own).mpr ⟨runtime, hdeclared, hown⟩
  exact List.mem_append_left _ (List.mem_append_right _
    (List.mem_flatten.mpr ⟨own, hown', List.mem_of_mem_filter hmem⟩))

/-- A missing certificate some observation presented blocks, by its bytes. -/
theorem exists_blocker_of_observed {findings : List Finding} {runtime : Runtime} {set : TrustSet}
    {observed : ObservedAnchor} {der : List UInt8}
    (h : crossCheck ext input = some findings) (hset : JudgedWhole input runtime set)
    (hmissing : der ∈ MissingDer ext input set) (hobserved : observed ∈ input.observedAnchors)
    (hder : observed.der = some der) :
    ∃ finding ∈ findings, ∃ missing, Enumerates ext input (MissingDer ext input set) missing ∧
      MissingRootSpec ext input set missing finding ∧ finding.severity = .blocker ∧
      finding.values "match" = ["bytes"] := by
  have hread : ¬NoOsStoreRead input.osStores := by
    obtain ⟨⟨⟨store, hs, hf, -⟩, -⟩, -⟩ := hmissing
    exact fun hn => hn store hs hf
  obtain ⟨publicIndex, verdict, hpublic, hverdict, hmem⟩ :=
    exists_mem_of_crossCheck h hread hset.declared hset.asks hset.mem
  obtain ⟨index, hindex, rfl⟩ := Option.map_eq_some_iff.mp hverdict
  have henum := enumerates_missingFrom hpublic hindex
  obtain ⟨candidate, hcandidate, rfl⟩ := (henum.mem_iff _).mp hmissing
  have hpos : 0 < (missingFrom (locallyAdded ext input.osStores publicIndex) index).length :=
    List.length_pos_of_mem hcandidate
  obtain ⟨correlation, hc, hstrength⟩ := correlate_bytes hobserved hcandidate hder
  have hspec := missingRootSpec_of_enumerates henum
  refine ⟨_, hmem _ (if_pos hpos), _, henum, hspec, ?_, ?_⟩
  · rw [hspec.severity, hc, hset.whole]
    rfl
  · rw [hc, values_match_missingRootFinding, Option.map_some, hstrength]
    rfl

/-- End to end: the chain is evaluated to an anchor with the root's bytes, the anchor reaches the
run's observations, and whatever else they hold, in whatever order, the cross-check blocks on the
root by its bytes. Bytes are left by no other kind of chain. -/
theorem private_root_blocks (ext : Externals) (profile : Profile) (capturer : Tls.TlsCapture)
    (env : Environment) (now : ℤ) (input : CrossCheckInput) (roots : CertificateIndex)
    (hroots : certificateIndex ext input.publicRootPems = some roots)
    (hstores : ∀ outcome ∈ input.runtimeStores, AllParse ext outcome.pems) :
    (∃ tlsFindings anchors,
      Tls.runTls ext profile input.publicRootPems capturer env now =
        some (tlsFindings, anchors) ∧
      ∀ target capture chain root runtime set,
        Tls.Captured ext profile capturer env target capture →
        Tls.EndsInPrivateRoot ext roots capture chain root →
        OsHolds ext input.osStores root.rawData →
        JudgedWhole input runtime set → ¬HoldsDer ext set.pems root.rawData →
        ∃ evaluation anchor,
          Tls.evaluateChain ext capture ⟨target.host, target.required⟩ profile.tls ⟨roots, now⟩ =
            some evaluation ∧
          evaluation.anchor = some anchor ∧ anchor.der = some root.rawData ∧ anchor ∈ anchors ∧
          ∀ observed, anchors ⊆ observed → ∃ findings,
            crossCheck ext (input.withObserved observed) = some findings ∧
            ∃ finding ∈ findings, ∃ missing,
              Enumerates ext (input.withObserved observed)
                (MissingDer ext (input.withObserved observed) set) missing ∧
              MissingRootSpec ext (input.withObserved observed) set missing finding ∧
              finding.severity = .blocker ∧ finding.values "match" = ["bytes"]) ∧
    ∀ capture target policy options evaluation anchor der,
      Tls.evaluateChain ext capture target policy options = some evaluation →
      evaluation.anchor = some anchor → anchor.der = some der →
      ∃ chain root, Tls.EndsInPrivateRoot ext options.roots capture chain root ∧
        root.rawData = der := by
  refine ⟨?_, fun _ _ _ _ _ _ _ he ha hd => Tls.endsInPrivateRoot_of_anchor he ha hd⟩
  obtain ⟨tlsFindings, anchors, hrun, hpushed⟩ :=
    Tls.runTls_eq_some profile capturer env now hroots
  refine ⟨tlsFindings, anchors, hrun, ?_⟩
  intro target capture chain root runtime set hcaptured hends hos hset hlacks
  obtain ⟨evaluation, anchor, he, ha, hder⟩ := @Tls.anchor_of_endsInPrivateRoot ext chain capture
    ⟨target.host, target.required⟩ profile.tls ⟨roots, now⟩ root hends
  have hmem := hpushed target capture evaluation anchor hcaptured he ha
  refine ⟨evaluation, anchor, he, ha, hder, hmem, fun observed hsub => ?_⟩
  have hpublic : AllParse ext input.publicRootPems :=
    (certificateIndex_isSome_iff ext _).mp (Option.isSome_of_eq_some hroots)
  obtain ⟨findings, hf⟩ := Option.isSome_iff_exists.mp
    ((isSome_crossCheck_iff (input.withObserved observed) hpublic).mpr
      (indexedSetsParse_of_allParse hstores))
  have hmissing : root.rawData ∈ MissingDer ext (input.withObserved observed) set := by
    refine ⟨⟨hos, fun hheld => hends.unbundled ⟨root, ?_, ?_⟩⟩, hlacks⟩
    · exact List.mem_of_getLast? hends.terminus
    · exact (hasCertificate_iff hroots _).mpr hheld
  have hjudged : JudgedWhole (input.withObserved observed) runtime set :=
    ⟨hset.declared, hset.asks, hset.mem, hset.whole⟩
  exact ⟨findings, hf, exists_blocker_of_observed hf hjudged hmissing (hsub hmem) hder⟩

section Watched

/-- One endpoint, one runtime. -/
def watchedProfile : Profile where
  name := "watched"
  endpoints := [⟨"api.example.com", 443, "api", true⟩]
  runtimes := [.node]

/-- The local root of `localRootInput`, presented by itself. -/
def watchedChain : TlsChain := ⟨[fixtureDer], some "TLSv1.3", none, "api.example.com"⟩

lemma endsInPrivateRoot_watchedChain {roots : CertificateIndex}
    (hroots : certificateIndex fixtureExternals [] = some roots) :
    Tls.EndsInPrivateRoot fixtureExternals roots (Tls.TlsChain.captured watchedChain .direct)
      [fixtureRoot] fixtureRoot := by
  have honly : ∀ certificate ∈ Tls.pathCertificates fixtureExternals [fixtureRoot],
      certificate = fixtureRoot := by
    intro certificate hm
    obtain ⟨i, -, hi⟩ := Tls.mem_pathCertificates.mp hm
    exact List.mem_singleton.mp (List.mem_of_getElem? hi)
  refine ⟨?_, ?_, rfl, ?_⟩
  · simp [Tls.parseChain, Tls.TlsChain.captured, watchedChain, x509Der_fixtureDer]
  · rw [List.getLast?_eq_some_getLast (Tls.pathCertificates_ne_nil (List.cons_ne_nil _ _)),
      honly _ (List.getLast_mem _)]
  · rintro ⟨certificate, -, hb⟩
    obtain ⟨pem, hp, -⟩ := (hasCertificate_iff hroots _).mp hb
    simp at hp

/-- The headline finding on that machine: Node lacks the root its own endpoint presents. -/
theorem private_root_blocks_watched :
    ∃ anchors findings,
      crossCheck fixtureExternals (localRootInput.withObserved anchors) = some findings ∧
      ∃ finding ∈ findings, finding.id = "truststore.node.missing-root" ∧
        finding.severity = .blocker ∧ finding.values "match" = ["bytes"] := by
  obtain ⟨roots, hroots⟩ := Option.isSome_iff_exists.mp
    ((certificateIndex_isSome_iff fixtureExternals []).mpr (by simp [AllParse]))
  obtain ⟨⟨_, anchors, -, h⟩, -⟩ := private_root_blocks fixtureExternals watchedProfile
    (fun _ _ => .ok watchedChain) (fun _ => none) 1700000000000 localRootInput roots hroots
    allParse_localRootInput
  obtain ⟨_, _, -, -, -, -, hblocks⟩ := h ⟨"api.example.com", 443, true⟩ _ _ _ .node
    ⟨.node, none, [], false⟩ (.direct (by decide) rfl) (endsInPrivateRoot_watchedChain hroots)
    ⟨_, List.mem_singleton_self _, rfl, fixturePem, List.mem_singleton_self _, fixtureRoot,
      x509_fixturePem, rfl⟩
    ⟨by decide, by decide, by decide, rfl⟩ (by rintro ⟨pem, hp, -⟩; simp at hp)
  obtain ⟨findings, hf, finding, hm, _, -, hspec, hseverity, hmatch⟩ :=
    hblocks anchors (List.Subset.refl _)
  exact ⟨anchors, findings, hf, finding, hm, hspec.id, hseverity, hmatch⟩

end Watched
end Portcall.Truststore
