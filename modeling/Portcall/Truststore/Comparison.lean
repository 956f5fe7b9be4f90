import Portcall.Library.Rearrangement
import Portcall.Truststore.EndToEnd

/-! Comparing two cross-checks: what a verdict depends on. The anchors that take part are a set
of certificates, and the correlation of two such sets with two sets of observations is the same
when the sets are. -/
namespace Portcall.Truststore
open Rearrangement
variable {ext : Externals}

/-- What the parser reads off a certificate, it reads off its bytes. -/
def ReadsBytes (ext : Externals) : Prop :=
  ∀ {pem pem' : String} {certificate certificate' : X509Certificate},
    ext.x509 pem = some certificate → ext.x509 pem' = some certificate' →
      certificate.rawData = certificate'.rawData → certificate = certificate'

lemma readsBytes_fixture : ReadsBytes fixtureExternals := by
  intro pem pem' certificate certificate' hc hc' _
  simp only [fixtureExternals] at hc hc'
  split_ifs at hc hc'
  rw [← Option.some.inj hc, ← Option.some.inj hc']

/-- Some platform store that was read has a block that parses to this anchor. -/
def HeldAnchor (ext : Externals) (osStores : List TrustStoreOutcome) (anchor : Anchor) : Prop :=
  ∃ store ∈ osStores, store.failure = none ∧ ∃ pem ∈ store.pems, ∃ certificate,
    ext.x509 pem = some certificate ∧ anchorOf ext certificate = anchor

/-- The same read of a platform store, and perhaps more blocks in it. -/
def GrownOsRead (store store' : TrustStoreOutcome) : Prop :=
  ∃ pems, store' = { store with pems } ∧ store.pems ⊆ pems

/-- Related reads of a runtime's store differ in their blocks and in nothing else. -/
def OnlyBlocks (R : RuntimeStoreOutcome → RuntimeStoreOutcome → Prop) : Prop :=
  ∀ {store store' : RuntimeStoreOutcome}, R store store' → ∃ pems, store' = { store with pems }

/-- A relation of a runtime's stores that is kept where some are chosen without a look at their
blocks. -/
structure IgnoresBlocks (L : List RuntimeStoreOutcome → List RuntimeStoreOutcome → Prop) :
    Prop where
  filter : ∀ {p : RuntimeStoreOutcome → Bool} {outcomes outcomes'},
    (∀ store pems, p { store with pems } = p store) → L outcomes outcomes' →
      L (outcomes.filter p) (outcomes'.filter p)
  length_eq : ∀ {outcomes outcomes'}, L outcomes outcomes' → outcomes.length = outcomes'.length

section Chosen
variable {L : List RuntimeStoreOutcome → List RuntimeStoreOutcome → Prop}
  {R : RuntimeStoreOutcome → RuntimeStoreOutcome → Prop}
  {outcomes outcomes' : List RuntimeStoreOutcome} {p : RuntimeStoreOutcome → Bool}

lemma OnlyBlocks.apply_eq (hR : OnlyBlocks R) (hp : ∀ store pems, p { store with pems } = p store)
    {store store' : RuntimeStoreOutcome} (h : R store store') : p store = p store' := by
  obtain ⟨pems, rfl⟩ := hR h
  exact (hp store pems).symm

lemma OnlyBlocks.shuffled (hR : OnlyBlocks R) : IgnoresBlocks (Shuffled R) where
  filter hp h := h.filter fun _ _ hs => hR.apply_eq hp hs
  length_eq h := h.length_eq

lemma OnlyBlocks.forall₂ (hR : OnlyBlocks R) : IgnoresBlocks (List.Forall₂ R) where
  filter hp h := List.rel_filter (fun _ _ hs => Bool.eq_iff_iff.mp (hR.apply_eq hp hs)) h
  length_eq h := h.length_eq

/-- Nor does a question about all of them that does not look at blocks tell them apart. -/
lemma OnlyBlocks.any_eq (hR : OnlyBlocks R) (hp : ∀ store pems, p { store with pems } = p store)
    (h : Shuffled R outcomes outcomes') : outcomes.any p = outcomes'.any p :=
  h.any_eq fun _ _ hs => hR.apply_eq hp hs

lemma IgnoresBlocks.readableThat (hL : IgnoresBlocks L) (h : L outcomes outcomes')
    (combines : StoreCombination) :
    L ((readable outcomes).filter fun outcome => outcome.combines = combines)
      ((readable outcomes').filter fun outcome => outcome.combines = combines) :=
  hL.filter (fun _ _ => rfl) (hL.filter (fun _ _ => rfl) h)

/-- What the sets of a runtime are built from is chosen so. -/
lemma IgnoresBlocks.additions (hL : IgnoresBlocks L) (h : L outcomes outcomes') :
    L (additions outcomes) (additions outcomes') := hL.readableThat h .addsTo

lemma IgnoresBlocks.bases (hL : IgnoresBlocks L) (h : L outcomes outcomes') :
    L (bases outcomes) (bases outcomes') := by
  have hreplacing := hL.readableThat h .replaces
  unfold Truststore.bases
  rw [replacing, replacing, hL.length_eq hreplacing]
  split_ifs
  · exact hreplacing
  · exact hL.readableThat h .standalone

end Chosen

section Anchors
variable {osStores : List TrustStoreOutcome} {anchor : Anchor}

/-- Of two anchors with the same bytes it does not matter which is kept. -/
theorem mem_allAnchors_iff (hbytes : ReadsBytes ext) :
    anchor ∈ (allAnchors ext osStores).values ↔ HeldAnchor ext osStores anchor := by
  constructor
  · exact mem_allAnchors
  · rintro ⟨store, hs, hf, pem, hp, certificate, hc, rfl⟩
    obtain ⟨kept, hk, hder⟩ := (der_mem_allAnchors_iff certificate.rawData).mpr
      ⟨store, hs, hf, pem, hp, certificate, hc, rfl⟩
    obtain ⟨_, -, -, _, -, certificate', hc', rfl⟩ := mem_allAnchors hk
    rw [hbytes hc hc' hder.symm]
    exact hk

lemma mem_locallyAdded_iff {publicRootPems : List String} {publicIndex : CertificateIndex}
    (hbytes : ReadsBytes ext) (hpublic : certificateIndex ext publicRootPems = some publicIndex) :
    anchor ∈ locallyAdded ext osStores publicIndex ↔
      HeldAnchor ext osStores anchor ∧ ¬HoldsDer ext publicRootPems anchor.der := by
  rw [mem_locallyAdded, mem_allAnchors_iff hbytes, ← hasCertificate_iff hpublic,
    Bool.not_eq_true]

lemma mem_missingFrom {added : List Anchor} {pems : List String} {index : CertificateIndex}
    (hindex : certificateIndex ext pems = some index) :
    anchor ∈ missingFrom added index ↔ anchor ∈ added ∧ ¬HoldsDer ext pems anchor.der := by
  rw [missingFrom, List.mem_filter, Bool.not_eq_true', ← hasCertificate_iff hindex,
    Bool.not_eq_true]

lemma heldAnchor_mono {osStores' : List TrustStoreOutcome}
    (h : Shuffled GrownOsRead osStores osStores') (hheld : HeldAnchor ext osStores anchor) :
    HeldAnchor ext osStores' anchor := by
  obtain ⟨store, hs, hf, pem, hp, hc⟩ := hheld
  obtain ⟨_, hs', pems, rfl, hsub⟩ := h.exists_mem hs
  exact ⟨_, hs', hf, pem, hsub hp, hc⟩

lemma level_congr {R : TrustStoreOutcome → TrustStoreOutcome → Prop}
    {osStores' : List TrustStoreOutcome} (hR : ∀ store store', R store store' →
      store.failure = store'.failure) (h : Shuffled R osStores osStores') :
    (osCoverage ext osStores).level = (osCoverage ext osStores').level := by
  have hread : Shuffled R (readStores osStores) (readStores osStores') :=
    h.filter fun store store' hs => by rw [hR store store' hs]
  change osEvidenceLevel osStores = osEvidenceLevel osStores'
  unfold osEvidenceLevel
  dsimp only
  rw [h.length_eq, ← readStores, ← readStores, hread.length_eq]

end Anchors

lemma tied_iff {observed : ObservedAnchor} {missing : Anchor} :
    Tied observed missing ↔ observed.der = some missing.der ∨
      observed.anchorClass = .private ∧ missing.canonicalSubject = observed.canonicalIssuer := by
  constructor
  · rintro (hder | ⟨hclass, hname⟩)
    · exact Or.inl hder
    · exact Or.inr ⟨hclass, hname⟩
  · rintro (hder | ⟨hclass, hname⟩)
    · exact .bytes hder
    · exact .issuerName hclass hname

instance (observed : ObservedAnchor) (missing : Anchor) : Decidable (Tied observed missing) :=
  decidable_of_iff _ tied_iff.symm

section Strength
variable {missing missing' : List Anchor} {observed observed' : List ObservedAnchor}

/-- How a correlation was made, where there is one: by bytes if any observation allows it. -/
lemma strength_correlate : (correlate missing observed).map Correlation.strength =
    if ∃ anchor ∈ observed, ∃ candidate ∈ missing, anchor.der = some candidate.der then
      some .bytes
    else if ∃ anchor ∈ observed, ∃ candidate ∈ missing, Tied anchor candidate then
      some .issuerName
    else none := by
  split_ifs with hbytes htied
  · obtain ⟨anchor, ha, candidate, hm, hd⟩ := hbytes
    obtain ⟨correlation, hc, hs⟩ := correlate_bytes ha hm hd
    rw [hc, Option.map_some, hs]
  · obtain ⟨correlation, hc⟩ := Option.isSome_iff_exists.mp (correlate_isSome_iff.mpr htied)
    obtain ⟨ha, hm, hd, -⟩ := correlate_eq_some hc
    rw [hc, Option.map_some]
    cases hs : correlation.strength with
    | bytes => exact absurd ⟨_, ha, _, hm, hd hs⟩ hbytes
    | issuerName => rfl
  · rw [Option.map_eq_none_iff, ← Option.not_isSome_iff_eq_none, correlate_isSome_iff]
    exact htied

/-- It depends on what is missing and on what was observed, not on any order. -/
theorem strength_correlate_congr (hmissing : ∀ anchor, anchor ∈ missing ↔ anchor ∈ missing')
    (hobserved : ∀ anchor, anchor ∈ observed ↔ anchor ∈ observed') :
    (correlate missing observed).map Correlation.strength =
      (correlate missing' observed').map Correlation.strength := by
  simp only [strength_correlate, hmissing, hobserved]

/-- Where more is missing or more was observed, whatever was tied stays tied. -/
theorem correlate_isSome_mono (hmissing : missing ⊆ missing') (hobserved : observed ⊆ observed')
    (h : (correlate missing observed).isSome) : (correlate missing' observed').isSome := by
  rw [correlate_isSome_iff] at h ⊢
  obtain ⟨anchor, ha, candidate, hm, htied⟩ := h
  exact ⟨anchor, hobserved ha, candidate, hmissing hm, htied⟩

end Strength

/-- What of a finding is compared: its id, its severity, the anchors it counts missing and how
the one it names first was matched. -/
structure Outline where
  id : String
  severity : Severity
  missingAnchors : List String
  matchStrength : List String
  deriving DecidableEq, Repr

def outline (finding : Finding) : Outline where
  id := finding.id
  severity := finding.severity
  missingAnchors := finding.values "missing anchors"
  matchStrength := finding.values "match"

/-- A finding without evidence of either kind, in outline. -/
lemma outline_of_labels {finding : Finding}
    (h : ∀ item ∈ finding.evidence, item.label ≠ "missing anchors" ∧ item.label ≠ "match") :
    outline finding = ⟨finding.id, finding.severity, [], []⟩ := by
  have hvalues : ∀ label, (∀ item ∈ finding.evidence, item.label ≠ label) →
      finding.values label = [] := by
    intro label hlabel
    rw [Finding.values, valuesOf, List.filter_eq_nil_iff.mpr, List.map_nil]
    intro item hm
    simp [hlabel item hm]
  rw [outline, hvalues _ fun item hm => (h item hm).1, hvalues _ fun item hm => (h item hm).2]

section Verdict
variable {set : TrustSet}

lemma outline_missingRootFinding (missing : List Anchor) (correlation : Option Correlation) :
    outline (missingRootFinding set missing correlation) =
      { id := (runtimeIds set.runtime).missingRoot
        severity := if correlation.isNone || set.isPartial then .degraded else .blocker
        missingAnchors := [toString missing.length]
        matchStrength := ((correlation.map Correlation.strength).map MatchStrength.text).toList } := by
  rw [outline, (values_missingRootFinding set missing correlation).1,
    values_match_missingRootFinding]
  rfl

lemma outline_rootsPresentFinding (coverage : OsCoverage) :
    outline (rootsPresentFinding set coverage) =
      ⟨(runtimeIds set.runtime).rootsPresent, .ok, [], []⟩ := by
  refine outline_of_labels fun item hm => ?_
  simp only [rootsPresentFinding, List.mem_append, Option.mem_toList, Option.map_eq_some_iff,
    List.mem_ite_nil_right, List.mem_cons, List.not_mem_nil, or_false] at hm
  obtain ((⟨_, -, rfl⟩ | rfl) | ⟨-, rfl | rfl⟩) | ⟨-, rfl⟩ := hm <;> simp

/-- The outline of a verdict: from the set, the number of anchors it lacks and how one of them
was matched. -/
def verdictOutline (set : TrustSet) (missing : ℕ) (strength : Option MatchStrength) :
    Option Outline :=
  if 0 < missing then
    some
      { id := (runtimeIds set.runtime).missingRoot
        severity := if strength.isNone || set.isPartial then .degraded else .blocker
        missingAnchors := [toString missing]
        matchStrength := (strength.map MatchStrength.text).toList }
  else if set.isPartial then none
  else some ⟨(runtimeIds set.runtime).rootsPresent, .ok, [], []⟩

/-- The verdict on a set whose blocks parse, in outline. -/
theorem outline_setVerdict {added : List Anchor} {observed : List ObservedAnchor}
    {coverage : OsCoverage} {index : CertificateIndex}
    (hindex : certificateIndex ext set.pems = some index) :
    ∃ verdict, setVerdict ext added observed coverage set = some verdict ∧
      verdict.map outline = verdictOutline set (missingFrom added index).length
        ((correlate (missingFrom added index) observed).map Correlation.strength) := by
  rw [setVerdict, hindex, Option.map_some]
  refine ⟨_, rfl, ?_⟩
  dsimp only
  rw [verdictOutline]
  by_cases hmissing : 0 < (missingFrom added index).length
  · rw [if_pos hmissing, if_pos hmissing, Option.map_some, outline_missingRootFinding,
      Option.isNone_map]
  · rw [if_neg hmissing, if_neg hmissing]
    cases hpart : set.isPartial with
    | true => rfl
    | false =>
      rw [Bool.not_false, if_pos rfl, Option.map_some, outline_rootsPresentFinding]
      rfl

end Verdict
end Portcall.Truststore
