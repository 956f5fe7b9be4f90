import Portcall.Truststore.CrossCheck

/-! When the cross-check returns: which blocks it hands to the parser without a guard. -/
namespace Portcall.Truststore
variable {ext : Externals}

/-- No platform store was read. -/
def NoOsStoreRead (osStores : List TrustStoreOutcome) : Prop :=
  ∀ store ∈ osStores, store.failure ≠ none

/-- Every set of roots the cross-check indexes is made of blocks that parse: there is none to
index when no platform store was read, nor for a runtime that asks the platform. -/
def IndexedSetsParse (ext : Externals) (input : CrossCheckInput) : Prop :=
  NoOsStoreRead input.osStores ∨
    ∀ runtime ∈ input.runtimes, asksPlatform (input.outcomesOf runtime) = true ∨
      ∀ set ∈ trustSets runtime (input.outcomesOf runtime), AllParse ext set.pems

lemma level_eq_none_iff (ext : Externals) (osStores : List TrustStoreOutcome) :
    (osCoverage ext osStores).level = .none ↔ NoOsStoreRead osStores := by
  have hzero : (osStores.filter fun store => store.failure = none).length = 0 ↔
      NoOsStoreRead osStores := by
    rw [List.length_eq_zero_iff, List.filter_eq_nil_iff]
    simp [NoOsStoreRead]
  change osEvidenceLevel osStores = .none ↔ NoOsStoreRead osStores
  rw [osEvidenceLevel, ← hzero]
  split_ifs with h h'
  · simp [h]
  · simp [h]
  · simp [h]

/-- A set's verdict is reached exactly when its blocks parse. -/
lemma setVerdict_isSome_iff {added : List Anchor} {observed : List ObservedAnchor}
    {coverage : OsCoverage} {set : TrustSet} :
    (setVerdict ext added observed coverage set).isSome ↔ AllParse ext set.pems := by
  rw [setVerdict, Option.isSome_map, certificateIndex_isSome_iff]

lemma runtimeFindings_isSome_iff {runtime : Runtime} {outcomes : List RuntimeStoreOutcome}
    {added : List Anchor} {observed : List ObservedAnchor} {coverage : OsCoverage} :
    (runtimeFindings ext runtime outcomes added observed coverage).isSome ↔
      coverage.level = .none ∨ asksPlatform outcomes = true ∨
        ∀ set ∈ trustSets runtime outcomes, AllParse ext set.pems := by
  unfold runtimeFindings
  by_cases hplatform : asksPlatform outcomes = true
  · simp [hplatform]
  · by_cases hsets : (trustSets runtime outcomes).isEmpty = true
    · have hnil : trustSets runtime outcomes = [] := List.isEmpty_iff.mp hsets
      simp [hplatform, hnil]
    · by_cases hlevel : coverage.level = .none
      · simp [hplatform, hsets, hlevel]
      · simp only [hplatform, hsets, hlevel, if_false, Bool.false_eq_true, Option.isSome_map,
          OptionMap.mapM_isSome_iff, setVerdict_isSome_iff, false_or]

/-- The cross-check returns exactly when every set it indexes is made of blocks that parse. -/
theorem isSome_crossCheck_iff (input : CrossCheckInput)
    (hpublic : AllParse ext input.publicRootPems) :
    (crossCheck ext input).isSome ↔ IndexedSetsParse ext input := by
  obtain ⟨publicIndex, hindex⟩ := Option.isSome_iff_exists.mp
    ((certificateIndex_isSome_iff ext _).mpr hpublic)
  have hruntimes : (crossCheck ext input).isSome ↔
      ∀ runtime ∈ input.runtimes, (runtimeFindings ext runtime (input.outcomesOf runtime)
        (locallyAdded ext input.osStores publicIndex) input.observedAnchors
        (osCoverage ext input.osStores)).isSome := by
    rw [← OptionMap.mapM_isSome_iff]
    unfold crossCheck
    rw [hindex]
    cases hm : input.runtimes.mapM fun runtime => runtimeFindings ext runtime
        (input.outcomesOf runtime) (locallyAdded ext input.osStores publicIndex)
        input.observedAnchors (osCoverage ext input.osStores) with
    | none => simp [hm]
    | some findings => simp [hm]
  rw [hruntimes, IndexedSetsParse, ← level_eq_none_iff ext]
  simp only [runtimeFindings_isSome_iff]
  by_cases hlevel : (osCoverage ext input.osStores).level = .none
  · simp [hlevel]
  · simp [hlevel]

/-- The cross-check returns a list of findings exactly when every block it hands to the parser
without a guard parses. -/
theorem crossCheck_returns_iff (input : CrossCheckInput)
    (hpublic : AllParse ext input.publicRootPems) :
    (∃ findings, crossCheck ext input = some findings) ↔ IndexedSetsParse ext input := by
  rw [← Option.isSome_iff_exists]
  exact isSome_crossCheck_iff input hpublic

/-- They do when every block of every runtime store parses. -/
lemma indexedSetsParse_of_allParse {input : CrossCheckInput}
    (h : ∀ outcome ∈ input.runtimeStores, AllParse ext outcome.pems) :
    IndexedSetsParse ext input := by
  refine Or.inr fun runtime _ => Or.inr fun set hset pem hpem => ?_
  obtain ⟨store, hbuilt, hp⟩ := exists_builtFrom_of_mem_pems hset hpem
  have hm := (mem_readable.mp hbuilt.mem_readable).1
  exact h store (List.mem_of_mem_filter hm) pem hp

lemma crossCheck_of_allParse {input : CrossCheckInput}
    (hpublic : AllParse ext input.publicRootPems)
    (hstores : ∀ outcome ∈ input.runtimeStores, AllParse ext outcome.pems) :
    ∃ findings, crossCheck ext input = some findings :=
  Option.isSome_iff_exists.mp
    ((isSome_crossCheck_iff input hpublic).mpr (indexedSetsParse_of_allParse hstores))

def unparsableBody : String := "bm90IGEgY2VydGlmaWNhdGU=\n"

/-- The block of the suite's own malformed store entry. -/
def unparsablePem : String := pemHeader ++ unparsableBody ++ pemFooter

/-- One platform store with one root, and a certifi bundle of these blocks. -/
def certifiInput (pems : List String) : CrossCheckInput where
  osStores := [⟨.linuxCaBundle, "/etc/ssl/certs/ca-certificates.crt", [fixturePem], none, none,
    none, some 3⟩]
  runtimeStores := [⟨.python, .pythonCertifi, some "/venv/certifi/cacert.pem",
    ["/venv/certifi/cacert.pem"], .standalone, pems, none, false, none, none⟩]
  runtimes := [.python]
  publicRootPems := [fixturePem]
  observedAnchors := []
  osCommands := []

/-- One of the bundle's blocks is malformed. -/
def unparsableInput : CrossCheckInput := certifiInput [fixturePem, unparsablePem]

lemma unparsablePem_ne_fixturePem : unparsablePem ≠ fixturePem := by
  intro h
  have hlist := congrArg String.toList h
  simp only [unparsablePem, fixturePem, String.toList_append, List.append_assoc,
    List.append_cancel_left_eq] at hlist
  have hhead := congrArg List.head? hlist
  rw [List.head?_append, List.head?_append] at hhead
  revert hhead
  decide

lemma x509_unparsablePem : fixtureExternals.x509 unparsablePem = none := by
  simp only [fixtureExternals, if_neg unparsablePem_ne_fixturePem]

/-- One malformed block in a runtime store takes the whole cross-check down. -/
theorem crossCheck_throws : crossCheck fixtureExternals unparsableInput = none := by
  have hpublic : AllParse fixtureExternals unparsableInput.publicRootPems := by
    intro pem hm
    rw [List.mem_singleton.mp hm, x509_fixturePem]
    rfl
  rw [← Option.not_isSome_iff_eq_none, isSome_crossCheck_iff _ hpublic]
  rintro (hread | hsets)
  · exact hread _ List.mem_cons_self rfl
  · rcases hsets .python List.mem_cons_self with hp | hs
    · revert hp
      decide
    · have hset : trustSets .python (unparsableInput.outcomesOf .python) =
          [⟨.python, some "/venv/certifi/cacert.pem", [fixturePem, unparsablePem], false⟩] := rfl
      rw [hset] at hs
      have := hs _ List.mem_cons_self unparsablePem (by simp)
      simp [x509_unparsablePem] at this

/-- Without the malformed block the bundle's other one is compared. -/
theorem crossCheck_returns_iff_parsable :
    ∃ findings, crossCheck fixtureExternals (certifiInput [fixturePem]) = some findings := by
  have hparses : AllParse fixtureExternals [fixturePem] := by
    intro pem hm
    rw [List.mem_singleton.mp hm, x509_fixturePem]
    rfl
  refine (crossCheck_returns_iff _ hparses).mpr (indexedSetsParse_of_allParse ?_)
  intro outcome hm
  rw [List.mem_singleton.mp hm]
  exact hparses

end Portcall.Truststore
