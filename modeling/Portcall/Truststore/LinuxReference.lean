import Portcall.Net.OsTruststore
import Portcall.Net.PemCanonical
import Portcall.Truststore.Verdicts

/-! Go on Linux, judged by the bundle it reads itself: nothing can be missing from it. -/
namespace Portcall.Truststore
open Net

section Go
variable {ext : Externals} {fs : FileSystem} {os : TrustStoreOutcome} {bundle : RuntimeStoreOutcome}
  {file dir : RuntimeStoreOutcome} {coverage : OsCoverage} {added : List Anchor}
  {observed : List ObservedAnchor}

/-- Neither variable names anything. -/
structure Unset (kind : RuntimeStoreKind) (outcome : RuntimeStoreOutcome) : Prop where
  kind : outcome.kind = kind
  failure : outcome.failure = some .notConfigured

lemma trustSets_go (hfile : Unset .goSslCertFile file) (hdir : Unset .goSslCertDir dir)
    (hbundle : SameBundle fs os bundle) :
    trustSets .go [file, dir, bundle] = [⟨.go, some os.locator, os.pems, false⟩] := by
  have hreadable : readable [file, dir, bundle] = [bundle] := by
    simp [readable, hfile.failure, hdir.failure, hbundle.failure, hbundle.kind]
  have hreplacing : replacing [file, dir, bundle] = [] := by
    simp [replacing, hreadable, hbundle.combines]
  have hadditions : additions [file, dir, bundle] = [] := by
    simp [additions, hreadable, hbundle.combines]
  have hbases : bases [file, dir, bundle] = [bundle] := by
    simp [bases, hreplacing, hreadable, hbundle.combines]
  simp [trustSets, hbases, trustSetOf, hadditions, hbundle.locator, hbundle.pems,
    hbundle.isPartial]

lemma outcomeFindings_unset {kind : RuntimeStoreKind} {outcome : RuntimeStoreOutcome}
    (h : Unset kind outcome) (hjava : kind ≠ .javaCacerts) :
    outcomeFindings .go outcome = [] := by
  have hextra : extraCaFindings .go outcome = [] := by
    unfold extraCaFindings
    rw [h.failure]
  simp [outcomeFindings, hextra, h.kind, hjava]

lemma outcomeFindings_bundle (h : SameBundle fs os bundle) : outcomeFindings .go bundle = [] := by
  simp [outcomeFindings, h.kind, envStoreKinds]

/-- Over a bundle that holds whatever the platform adds, Go's one finding is that it does. -/
theorem runtimeFindings_go (hfile : Unset .goSslCertFile file) (hdir : Unset .goSslCertDir dir)
    (hbundle : SameBundle fs os bundle) (hparse : AllParse ext os.pems)
    (hlevel : coverage.level ≠ .none) (hadded : ∀ anchor ∈ added, HoldsDer ext os.pems anchor.der) :
    runtimeFindings ext .go [file, dir, bundle] added observed coverage =
      some [rootsPresentFinding ⟨.go, some os.locator, os.pems, false⟩ coverage] := by
  obtain ⟨index, hindex⟩ := Option.isSome_iff_exists.mp
    ((certificateIndex_isSome_iff ext _).mpr hparse)
  have hmissing : missingFrom added index = [] := by
    refine List.filter_eq_nil_iff.mpr fun anchor hm => ?_
    rw [(hasCertificate_iff hindex _).mpr (hadded anchor hm)]
    simp
  have hasks : asksPlatform [file, dir, bundle] = false := by
    simp [asksPlatform, hfile.kind, hdir.kind, hbundle.kind]
  have hstores : [file, dir, bundle].flatMap (outcomeFindings .go) = [] := by
    simp [outcomeFindings_unset hfile, outcomeFindings_unset hdir, outcomeFindings_bundle hbundle]
  have hverdict : setVerdict ext added observed coverage ⟨.go, some os.locator, os.pems, false⟩ =
      some (some (rootsPresentFinding ⟨.go, some os.locator, os.pems, false⟩ coverage)) := by
    simp [setVerdict, hindex, hmissing]
  unfold runtimeFindings
  dsimp only
  rw [hasks, if_neg (by simp), trustSets_go hfile hdir hbundle, if_neg (by simp), if_neg hlevel,
    hstores, List.mapM_cons, List.mapM_nil, hverdict]
  rfl

end Go

/-- What a report may not say of Go over the platform's own bundle. -/
def goFaults : List String :=
  [(runtimeIds .go).missingRoot, (runtimeIds .go).storeNotFound, (runtimeIds .go).extraCaUnreadable]

section Others
variable {ext : Externals} {runtime : Runtime} {outcomes : List RuntimeStoreOutcome}
  {added : List Anchor} {observed : List ObservedAnchor} {coverage : OsCoverage}

/-- The findings about another runtime are not about Go. -/
lemma not_mem_goFaults_of_ne {findings : List Finding} {finding : Finding} (hne : runtime ≠ .go)
    (h : runtimeFindings ext runtime outcomes added observed coverage = some findings)
    (hm : finding ∈ findings) : finding.id ∉ goFaults := by
  obtain ⟨about, verdicts, rfl, habout, hverdicts⟩ := runtimeFindings_eq_some h
  rcases List.mem_append.mp hm with hm | hm
  · rcases habout finding hm with hid | hid
    · have hall : ∀ id ∈ storeIds runtime, id ∉ goFaults := by
        cases runtime <;> first | exact absurd rfl hne | decide
      exact hall _ hid
    · rw [hid]
      decide
  · rcases hverdicts with ⟨-, rfl⟩ | ⟨-, -, hverdicts⟩
    · exact absurd hm List.not_mem_nil
    · have hverdict := isVerdictOn_of_mem_verdicts hverdicts hm
      rw [isVerdictOn, Bool.or_eq_true, decide_eq_true_eq, decide_eq_true_eq] at hverdict
      have hall : (runtimeIds runtime).missingRoot ∉ goFaults ∧
          (runtimeIds runtime).rootsPresent ∉ goFaults := by
        cases runtime <;> first | exact absurd rfl hne | decide
      rcases hverdict with hid | hid
      · exact hid ▸ hall.1
      · exact hid ▸ hall.2

end Others

section CrossCheck
variable {ext : Externals} {fs : FileSystem} {lookup : Lookup} {input : CrossCheckInput}

/-- What Go's lookup comes to on Linux with neither variable set. -/
lemma goStores_linux (hplatform : lookup.platform = .linux)
    (hfile : envValue lookup.env "SSL_CERT_FILE" = none)
    (hdir : envValue lookup.env "SSL_CERT_DIR" = none) : ∃ file dir,
    goStores ext fs lookup =
        [file, dir, goSystemBundleStore fs linuxCaBundlePaths lookup.maxBytes] ∧
      Unset .goSslCertFile file ∧ Unset .goSslCertDir dir := by
  refine ⟨envFileStore fs lookup .go .goSslCertFile "SSL_CERT_FILE" .replaces,
    certDirStore ext fs lookup .go, ?_, ⟨?_, ?_⟩, ⟨?_, ?_⟩⟩
  · simp [goStores, hplatform, hfile, hdir]
  · simp [envFileStore, hfile, outcome]
  · simp [envFileStore, hfile]
  · simp [certDirStore, hdir, outcome]
  · simp [certDirStore, hdir]

/-- What the platform's one bundle adds, the bundle holds. -/
lemma holdsDer_of_mem_locallyAdded {os : TrustStoreOutcome} {publicIndex : CertificateIndex}
    {anchor : Anchor} (h : anchor ∈ locallyAdded ext [os] publicIndex) :
    HoldsDer ext os.pems anchor.der := by
  obtain ⟨store, hstore, -, pem, hpem, certificate, hcertificate, rfl⟩ :=
    mem_allAnchors (mem_locallyAdded.mp h).1
  rw [List.mem_singleton.mp hstore] at hpem
  exact ⟨pem, hpem, certificate, hcertificate, rfl⟩

/-- A cross-check over one platform store that was read, and Go's one finding in it. -/
theorem findings_of_go {os : TrustStoreOutcome} {findings : List Finding} {roots : Finding}
    (h : crossCheck ext input = some findings) (hos : input.osStores = [os])
    (hread : os.failure = none) (hdeclared : .go ∈ input.runtimes)
    (hid : roots.id = (runtimeIds .go).rootsPresent)
    (hgo : ∀ publicIndex, runtimeFindings ext .go (input.outcomesOf .go)
      (locallyAdded ext [os] publicIndex) input.observedAnchors (osCoverage ext [os]) =
        some [roots]) :
    (∃ finding ∈ findings, finding.id = (runtimeIds .go).rootsPresent) ∧
      ∀ finding ∈ findings, finding.id ∉ goFaults := by
  obtain ⟨publicIndex, runtimes, -, hruntimes, rfl⟩ := crossCheck_eq_some h
  rw [hos] at hruntimes ⊢
  have hlevel : (osCoverage ext [os]).level ≠ .none := by
    rw [Ne, level_eq_none_iff]
    exact fun hnone => hnone os List.mem_cons_self hread
  have hown := (OptionMap.mem_of_mapM_eq_some hruntimes [roots]).mpr
    ⟨.go, hdeclared, hgo publicIndex⟩
  rw [if_neg hlevel, List.append_nil]
  constructor
  · exact ⟨roots, List.mem_append_right _ (List.mem_flatten.mpr ⟨_, hown, List.mem_cons_self⟩), hid⟩
  · intro finding hm
    rcases List.mem_append.mp hm with hm | hm
    · have hall : ∀ id ∈ osFindingIds, id ∉ goFaults := by decide
      exact hall _ (id_mem_of_mem_osFindings hm)
    · obtain ⟨own, hmem, hm⟩ := List.mem_flatten.mp hm
      obtain ⟨runtime, -, hown⟩ := (OptionMap.mem_of_mapM_eq_some hruntimes own).mp hmem
      by_cases hruntime : runtime = .go
      · subst hruntime
        rw [hgo publicIndex, Option.some.injEq] at hown
        rw [← hown, List.mem_singleton] at hm
        rw [hm, hid]
        decide
      · exact not_mem_goFaults_of_ne hruntime hown hm

/-- Go on Linux with neither variable set, wherever the platform's bundle could be read: the two
readers read the same file, and the cross-check of the two finds every root present, whatever was
observed and whatever the other runtimes hold. -/
theorem go_trusts_linux_bundle (ext : Externals) (fs : FileSystem) (lookup : Lookup)
    (elapsed maxBytes : ℕ) (hplatform : lookup.platform = .linux)
    (hfile : envValue lookup.env "SSL_CERT_FILE" = none)
    (hdir : envValue lookup.env "SSL_CERT_DIR" = none) (hmax : maxBytes ≤ lookup.maxBytes)
    (hparse : ∀ path text, fs.readText path = .ok text → AllParse ext (pemBlocks text))
    (hread : (readLinuxCaBundle fs elapsed linuxCaBundlePaths maxBytes).failure = none) :
    SameBundle fs (readLinuxCaBundle fs elapsed linuxCaBundlePaths maxBytes)
        (goSystemBundleStore fs linuxCaBundlePaths lookup.maxBytes) ∧
      ∀ input : CrossCheckInput,
        input.osStores = [readLinuxCaBundle fs elapsed linuxCaBundlePaths maxBytes] →
        input.outcomesOf .go = goStores ext fs lookup → .go ∈ input.runtimes →
        (∀ findings, crossCheck ext input = some findings →
          (∃ finding ∈ findings, finding.id = (runtimeIds .go).rootsPresent) ∧
          ∀ finding ∈ findings, finding.id ∉ goFaults) ∧
        (AllParse ext input.publicRootPems →
          (∀ outcome ∈ input.runtimeStores, AllParse ext outcome.pems) →
          ∃ findings, crossCheck ext input = some findings) := by
  have hbundle := @sameBundle_of_readLinuxCaBundle fs maxBytes lookup.maxBytes elapsed
    linuxCaBundlePaths hmax hread
  generalize readLinuxCaBundle fs elapsed linuxCaBundlePaths maxBytes = os at hread hbundle ⊢
  refine ⟨hbundle, fun input hos hgo hdeclared => ⟨fun findings h => ?_, fun hpublic hstores => ?_⟩⟩
  · obtain ⟨file, dir, hstores, hunsetFile, hunsetDir⟩ :=
      @goStores_linux ext fs lookup hplatform hfile hdir
    obtain ⟨text, htext, hpems⟩ := hbundle.source
    have hbundleParses := hparse _ _ htext
    rw [← hpems] at hbundleParses
    refine @findings_of_go ext input os findings
      (rootsPresentFinding ⟨.go, some os.locator, os.pems, false⟩ (osCoverage ext [os])) h hos hread
      hdeclared rfl fun publicIndex => ?_
    rw [hgo, hstores]
    refine runtimeFindings_go hunsetFile hunsetDir hbundle hbundleParses ?_ ?_
    · rw [Ne, level_eq_none_iff]
      exact fun hnone => hnone _ List.mem_cons_self hread
    · exact fun anchor hm => holdsDer_of_mem_locallyAdded hm
  · exact Option.isSome_iff_exists.mp
      ((isSome_crossCheck_iff input hpublic).mpr (indexedSetsParse_of_allParse hstores))

/-- A parser that knows the block of the fixture, and no other. -/
def oneRootExternals : Externals :=
  { fixtureExternals with
    x509 := fun pem => if pem = derToPem fixtureDer then some fixtureRoot else none }

/-- The first row of the table is there, and holds the fixture. -/
def debianFiles : FileSystem where
  stat path := if path = "/etc/ssl/certs/ca-certificates.crt" then .ok 511
    else .error (some "ENOENT")
  readdir _ := .error (some "ENOENT")
  readText _ := .ok (derToPem fixtureDer)
  readBytes _ := .error (some "ENOENT")

def debianLookup : Lookup := ⟨.linux, fun _ => none, maxRuntimeStoreBytes⟩

def debianInput : CrossCheckInput where
  osStores := [readLinuxCaBundle debianFiles 3 linuxCaBundlePaths maxRuntimeStoreBytes]
  runtimeStores := goStores oneRootExternals debianFiles debianLookup
  runtimes := [.go]
  publicRootPems := []
  observedAnchors := []
  osCommands := []

lemma pemBlocks_fixture : pemBlocks (derToPem fixtureDer) = [derToPem fixtureDer] := by
  have hne : ∀ der ∈ [fixtureDer], der ≠ [] := List.forall_mem_singleton.mpr (List.cons_ne_nil _ _)
  have hjoin := pemBlocks_join hne
  rwa [List.map_singleton] at hjoin

/-- Whatever is read of these files parses. -/
lemma allParse_fixture {path text : String} (h : debianFiles.readText path = .ok text) :
    AllParse oneRootExternals (pemBlocks text) := by
  cases h
  rw [pemBlocks_fixture]
  intro pem hpem
  rw [List.mem_singleton.mp hpem]
  simp [oneRootExternals]

theorem go_trusts_linux_bundle_debian : ∃ findings,
    crossCheck oneRootExternals debianInput = some findings ∧
      ∃ finding ∈ findings, finding.id = "truststore.go.roots-present" := by
  have hread : (readLinuxCaBundle debianFiles 3 linuxCaBundlePaths maxRuntimeStoreBytes).failure =
      none := by
    change (if (pemBlocks (derToPem fixtureDer)).isEmpty then
      some TrustStoreFailure.noCertificates else none) = none
    rw [pemBlocks_fixture]
    rfl
  obtain ⟨-, hinput⟩ := go_trusts_linux_bundle oneRootExternals debianFiles debianLookup 3
    maxRuntimeStoreBytes rfl rfl rfl (Nat.le_refl _) (fun _ _ h => allParse_fixture h) hread
  obtain ⟨hgo, hreturns⟩ := hinput debianInput rfl rfl List.mem_cons_self
  have hstores : ∀ outcome ∈ debianInput.runtimeStores, AllParse oneRootExternals outcome.pems := by
    have hnone : AllParse oneRootExternals [] := fun _ hm => absurd hm List.not_mem_nil
    change ∀ outcome ∈ [envFileStore debianFiles debianLookup .go .goSslCertFile "SSL_CERT_FILE"
      .replaces, certDirStore oneRootExternals debianFiles debianLookup .go,
      goSystemBundleStore debianFiles linuxCaBundlePaths maxRuntimeStoreBytes], _
    rw [List.forall_mem_cons, List.forall_mem_cons, List.forall_mem_singleton]
    exact ⟨hnone, hnone, @allParse_fixture "" _ rfl⟩
  obtain ⟨findings, hf⟩ := hreturns (fun _ hm => absurd hm List.not_mem_nil) hstores
  exact ⟨findings, hf, (hgo findings hf).1⟩

end CrossCheck
end Portcall.Truststore
