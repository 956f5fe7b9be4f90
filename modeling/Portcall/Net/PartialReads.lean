import Portcall.Net.Completeness
import Portcall.Truststore.RuntimeFindings

/-! Stores that are read in part: whether they say so, and what the cross-check then makes of the
sets they go into. -/
namespace Portcall.Net
open Truststore

/-- A set that a store read in part went into is graded no blocker, and never said to have every
root. -/
def PartHeeded (ext : Externals) (fs : FileSystem) (lookup : Lookup)
    (outcomes : List RuntimeStoreOutcome) : Prop :=
  ∀ runtime set store,
    BuiltFrom runtime (outcomes.filter fun outcome => outcome.runtime = runtime) set store →
    StoreInPart ext fs lookup store → ∀ added observed coverage finding,
      setVerdict ext added observed coverage set = some (some finding) →
        finding.severity ≠ .blocker ∧ finding.id ≠ (runtimeIds runtime).rootsPresent

section Heeded
variable {ext : Externals} {fs : FileSystem} {lookup : Lookup} {publicRootPems : List String}
  {runtimes : List Runtime} {outcomes : List RuntimeStoreOutcome}

/-- Of a set that is marked partial only missing roots are reported, and as a degradation. -/
lemma setVerdict_of_isPartial {added : List Anchor} {observed : List ObservedAnchor}
    {coverage : OsCoverage} {set : TrustSet} {finding : Finding} (hpart : set.isPartial = true)
    (h : setVerdict ext added observed coverage set = some (some finding)) :
    finding.severity ≠ .blocker ∧ finding.id ≠ (runtimeIds set.runtime).rootsPresent := by
  obtain ⟨index, -, h⟩ := Option.map_eq_some_iff.mp h
  dsimp only at h
  split_ifs at h with hmissing hwhole
  · cases h
    refine ⟨?_, ?_⟩
    · simp [missingRootFinding, hpart]
    · change (runtimeIds set.runtime).missingRoot ≠ (runtimeIds set.runtime).rootsPresent
      cases set.runtime <;> decide
  · simp [hpart] at hwhole

/-- Where outcomes are accurate about themselves, what was read in part is heeded. -/
lemma partHeeded_of_accurate
    (h : ∀ outcome ∈ outcomes, Accurate ext fs lookup publicRootPems outcome) :
    PartHeeded ext fs lookup outcomes := by
  intro runtime set store hbuilt hpart added observed coverage finding hverdict
  obtain ⟨hm, hread, -⟩ := mem_readable.mp hbuilt.mem_readable
  have hmarked := (h store (List.mem_of_mem_filter hm) hread).1 hpart
  have hruntime : set.runtime = runtime := by
    obtain ⟨base, -, rfl, -⟩ := hbuilt
    rfl
  rw [← hruntime]
  exact setVerdict_of_isPartial (hbuilt.isPartial hmarked) hverdict

/-- The outcomes that claim to be whole are, those read in part are marked so and heeded, exactly
when no PEM file loses a certificate to a block that begins inside another and, if Go's stores are
read, the directory of certificates is read whole if at all and, if Java's are, every keystore found
is within the cap. -/
theorem read_accurate_iff (h : read ext fs lookup publicRootPems runtimes = some outcomes) :
    (∀ outcome ∈ outcomes, Accurate ext fs lookup publicRootPems outcome) ∧
        PartHeeded ext fs lookup outcomes ↔
      (∀ runtime ∈ runtimes, PemFilesLoseNone ext fs lookup runtime) ∧
        (Runtime.go ∈ runtimes → CertDirWithinBounds ext fs lookup) ∧
        (Runtime.java ∈ runtimes → CacertsWithinCap ext fs lookup) := by
  rw [← forall_accurate_iff h]
  exact and_iff_left_of_imp partHeeded_of_accurate

end Heeded

section LargeDirectory

/-- The two certificate files these directories hold: one certificate of three bytes, and one of
three others. -/
def firstText : String := "-----BEGIN CERTIFICATE-----\nMIIB\n-----END CERTIFICATE-----\n"
def lastText : String := "-----BEGIN CERTIFICATE-----\nMIIC\n-----END CERTIFICATE-----\n"

/-- A file system of one directory of certificates, in which the last file holds another
certificate than the others, and of keystores of one certificate and an encrypted part. -/
def certDirectory (entries : List String) (last : String) : FileSystem where
  stat _ := .ok 200
  readdir path := if path = "/certs" then .ok entries else .error (some "ENOENT")
  readText path := .ok (if path = "/certs/" ++ last then lastText else firstText)
  readBytes _ := .ok (buildPkcs12 partialContents)

def slashExternals : Externals where
  x509 _ := none
  x509Der _ := none
  parseUrl _ := none
  pathJoin _ parts := Text.join "/" parts
  unicodeLower := id

def certDirLookup : Lookup where
  platform := .linux
  env name := if name = "SSL_CERT_DIR" then some "/certs" else none
  maxBytes := maxRuntimeStoreBytes

def nineEntries : List String :=
  ["1.pem", "2.pem", "3.pem", "4.pem", "5.pem", "6.pem", "7.pem", "8.pem", "9.pem"]

def extraCaLookup : Lookup where
  platform := .linux
  env name := if name = "NODE_EXTRA_CA_CERTS" then some "/certs/9.pem" else certDirLookup.env name
  maxBytes := maxRuntimeStoreBytes

/-- The one block of this text is read. -/
lemma standingBlock_lastText {der : List UInt8} (h : PemBlock lastText der) :
    StandingBlock lastText der := by
  refine standingBlock_of_apart (fun start stop start' stop' _ hspan hlt => ?_) h
  obtain ⟨body, hat, -, -⟩ := hspan
  have hle := hat.le
  obtain ⟨before, after, htext, hlength⟩ := hat
  have hbegin : beginCertificate.isPrefixOf (lastText.toList.drop start') = true := by
    rw [htext, List.append_assoc, ← hlength, List.drop_left, List.isPrefixOf_iff_prefix, blockOf,
      List.append_assoc]
    exact List.prefix_append _ _
  have hnone : ∀ place < 9, 0 < place →
      beginCertificate.isPrefixOf (lastText.toList.drop place) = false := by decide
  have hlast : lastText.toList.length = 59 := by decide
  rw [length_blockOf, hlast] at hle
  rw [hnone start' (by omega) (by omega)] at hbegin
  cases hbegin

/-- A file of certificates, a directory of one file and keystores that are encrypted in part are
told for what they are. -/
theorem one_file_accurate : ∃ outcomes,
    read slashExternals (certDirectory ["9.pem"] "9.pem") extraCaLookup [] [.node, .go, .java] =
        some outcomes ∧
      (∀ outcome ∈ outcomes, Accurate slashExternals (certDirectory ["9.pem"] "9.pem") extraCaLookup
        [] outcome) ∧
      PartHeeded slashExternals (certDirectory ["9.pem"] "9.pem") extraCaLookup outcomes := by
  have hreturns : (read slashExternals (certDirectory ["9.pem"] "9.pem") extraCaLookup []
      [.node, .go, .java]).isSome := by decide
  obtain ⟨outcomes, houtcomes⟩ := Option.isSome_iff_exists.mp hreturns
  refine ⟨outcomes, houtcomes, (read_accurate_iff houtcomes).mpr ⟨?_, fun _ => ?_, fun _ => ?_⟩⟩
  · intro runtime hm path hpath text hopens
    have hfile : path = "/certs/9.pem" := by
      cases hpath with
      | nodeExtraCa named =>
        cases named
        rfl
      | goSslCertFile named => cases named
      | goSystemBundle _ _ noDir _ _ _ => cases noDir
      | pythonSslCertFile named => cases named
      | pythonRequestsCaBundle named => cases named
      | pythonCertifi _ _ => exact absurd hm (by decide)
    subst hfile
    obtain ⟨-, ⟨⟩⟩ := hopens
    exact fun _ der => standingBlock_lastText
  · rintro dir entries ⟨⟩ ⟨⟩ -
    have hfiles : certificateFiles slashExternals extraCaLookup "/certs" ["9.pem"] =
        ["/certs/9.pem"] := by decide
    refine ⟨by decide, ?_, ?_⟩ <;> rw [hfiles, List.forall_mem_singleton]
    · exact ⟨_, ⟨200, rfl, by decide⟩, rfl⟩
    · rintro text hopens der hder
      obtain ⟨-, ⟨⟩⟩ := id hopens
      exact ⟨_, List.mem_singleton_self _, _, hopens, standingBlock_lastText hder⟩
  · rintro found - path - size bytes - - ⟨⟩
    exact keystoreWithinCap_of_length_lt (by decide)

lemma pemBlocks_firstText : pemBlocks firstText = [derToPem [0x30, 0x82, 0x01]] := by
  have hblock : certificateBlock firstText.toList =
      some (['\n', 'M', 'I', 'I', 'B', '\n'], ['\n']) := by decide
  have hrest : certificateBodies ['\n'] = [] := by
    rw [certificateBodies]
    split
    · rename_i hblock
      cases hblock
    · rw [certificateBodies]
  have hbase64 : normaliseBase64 ['\n', 'M', 'I', 'I', 'B', '\n'] = some ['M', 'I', 'I', 'B'] := by
    decide
  have hder : Base64.decode ['M', 'I', 'I', 'B'] = [0x30, 0x82, 0x01] := by decide
  unfold pemBlocks
  rw [certificateBodies_of_block hblock, hrest, List.filterMap_cons, hbase64, Option.map_some, hder]
  rfl

lemma pemBlock_lastText : PemBlock lastText [0x30, 0x82, 0x02] := by
  have hblock : certificateBlock lastText.toList =
      some (['\n', 'M', 'I', 'I', 'C', '\n'], ['\n']) := by decide
  have hder : (normaliseBase64 ['\n', 'M', 'I', 'I', 'C', '\n']).map Base64.decode =
      some [0x30, 0x82, 0x02] := by decide
  refine ⟨0, _, ?_, normaliseBase64_map_decode_iff.mp hder⟩
  rw [(certificateBlock_eq_some_iff.mp hblock).1]
  exact Segment.at_zero _

lemma readPemFile_certDirectory {entries : List String} {last file : String}
    (hne : file ≠ "/certs/" ++ last) :
    (readPemFile (certDirectory entries last) file maxRuntimeStoreBytes).pems =
      [derToPem [0x30, 0x82, 0x01]] := by
  have hbound : ¬maxRuntimeStoreBytes < 200 := by decide
  unfold readPemFile certDirectory
  simp only [if_neg hbound, if_neg hne, pemBlocks_firstText]

lemma readOfDir_nineEntries : ReadOfDir slashExternals (certDirectory nineEntries "9.pem")
    certDirLookup "/certs" nineEntries
    (certDirStore slashExternals (certDirectory nineEntries "9.pem") certDirLookup .go) :=
  readOfDir_certDirStore rfl rfl

/-- The first eight files hold one certificate between them. -/
lemma mem_pems_nineEntries {pem : String} :
    pem ∈ (certDirStore slashExternals (certDirectory nineEntries "9.pem") certDirLookup .go).pems ↔
      pem = derToPem [0x30, 0x82, 0x01] := by
  have hfiles : ∀ file ∈ capped (certificateFiles slashExternals certDirLookup "/certs"
      nineEntries), file ≠ "/certs/" ++ "9.pem" := by decide
  have hsome : capped (certificateFiles slashExternals certDirLookup "/certs" nineEntries) ≠ [] := by
    decide
  have hmax : certDirLookup.maxBytes = maxRuntimeStoreBytes := rfl
  rw [readOfDir_nineEntries.pems, List.mem_flatMap]
  constructor
  · rintro ⟨file, hfile, hm⟩
    rw [hmax, readPemFile_certDirectory (hfiles file hfile)] at hm
    exact List.mem_singleton.mp hm
  · rintro rfl
    obtain ⟨file, hfile⟩ := List.exists_mem_of_ne_nil _ hsome
    refine ⟨file, hfile, ?_⟩
    rw [hmax, readPemFile_certDirectory (hfiles file hfile)]
    exact List.mem_singleton_self _

/-- Of nine certificate files eight are read: the ninth certificate is missing from an outcome that
names no failure and does not say that it is partial. -/
theorem ninth_file_missed : ∃ outcomes,
    read slashExternals (certDirectory nineEntries "9.pem") certDirLookup [] [.go] = some outcomes ∧
      ∃ outcome ∈ outcomes, outcome.failure = none ∧ outcome.isPartial = false ∧
        StoreInPart slashExternals (certDirectory nineEntries "9.pem") certDirLookup outcome ∧
        ∃ pem, StoreHolds slashExternals (certDirectory nineEntries "9.pem") certDirLookup [] outcome
          pem ∧ pem ∉ outcome.pems := by
  have hread := readOfDir_nineEntries
  refine ⟨_, rfl, certDirStore slashExternals (certDirectory nineEntries "9.pem") certDirLookup .go,
    by simp [goStores, certDirLookup, envValue], ?_, hread.isPartial, ?_, derToPem [0x30, 0x82, 0x02],
    ?_, ?_⟩
  · rw [hread.failure]
    exact List.ne_nil_of_mem (mem_pems_nineEntries.mpr rfl)
  · rw [hread.storeInPart_iff rfl]
    exact Or.inl (by decide)
  · unfold StoreHolds
    rw [hread.kind, hread.locator]
    exact ⟨nineEntries, rfl, "9.pem", by decide, by decide, lastText, _, rfl, pemBlock_lastText, rfl⟩
  · rw [mem_pems_nineEntries]
    exact fun he => absurd (derToPem_injective he) (by decide)

end LargeDirectory
end Portcall.Net
