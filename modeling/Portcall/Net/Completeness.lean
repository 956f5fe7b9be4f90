import Portcall.Library.OptionMap
import Portcall.Net.KeystoreListing
import Portcall.Net.PemBlocks
import Portcall.Net.RuntimeStores

/-! What the runtime stores hold against what is read of them: when an outcome that claims to be
whole is. -/
namespace Portcall.Net
variable (ext : Externals) (fs : FileSystem) (lookup : Lookup) (publicRootPems : List String)

/-- The bound lets a file through, and it opens with this text. -/
def OpensWith (maxBytes : ℕ) (path text : String) : Prop :=
  (∃ size, fs.stat path = .ok size ∧ size ≤ maxBytes) ∧ fs.readText path = .ok text

def ReadableFile (maxBytes : ℕ) (path : String) : Prop := ∃ text, OpensWith fs maxBytes path text

/-- A certificate block of a file that opens. -/
def FileHolds (path pem : String) : Prop :=
  ∃ text der, fs.readText path = .ok text ∧ PemBlock text der ∧ pem = derToPem der

/-- What the store behind an outcome holds. -/
def StoreHolds (outcome : RuntimeStoreOutcome) (pem : String) : Prop :=
  match outcome.kind, outcome.locator with
  | .nodeBundled, _ => pem ∈ publicRootPems
  | .platformVerifier, _ => False
  | .goSslCertDir, some dir => ∃ entries, fs.readdir dir = .ok entries ∧
    ∃ entry ∈ entries, isCertificateFile entry = true ∧
      FileHolds fs (joinPath ext lookup.platform [dir, entry]) pem
  | .javaCacerts, some path => ∃ bytes der, fs.readBytes path = .ok bytes ∧
    KeystoreHolds bytes der ∧ pem = derToPem der
  | _, some path => FileHolds fs path pem
  | _, none => False

/-- The store behind an outcome is one that is read only in part. -/
def StoreInPart (outcome : RuntimeStoreOutcome) : Prop :=
  match outcome.kind, outcome.locator with
  | .goSslCertDir, some dir => ∃ entries, fs.readdir dir = .ok entries ∧
    (maxDiscoveryMatches < (entries.filter isCertificateFile).length ∨
      ∃ entry ∈ entries, isCertificateFile entry = true ∧
        ¬ReadableFile fs lookup.maxBytes (joinPath ext lookup.platform [dir, entry]))
  | .javaCacerts, some path => ∃ bytes, fs.readBytes path = .ok bytes ∧ KeystoreInPart bytes
  | _, _ => False

/-- An outcome without a failure says when its store was read in part, and otherwise has every
certificate the store holds. -/
def Accurate (outcome : RuntimeStoreOutcome) : Prop :=
  outcome.failure = none →
    (StoreInPart ext fs lookup outcome → outcome.isPartial = true) ∧
      (outcome.isPartial = false →
        ∀ pem, StoreHolds ext fs lookup publicRootPems outcome pem → pem ∈ outcome.pems)

/-- The single PEM files that are the stores of a runtime. -/
inductive PemPath : Runtime → String → Prop where
  | nodeExtraCa {path : String} (named : envValue lookup.env "NODE_EXTRA_CA_CERTS" = some path) :
      PemPath .node path
  | goSslCertFile {path : String} (named : envValue lookup.env "SSL_CERT_FILE" = some path) :
      PemPath .go path
  | goSystemBundle {path : String} {before after : List String} (platform : lookup.platform = .linux)
      (noFile : envValue lookup.env "SSL_CERT_FILE" = none)
      (noDir : envValue lookup.env "SSL_CERT_DIR" = none)
      (paths : linuxCaBundlePaths = before ++ path :: after)
      (absent : ∀ other ∈ before, pathExists fs other = false)
      (present : pathExists fs path = true) : PemPath .go path
  | pythonSslCertFile {path : String} (named : envValue lookup.env "SSL_CERT_FILE" = some path) :
      PemPath .python path
  | pythonRequestsCaBundle {path : String}
      (named : envValue lookup.env "REQUESTS_CA_BUNDLE" = some path) : PemPath .python path
  | pythonCertifi {path : String} {found : List String}
      (search : discover ext fs lookup [] (certifiPatterns lookup) = some found)
      (kept : path ∈ capped found) : PemPath .python path

/-- No certificate is lost in a PEM file that is a store of this runtime. -/
def PemFilesLoseNone (runtime : Runtime) : Prop :=
  ∀ path, PemPath ext fs lookup runtime path → ∀ text, OpensWith fs lookup.maxBytes path text →
    LosesNone text

/-- The files of a directory of certificates are few enough, each of them opens, and each of their
certificates has a block that is taken. -/
structure CertDirWhole (dir : String) (entries : List String) : Prop where
  few : (entries.filter isCertificateFile).length ≤ maxDiscoveryMatches
  readable : ∀ file ∈ certificateFiles ext lookup dir entries, ReadableFile fs lookup.maxBytes file
  losesNone : ∀ file ∈ certificateFiles ext lookup dir entries, ∀ text,
    OpensWith fs lookup.maxBytes file text → ∀ der, PemBlock text der →
      ∃ file' ∈ certificateFiles ext lookup dir entries, ∃ text',
        OpensWith fs lookup.maxBytes file' text' ∧ StandingBlock text' der

/-- A directory of certificates is read whole, if any certificate is read of the files that the cap
leaves. -/
def CertDirWithinBounds : Prop :=
  ∀ dir entries, envValue lookup.env "SSL_CERT_DIR" = some dir → fs.readdir dir = .ok entries →
    (∃ file ∈ capped (certificateFiles ext lookup dir entries), ∃ text der,
      OpensWith fs lookup.maxBytes file text ∧ StandingBlock text der) →
    CertDirWhole ext fs lookup dir entries

/-- Every keystore that the search finds and the bounds let through is within the cap. -/
def CacertsWithinCap : Prop :=
  ∀ found, discover ext fs lookup [] (cacertsPatterns lookup) = some found →
    ∀ path ∈ capped found, ∀ size bytes, fs.stat path = .ok size → size ≤ lookup.maxBytes →
      fs.readBytes path = .ok bytes → KeystoreWithinCap bytes

section Files
variable {ext fs lookup publicRootPems} {outcome : RuntimeStoreOutcome}

lemma accurate_of_failure (h : outcome.failure ≠ none) :
    Accurate ext fs lookup publicRootPems outcome := fun hnone => absurd hnone h

/-- The kinds whose store is one PEM file. -/
def isPemFile : RuntimeStoreKind → Bool
  | .nodeExtraCa | .goSslCertFile | .goSystemBundle | .pythonCertifi | .pythonSslCertFile |
    .pythonRequestsCaBundle => true
  | .nodeBundled | .goSslCertDir | .javaCacerts | .platformVerifier => false

/-- What is read of a file are the certificates whose blocks are taken, if it opens. -/
lemma mem_pems_readPemFile_iff {path pem : String} {maxBytes : ℕ} :
    pem ∈ (readPemFile fs path maxBytes).pems ↔
      ∃ text, OpensWith fs maxBytes path text ∧
        ∃ der, StandingBlock text der ∧ pem = derToPem der := by
  unfold readPemFile OpensWith
  cases hstat : fs.stat path with
  | error errno => simp
  | ok size =>
    dsimp only
    split_ifs with hsize
    · refine iff_of_false List.not_mem_nil ?_
      rintro ⟨text, ⟨⟨_, ⟨⟩, hle⟩, -⟩, -⟩
      omega
    · cases htext : fs.readText path with
      | error errno => simp
      | ok text =>
        dsimp only
        rw [mem_pemBlocks_iff]
        constructor
        · exact fun h => ⟨text, ⟨⟨size, rfl, Nat.le_of_not_lt hsize⟩, rfl⟩, h⟩
        · rintro ⟨_, ⟨-, ⟨⟩⟩, h⟩
          exact h

/-- A file is read without a failure exactly when it has a certificate to give. -/
lemma failure_readPemFile_eq_none_iff {path : String} {maxBytes : ℕ} :
    (readPemFile fs path maxBytes).failure = none ↔
      ∃ text, OpensWith fs maxBytes path text ∧ ∃ der, StandingBlock text der := by
  have hpems : (readPemFile fs path maxBytes).failure = none ↔
      (readPemFile fs path maxBytes).pems ≠ [] := by
    unfold readPemFile
    cases fs.stat path with
    | error errno => simp
    | ok size =>
      dsimp only
      split_ifs with hsize
      · simp
      · cases fs.readText path with
        | error errno => simp
        | ok text => simp [List.isEmpty_iff]
  rw [hpems]
  constructor
  · intro hne
    obtain ⟨pem, hpem⟩ := List.exists_mem_of_ne_nil _ hne
    obtain ⟨text, hopens, der, hder, -⟩ := mem_pems_readPemFile_iff.mp hpem
    exact ⟨text, hopens, der, hder⟩
  · rintro ⟨text, hopens, der, hder⟩
    exact List.ne_nil_of_mem (mem_pems_readPemFile_iff.mpr ⟨text, hopens, der, hder, rfl⟩)

lemma OpensWith.unique {path text text' : String} {maxBytes : ℕ}
    (h : OpensWith fs maxBytes path text) (h' : OpensWith fs maxBytes path text') : text = text' := by
  have htext := h.2.symm.trans h'.2
  rwa [Except.ok.injEq] at htext

lemma OpensWith.fileHolds_iff {path text pem : String} {maxBytes : ℕ}
    (h : OpensWith fs maxBytes path text) :
    FileHolds fs path pem ↔ ∃ der, PemBlock text der ∧ pem = derToPem der := by
  unfold FileHolds
  rw [h.2]
  simp only [Except.ok.injEq]
  constructor
  · rintro ⟨_, der, rfl, hblock, hpem⟩
    exact ⟨der, hblock, hpem⟩
  · rintro ⟨der, hblock, hpem⟩
    exact ⟨text, der, rfl, hblock, hpem⟩

/-- A store that is one PEM file is accurate exactly when no certificate of the file is lost. -/
lemma accurate_pemOutcome_iff {path : String} {searched : List String}
    (hkind : isPemFile outcome.kind = true) (hwhole : outcome.isPartial = false) :
    Accurate ext fs lookup publicRootPems
        (pemOutcome outcome path searched (readPemFile fs path lookup.maxBytes)) ↔
      ∀ text, OpensWith fs lookup.maxBytes path text → LosesNone text := by
  have hkinds : (pemOutcome outcome path searched
      (readPemFile fs path lookup.maxBytes)).kind = outcome.kind := rfl
  have hpart : ¬StoreInPart ext fs lookup
      (pemOutcome outcome path searched (readPemFile fs path lookup.maxBytes)) := by
    unfold StoreInPart
    rw [hkinds]
    revert hkind
    cases outcome.kind <;> simp [isPemFile]
  have hholds : ∀ pem, StoreHolds ext fs lookup publicRootPems
      (pemOutcome outcome path searched (readPemFile fs path lookup.maxBytes)) pem ↔
        FileHolds fs path pem := by
    intro pem
    unfold StoreHolds
    rw [hkinds]
    revert hkind
    cases outcome.kind <;> simp [isPemFile, pemOutcome]
  constructor
  · intro haccurate text hopens hsome der hder
    have hfailure := failure_readPemFile_eq_none_iff.mpr ⟨text, hopens, hsome⟩
    have hmem := (haccurate hfailure).2 hwhole (derToPem der)
      ((hholds _).mpr (hopens.fileHolds_iff.mpr ⟨der, hder, rfl⟩))
    obtain ⟨text', hopens', der', hder', heq⟩ := mem_pems_readPemFile_iff.mp hmem
    rw [hopens.unique hopens', derToPem_injective heq]
    exact hder'
  · intro hkeeps hfailure
    refine ⟨fun h => absurd h hpart, fun _ pem hpem => ?_⟩
    obtain ⟨text, hopens, hsome⟩ := failure_readPemFile_eq_none_iff.mp hfailure
    obtain ⟨der, hder, rfl⟩ := hopens.fileHolds_iff.mp ((hholds pem).mp hpem)
    exact mem_pems_readPemFile_iff.mpr
      ⟨text, hopens, der, hkeeps text hopens hsome der hder, rfl⟩

lemma accurate_envFileStore_iff {runtime : Runtime} {kind : RuntimeStoreKind} {name : String}
    {combines : StoreCombination} (hkind : isPemFile kind = true) :
    Accurate ext fs lookup publicRootPems (envFileStore fs lookup runtime kind name combines) ↔
      ∀ path, envValue lookup.env name = some path → ∀ text,
        OpensWith fs lookup.maxBytes path text → LosesNone text := by
  unfold envFileStore
  cases envValue lookup.env name with
  | none => exact iff_of_true (accurate_of_failure nofun) nofun
  | some path =>
    simp only [Option.some.injEq, forall_eq']
    exact accurate_pemOutcome_iff hkind rfl

lemma mem_certificateFiles {dir : String} {entries : List String} {file : String} :
    file ∈ certificateFiles ext lookup dir entries ↔ ∃ entry ∈ entries,
      isCertificateFile entry = true ∧ file = joinPath ext lookup.platform [dir, entry] := by
  unfold certificateFiles Text.sorted
  simp only [List.mem_map, List.mem_insertionSort, List.mem_filter, and_assoc]
  constructor
  · rintro ⟨entry, hm, hfile, rfl⟩
    exact ⟨entry, hm, hfile, rfl⟩
  · rintro ⟨entry, hm, hfile, rfl⟩
    exact ⟨entry, hm, hfile, rfl⟩

lemma length_certificateFiles {dir : String} {entries : List String} :
    (certificateFiles ext lookup dir entries).length =
      (entries.filter isCertificateFile).length := by
  unfold certificateFiles Text.sorted
  rw [List.length_map, List.length_insertionSort]

/-- What the directory store comes to when the directory can be listed. -/
structure ReadOfDir (ext : Externals) (fs : FileSystem) (lookup : Lookup) (dir : String)
    (entries : List String) (outcome : RuntimeStoreOutcome) : Prop where
  kind : outcome.kind = .goSslCertDir
  locator : outcome.locator = some dir
  isPartial : outcome.isPartial = false
  pems : outcome.pems = (capped (certificateFiles ext lookup dir entries)).flatMap fun file =>
    (readPemFile fs file lookup.maxBytes).pems
  failure : outcome.failure = none ↔ outcome.pems ≠ []

lemma readOfDir_certDirStore {runtime : Runtime} {dir : String} {entries : List String}
    (hdir : envValue lookup.env "SSL_CERT_DIR" = some dir) (hentries : fs.readdir dir = .ok entries) :
    ReadOfDir ext fs lookup dir entries (certDirStore ext fs lookup runtime) := by
  unfold certDirStore
  rw [hdir]
  dsimp only
  rw [hentries]
  refine ⟨rfl, rfl, rfl, List.flatMap_map .., ?_⟩
  dsimp only
  split_ifs with hempty
  · exact iff_of_false nofun fun hne => hne (List.isEmpty_iff.mp hempty)
  · exact iff_of_true rfl fun hnil => hempty (List.isEmpty_iff.mpr hnil)

section Dir
variable {dir : String} {entries : List String}

lemma ReadOfDir.storeInPart_iff (h : ReadOfDir ext fs lookup dir entries outcome)
    (hentries : fs.readdir dir = .ok entries) : StoreInPart ext fs lookup outcome ↔
      maxDiscoveryMatches < (entries.filter isCertificateFile).length ∨
        ∃ file ∈ certificateFiles ext lookup dir entries, ¬ReadableFile fs lookup.maxBytes file := by
  unfold StoreInPart
  rw [h.kind, h.locator]
  simp only [hentries, Except.ok.injEq, exists_eq_left', mem_certificateFiles]
  refine or_congr_right ⟨?_, ?_⟩
  · rintro ⟨entry, hm, hfile, hnot⟩
    exact ⟨_, ⟨entry, hm, hfile, rfl⟩, hnot⟩
  · rintro ⟨_, ⟨entry, hm, hfile, rfl⟩, hnot⟩
    exact ⟨entry, hm, hfile, hnot⟩

lemma ReadOfDir.storeHolds_iff (h : ReadOfDir ext fs lookup dir entries outcome)
    (hentries : fs.readdir dir = .ok entries) {pem : String} :
    StoreHolds ext fs lookup publicRootPems outcome pem ↔
      ∃ file ∈ certificateFiles ext lookup dir entries, FileHolds fs file pem := by
  unfold StoreHolds
  rw [h.kind, h.locator]
  simp only [hentries, Except.ok.injEq, exists_eq_left', mem_certificateFiles]
  constructor
  · rintro ⟨entry, hm, hfile, hholds⟩
    exact ⟨_, ⟨entry, hm, hfile, rfl⟩, hholds⟩
  · rintro ⟨_, ⟨entry, hm, hfile, rfl⟩, hholds⟩
    exact ⟨entry, hm, hfile, hholds⟩

lemma ReadOfDir.mem_pems_iff (h : ReadOfDir ext fs lookup dir entries outcome) {pem : String} :
    pem ∈ outcome.pems ↔ ∃ file ∈ capped (certificateFiles ext lookup dir entries), ∃ text,
      OpensWith fs lookup.maxBytes file text ∧ ∃ der, StandingBlock text der ∧ pem = derToPem der := by
  rw [h.pems, List.mem_flatMap]
  simp only [mem_pems_readPemFile_iff]

lemma ReadOfDir.failure_eq_none_iff (h : ReadOfDir ext fs lookup dir entries outcome) :
    outcome.failure = none ↔ ∃ file ∈ capped (certificateFiles ext lookup dir entries),
      ∃ text der, OpensWith fs lookup.maxBytes file text ∧ StandingBlock text der := by
  rw [h.failure]
  constructor
  · intro hne
    obtain ⟨pem, hpem⟩ := List.exists_mem_of_ne_nil _ hne
    obtain ⟨file, hfile, text, hopens, der, hder, -⟩ := h.mem_pems_iff.mp hpem
    exact ⟨file, hfile, text, der, hopens, hder⟩
  · rintro ⟨file, hfile, text, der, hopens, hder⟩
    exact List.ne_nil_of_mem (h.mem_pems_iff.mpr ⟨file, hfile, text, hopens, der, hder, rfl⟩)

/-- The store of a directory that lists is accurate exactly when the directory is read whole, if
anything is read of it. -/
lemma ReadOfDir.accurate_iff (h : ReadOfDir ext fs lookup dir entries outcome)
    (hentries : fs.readdir dir = .ok entries) :
    Accurate ext fs lookup publicRootPems outcome ↔
      (outcome.failure = none → CertDirWhole ext fs lookup dir entries) := by
  have hall : (entries.filter isCertificateFile).length ≤ maxDiscoveryMatches →
      capped (certificateFiles ext lookup dir entries) = certificateFiles ext lookup dir entries :=
    fun hfew => List.take_of_length_le (by rwa [length_certificateFiles])
  constructor
  · intro haccurate hfailure
    obtain ⟨hmarked, hcomplete⟩ := haccurate hfailure
    rw [h.storeInPart_iff hentries, h.isPartial] at hmarked
    have hfew : (entries.filter isCertificateFile).length ≤ maxDiscoveryMatches := by
      by_contra hcap
      exact absurd (hmarked (Or.inl (Nat.lt_of_not_le hcap))) (by decide)
    refine ⟨hfew, fun file hfile => ?_, fun file hfile text hopens der hder => ?_⟩
    · by_contra hunreadable
      exact absurd (hmarked (Or.inr ⟨file, hfile, hunreadable⟩)) (by decide)
    · have hpem := hcomplete h.isPartial (derToPem der) ((h.storeHolds_iff hentries).mpr
        ⟨file, hfile, hopens.fileHolds_iff.mpr ⟨der, hder, rfl⟩⟩)
      obtain ⟨file', hfile', text', hopens', der', hder', heq⟩ := h.mem_pems_iff.mp hpem
      rw [hall hfew] at hfile'
      exact ⟨file', hfile', text', hopens', derToPem_injective heq ▸ hder'⟩
  · intro hwhole hfailure
    obtain ⟨hfew, hreadable, hkeeps⟩ := hwhole hfailure
    refine ⟨fun hpart => ?_, fun _ pem hholds => ?_⟩
    · rcases (h.storeInPart_iff hentries).mp hpart with hcap | ⟨file, hfile, hnot⟩
      · omega
      · exact absurd (hreadable file hfile) hnot
    · obtain ⟨file, hfile, hholds⟩ := (h.storeHolds_iff hentries).mp hholds
      obtain ⟨text, hopens⟩ := hreadable file hfile
      obtain ⟨der, hder, rfl⟩ := hopens.fileHolds_iff.mp hholds
      obtain ⟨file', hfile', text', hopens', hder'⟩ := hkeeps file hfile text hopens der hder
      rw [← hall hfew] at hfile'
      exact h.mem_pems_iff.mpr ⟨file', hfile', text', hopens', der, hder', rfl⟩

end Dir

/-- The directory store is accurate exactly when the directory is within the bounds: it never marks
itself partial. -/
theorem accurate_certDirStore_iff {runtime : Runtime} :
    Accurate ext fs lookup publicRootPems (certDirStore ext fs lookup runtime) ↔
      CertDirWithinBounds ext fs lookup := by
  unfold CertDirWithinBounds
  cases hdir : envValue lookup.env "SSL_CERT_DIR" with
  | none =>
    refine iff_of_true (accurate_of_failure ?_) fun _ _ hsome => nomatch hsome
    unfold certDirStore
    rw [hdir]
    nofun
  | some dir =>
    simp only [Option.some.injEq]
    cases hentries : fs.readdir dir with
    | error errno =>
      refine iff_of_true (accurate_of_failure ?_) ?_
      · unfold certDirStore
        rw [hdir]
        dsimp only
        rw [hentries]
        nofun
      · rintro _ entries rfl hread
        rw [hentries] at hread
        cases hread
    | ok entries =>
      have hread : ReadOfDir ext fs lookup dir entries (certDirStore ext fs lookup runtime) :=
        readOfDir_certDirStore hdir hentries
      rw [hread.accurate_iff hentries, hread.failure_eq_none_iff]
      constructor
      · rintro hwithin _ _ rfl hread'
        rw [hentries, Except.ok.injEq] at hread'
        exact hread' ▸ hwithin
      · exact fun hwithin => hwithin dir entries rfl hentries

/-- A `cacerts` store is accurate exactly when the keystore in it is within the cap. -/
theorem accurate_cacertsOutcome_iff {path : String} :
    Accurate ext fs lookup publicRootPems
        (cacertsOutcome path (readJavaCacerts fs path lookup.maxBytes)) ↔
      ∀ size bytes, fs.stat path = .ok size → size ≤ lookup.maxBytes →
        fs.readBytes path = .ok bytes → KeystoreWithinCap bytes := by
  unfold cacertsOutcome readJavaCacerts
  cases hstat : fs.stat path with
  | error errno => exact iff_of_true (accurate_of_failure nofun) nofun
  | ok size =>
    by_cases hsize : lookup.maxBytes < size
    · simp only [if_pos hsize]
      refine iff_of_true (accurate_of_failure nofun) fun size' bytes hstat' hle => ?_
      cases hstat'
      omega
    · simp only [if_neg hsize]
      cases hbytes : fs.readBytes path with
      | error errno => exact iff_of_true (accurate_of_failure nofun) nofun
      | ok bytes =>
        have hnone : (readKeystore bytes).failure.map KeystoreFailure.storeFailure = none ↔
            (readKeystore bytes).failure = none := Option.map_eq_none_iff
        constructor
        · rintro haccurate _ _ - - ⟨⟩
          exact keystoreWithinCap_of_marked fun hfailure hpart =>
            (haccurate (hnone.mpr hfailure)).1 ⟨bytes, hbytes, hpart⟩
        · intro hwithin hfailure
          have hkeystore := keystoreAccurate_of_withinCap
            (hwithin size bytes rfl (Nat.le_of_not_lt hsize) rfl) (hnone.mp hfailure)
          refine ⟨?_, fun hwhole pem hholds => ?_⟩
          · rintro ⟨bytes', hread, hpart⟩
            rw [hbytes, Except.ok.injEq] at hread
            subst hread
            exact hkeystore.1 hpart
          · obtain ⟨bytes', der, hread, hder, rfl⟩ := hholds
            rw [hbytes, Except.ok.injEq] at hread
            subst hread
            exact List.mem_map_of_mem (hkeystore.2 hwhole der hder)

end Files

section Runtimes
variable {ext fs lookup publicRootPems} {runtimes : List Runtime}
  {outcomes stores : List RuntimeStoreOutcome}

lemma mem_read (h : read ext fs lookup publicRootPems runtimes = some outcomes)
    {outcome : RuntimeStoreOutcome} : outcome ∈ outcomes ↔ ∃ runtime ∈ runtimes, ∃ stores,
      runtimeStores ext fs lookup publicRootPems runtime = some stores ∧ outcome ∈ stores := by
  obtain ⟨all, hall, rfl⟩ := Option.map_eq_some_iff.mp h
  rw [List.mem_flatten]
  constructor
  · rintro ⟨stores, hstores, hm⟩
    obtain ⟨runtime, hruntime, hsome⟩ := (OptionMap.mem_of_mapM_eq_some hall _).mp hstores
    exact ⟨runtime, hruntime, stores, hsome, hm⟩
  · rintro ⟨runtime, hruntime, stores, hsome, hm⟩
    exact ⟨stores, (OptionMap.mem_of_mapM_eq_some hall _).mpr ⟨runtime, hruntime, hsome⟩, hm⟩

/-- Of Node's stores the file of extra certificates is the one in question. -/
lemma accurate_nodeStores_iff : (∀ outcome ∈ nodeStores fs lookup publicRootPems,
    Accurate ext fs lookup publicRootPems outcome) ↔ PemFilesLoseNone ext fs lookup .node := by
  have hbundled : Accurate ext fs lookup publicRootPems
      { Net.outcome .node .nodeBundled .standalone with
        pems := publicRootPems
        failure := if publicRootPems.isEmpty then some .noCertificates else none } :=
    fun _ => ⟨fun hpart => hpart.elim, fun _ pem hholds => hholds⟩
  unfold nodeStores
  rw [List.forall_mem_cons, and_iff_right hbundled, List.forall_mem_singleton,
    accurate_envFileStore_iff rfl]
  constructor
  · rintro h _ ⟨hnamed⟩
    exact h _ hnamed
  · exact fun h path hnamed => h path (.nodeExtraCa hnamed)

lemma accurate_goSystemBundleLoop_iff {maxBytes : ℕ} (hmax : maxBytes = lookup.maxBytes)
    (paths tried : List String) :
    Accurate ext fs lookup publicRootPems (goSystemBundleLoop fs maxBytes tried paths) ↔
      ∀ before path after, paths = before ++ path :: after →
        (∀ other ∈ before, pathExists fs other = false) → pathExists fs path = true →
        ∀ text, OpensWith fs lookup.maxBytes path text → LosesNone text := by
  induction paths generalizing tried with
  | nil => exact iff_of_true (accurate_of_failure nofun) fun before path after h => by simp at h
  | cons path paths ih =>
    rw [goSystemBundleLoop]
    split_ifs with hexists
    · rw [hmax, accurate_pemOutcome_iff rfl rfl]
      constructor
      · rintro h (_ | ⟨other, before⟩) path' after heq habsent hpresent
        · cases heq
          exact h
        · cases heq
          rw [habsent _ List.mem_cons_self] at hexists
          cases hexists
      · exact fun h => h [] path paths rfl (fun _ hm => absurd hm List.not_mem_nil) hexists
    · rw [ih]
      constructor
      · rintro h (_ | ⟨other, before⟩) path' after heq habsent hpresent
        · cases heq
          exact absurd hpresent hexists
        · cases heq
          exact h before path' after rfl (fun other hm => habsent other (List.mem_cons_of_mem _ hm))
            hpresent
      · intro h before path' after heq habsent hpresent
        refine h (path :: before) path' after (by rw [heq]; rfl) (fun other hm => ?_) hpresent
        rcases List.mem_cons.mp hm with rfl | hm
        · exact Bool.eq_false_iff.mpr hexists
        · exact habsent other hm

/-- Of Go's stores the files and the directory are the ones in question. -/
lemma accurate_goStores_iff :
    (∀ outcome ∈ goStores ext fs lookup, Accurate ext fs lookup publicRootPems outcome) ↔
      PemFilesLoseNone ext fs lookup .go ∧ CertDirWithinBounds ext fs lookup := by
  have hverifier : Accurate ext fs lookup publicRootPems
      (outcome .go .platformVerifier .standalone) :=
    fun _ => ⟨fun hpart => hpart.elim, fun _ _ hholds => hholds.elim⟩
  have hbundle := @accurate_goSystemBundleLoop_iff ext fs lookup publicRootPems _ rfl
    linuxCaBundlePaths []
  have hfiles : PemFilesLoseNone ext fs lookup .go ↔
      (∀ path, envValue lookup.env "SSL_CERT_FILE" = some path → ∀ text,
        OpensWith fs lookup.maxBytes path text → LosesNone text) ∧
      (lookup.platform = .linux → envValue lookup.env "SSL_CERT_FILE" = none →
        envValue lookup.env "SSL_CERT_DIR" = none → Accurate ext fs lookup publicRootPems
          (goSystemBundleStore fs linuxCaBundlePaths lookup.maxBytes)) := by
    constructor
    · intro h
      refine ⟨fun path hnamed => h path (.goSslCertFile hnamed), fun hplatform hfile hdir => ?_⟩
      exact hbundle.mpr fun before path after hpaths habsent hpresent =>
        h path (.goSystemBundle hplatform hfile hdir hpaths habsent hpresent)
    · rintro ⟨hfile, hsystem⟩ path hpath
      cases hpath with
      | goSslCertFile hnamed => exact hfile path hnamed
      | goSystemBundle hplatform hnone hdir hpaths habsent hpresent =>
        exact hbundle.mp (hsystem hplatform hnone hdir) _ path _ hpaths habsent hpresent
  rw [hfiles, ← @accurate_certDirStore_iff ext fs lookup publicRootPems .go,
    ← @accurate_envFileStore_iff ext fs lookup publicRootPems .go .goSslCertFile "SSL_CERT_FILE"
      .replaces rfl, and_right_comm]
  unfold goStores
  dsimp only
  cases hfile : envValue lookup.env "SSL_CERT_FILE" <;>
    cases hdir : envValue lookup.env "SSL_CERT_DIR" <;>
    cases hplatform : lookup.platform <;> simp [hverifier, and_assoc]

/-- Python's stores are PEM files, each of them. -/
lemma accurate_pythonStores_iff (h : pythonStores ext fs lookup = some stores) :
    (∀ outcome ∈ stores, Accurate ext fs lookup publicRootPems outcome) ↔
      PemFilesLoseNone ext fs lookup .python := by
  obtain ⟨certifi, hcertifi, rfl⟩ := Option.map_eq_some_iff.mp h
  obtain ⟨found, hfound, hstores⟩ := Option.bind_eq_some_iff.mp hcertifi
  have hsearch : (∀ outcome ∈ certifi, Accurate ext fs lookup publicRootPems outcome) ↔
      ∀ path ∈ capped found, ∀ text, OpensWith fs lookup.maxBytes path text → LosesNone text := by
    split_ifs at hstores with hempty
    · cases hstores
      refine iff_of_true (fun outcome hm => ?_) fun path hm => ?_
      · rw [List.mem_singleton.mp hm]
        exact accurate_of_failure nofun
      · rw [List.isEmpty_iff.mp hempty] at hm
        exact absurd hm List.not_mem_nil
    · cases hstores
      rw [List.forall_mem_map]
      exact forall₂_congr fun path _ => accurate_pemOutcome_iff rfl rfl
  rw [List.forall_mem_append, List.forall_mem_cons, List.forall_mem_singleton, hsearch,
    accurate_envFileStore_iff rfl, accurate_envFileStore_iff rfl]
  constructor
  · rintro ⟨⟨hfile, hbundle⟩, hkept⟩ path hpath
    cases hpath with
    | pythonSslCertFile hnamed => exact hfile path hnamed
    | pythonRequestsCaBundle hnamed => exact hbundle path hnamed
    | pythonCertifi hsome hm =>
      rw [hfound, Option.some.injEq] at hsome
      exact hkept path (hsome ▸ hm)
  · intro h
    refine ⟨⟨fun path hnamed => h path (.pythonSslCertFile hnamed), fun path hnamed =>
      h path (.pythonRequestsCaBundle hnamed)⟩, fun path hm => h path (.pythonCertifi hfound hm)⟩

/-- Java's stores are the keystores the search finds. -/
lemma accurate_javaStores_iff (h : javaStores ext fs lookup = some stores) :
    (∀ outcome ∈ stores, Accurate ext fs lookup publicRootPems outcome) ↔
      CacertsWithinCap ext fs lookup := by
  obtain ⟨found, hfound, hstores⟩ := Option.bind_eq_some_iff.mp h
  have hwithin : CacertsWithinCap ext fs lookup ↔ ∀ path ∈ capped found,
      Accurate ext fs lookup publicRootPems
        (cacertsOutcome path (readJavaCacerts fs path lookup.maxBytes)) := by
    unfold CacertsWithinCap
    rw [hfound]
    simp only [Option.some.injEq, forall_eq', accurate_cacertsOutcome_iff]
  rw [hwithin]
  split_ifs at hstores with hempty
  · cases hstores
    refine iff_of_true (fun outcome hm => ?_) fun path hm => ?_
    · rw [List.mem_singleton.mp hm]
      exact accurate_of_failure nofun
    · rw [List.isEmpty_iff.mp hempty] at hm
      exact absurd hm List.not_mem_nil
  · cases hstores
    simp only [List.forall_mem_map]

/-- The stores of one runtime are accurate about themselves exactly when no certificate of their PEM
files is lost and, for Go, the directory of certificates is read whole if at all and, for Java, every
keystore found is within the cap. -/
lemma accurate_runtimeStores_iff {runtime : Runtime}
    (h : runtimeStores ext fs lookup publicRootPems runtime = some stores) :
    (∀ outcome ∈ stores, Accurate ext fs lookup publicRootPems outcome) ↔
      PemFilesLoseNone ext fs lookup runtime ∧
        (runtime = .go → CertDirWithinBounds ext fs lookup) ∧
        (runtime = .java → CacertsWithinCap ext fs lookup) := by
  cases runtime with
  | node =>
    cases h
    rw [accurate_nodeStores_iff]
    simp
  | go =>
    cases h
    rw [accurate_goStores_iff]
    simp
  | python =>
    rw [accurate_pythonStores_iff h]
    simp
  | java =>
    have hnone : PemFilesLoseNone ext fs lookup .java := nofun
    rw [accurate_javaStores_iff h]
    simp [hnone]

theorem forall_accurate_iff (h : read ext fs lookup publicRootPems runtimes = some outcomes) :
    (∀ outcome ∈ outcomes, Accurate ext fs lookup publicRootPems outcome) ↔
      (∀ runtime ∈ runtimes, PemFilesLoseNone ext fs lookup runtime) ∧
        (Runtime.go ∈ runtimes → CertDirWithinBounds ext fs lookup) ∧
        (Runtime.java ∈ runtimes → CacertsWithinCap ext fs lookup) := by
  have hstores : ∀ runtime ∈ runtimes, ∃ stores,
      runtimeStores ext fs lookup publicRootPems runtime = some stores := by
    obtain ⟨all, hall, -⟩ := Option.map_eq_some_iff.mp h
    intro runtime hm
    exact Option.isSome_iff_exists.mp (OptionMap.mapM_isSome_iff.mp (by rw [hall]; rfl) runtime hm)
  constructor
  · intro hall
    have heach : ∀ runtime ∈ runtimes, PemFilesLoseNone ext fs lookup runtime ∧
        (runtime = .go → CertDirWithinBounds ext fs lookup) ∧
        (runtime = .java → CacertsWithinCap ext fs lookup) := by
      intro runtime hm
      obtain ⟨stores, hsome⟩ := hstores runtime hm
      exact (accurate_runtimeStores_iff hsome).mp fun outcome hm' =>
        hall outcome ((mem_read h).mpr ⟨runtime, hm, stores, hsome, hm'⟩)
    exact ⟨fun runtime hm => (heach runtime hm).1, fun hgo => (heach .go hgo).2.1 rfl,
      fun hjava => (heach .java hjava).2.2 rfl⟩
  · rintro ⟨hfiles, hdir, hcacerts⟩ outcome hm
    obtain ⟨runtime, hruntime, stores, hsome, hm⟩ := (mem_read h).mp hm
    refine (accurate_runtimeStores_iff hsome).mpr ⟨hfiles runtime hruntime, ?_, ?_⟩ outcome hm
    · rintro rfl
      exact hdir hruntime
    · rintro rfl
      exact hcacerts hruntime

end Runtimes
end Portcall.Net
