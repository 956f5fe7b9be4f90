import Portcall.Net.RuntimeStores

/-! The platform's trust store on Linux, which is a file: the first row of the table that is there.
Go reads the first row of the same table, and where the platform's read succeeds the two are the
same file. -/
namespace Portcall.Net
variable (fs : FileSystem)

/-- The branch opens a file and no process, so there is no budget. -/
def linuxBundleOutcome (readMs : Option ℕ) (locator : String) (pems : List String)
    (failure : Option TrustStoreFailure) (code : Option String) : TrustStoreOutcome where
  kind := .linuxCaBundle
  locator
  pems
  failure
  code
  budgetMs := none
  readMs

/-- The first path that is there, read; `missing` when none is. -/
def linuxBundleLoop (outcome : String → List String → Option TrustStoreFailure → Option String →
    TrustStoreOutcome) (missing : TrustStoreOutcome) (maxBytes : ℕ) :
    List String → TrustStoreOutcome
  | [] => missing
  | path :: rest =>
    match fs.stat path with
    | .error errno =>
      -- absent means the next distribution's path; anything else means the bundle is there
      if errno = some "ENOENT" then linuxBundleLoop outcome missing maxBytes rest
      else outcome path [] (some .readerFailed) errno
    | .ok size =>
      if maxBytes < size then outcome path [] (some .outputTooLarge) none
      else match fs.readText path with
        | .error errno => outcome path [] (some .readerFailed) errno
        | .ok text =>
          let pems := pemBlocks text
          outcome path pems (if pems.isEmpty then some .noCertificates else none) none

/-- The Linux bundle; `elapsed` is the time the read took. -/
def readLinuxCaBundle (elapsed : ℕ) (paths : List String) (maxBytes : ℕ) : TrustStoreOutcome :=
  let outcome := linuxBundleOutcome (if paths.isEmpty then none else some elapsed)
  linuxBundleLoop fs outcome
    (outcome ((paths.head?.or linuxCaBundlePaths.head?).getD "/etc/ssl/certs") []
      (some .readerMissing) (some "ENOENT")) maxBytes paths

/-- The two readers read the same file, and read it whole. -/
structure SameBundle (os : TrustStoreOutcome) (go : RuntimeStoreOutcome) : Prop where
  locator : go.locator = some os.locator
  pems : go.pems = os.pems
  failure : go.failure = none
  kind : go.kind = .goSystemBundle
  combines : go.combines = .standalone
  isPartial : go.isPartial = false
  source : ∃ text, fs.readText os.locator = .ok text ∧ os.pems = pemBlocks text

variable {fs} {readMs : Option ℕ} {missing : TrustStoreOutcome} {maxBytes goMaxBytes : ℕ}

lemma readPemFile_eq_of_text {path text : String} {size : ℕ} (hstat : fs.stat path = .ok size)
    (hsize : size ≤ maxBytes) (htext : fs.readText path = .ok text) :
    readPemFile fs path maxBytes =
      ⟨pemBlocks text, if (pemBlocks text).isEmpty then some .noCertificates else none, none⟩ := by
  unfold readPemFile
  rw [hstat]
  dsimp only
  rw [if_neg (Nat.not_lt.mpr hsize), htext]

/-- Row by row: while the one reader finds nothing there, neither does the other. -/
theorem sameBundle_of_loop (hmissing : missing.failure ≠ none) (hmax : maxBytes ≤ goMaxBytes)
    (paths tried : List String)
    (h : (linuxBundleLoop fs (linuxBundleOutcome readMs) missing maxBytes paths).failure = none) :
    SameBundle fs (linuxBundleLoop fs (linuxBundleOutcome readMs) missing maxBytes paths)
      (goSystemBundleLoop fs goMaxBytes tried paths) := by
  induction paths generalizing tried with
  | nil => exact absurd h hmissing
  | cons path rest ih =>
    rw [linuxBundleLoop] at h ⊢
    rw [goSystemBundleLoop, pathExists]
    cases hstat : fs.stat path with
    | error errno =>
      rw [hstat] at h
      dsimp only at h ⊢
      by_cases habsent : errno = some "ENOENT"
      · rw [if_pos habsent] at h ⊢
        rw [if_neg (by nofun)]
        exact ih _ h
      · rw [if_neg habsent] at h
        cases h
    | ok size =>
      rw [hstat] at h
      dsimp only at h ⊢
      by_cases hsize : maxBytes < size
      · rw [if_pos hsize] at h
        cases h
      rw [if_neg hsize] at h ⊢
      cases htext : fs.readText path with
      | error errno =>
        rw [htext] at h
        cases h
      | ok text =>
        rw [htext] at h
        have hread := readPemFile_eq_of_text hstat (by omega : size ≤ goMaxBytes) htext
        rw [if_pos (by rfl), hread]
        dsimp only [linuxBundleOutcome] at h ⊢
        split_ifs at h with hempty
        exact {
          locator := rfl
          pems := rfl
          failure := if_neg hempty
          kind := rfl
          combines := rfl
          isPartial := rfl
          source := ⟨text, htext, rfl⟩ }

/-- Where the platform's bundle was read, Go's is the same one. -/
theorem sameBundle_of_readLinuxCaBundle {elapsed : ℕ} {paths : List String}
    (hmax : maxBytes ≤ goMaxBytes)
    (h : (readLinuxCaBundle fs elapsed paths maxBytes).failure = none) :
    SameBundle fs (readLinuxCaBundle fs elapsed paths maxBytes)
      (goSystemBundleStore fs paths goMaxBytes) :=
  sameBundle_of_loop (Option.some_ne_none _) hmax paths [] h

/-- A file is read without a timer. -/
lemma failure_linuxBundleLoop_ne_timeout (hmissing : missing.failure ≠ some .timeout)
    (paths : List String) :
    (linuxBundleLoop fs (linuxBundleOutcome readMs) missing maxBytes paths).failure ≠
      some .timeout := by
  induction paths with
  | nil => exact hmissing
  | cons path rest ih =>
    rw [linuxBundleLoop]
    cases fs.stat path with
    | error errno =>
      dsimp only
      split_ifs
      · exact ih
      · exact fun h => by cases h
    | ok size =>
      dsimp only
      split_ifs
      · exact fun h => by cases h
      · cases fs.readText path with
        | error errno => exact fun h => by cases h
        | ok text =>
          dsimp only [linuxBundleOutcome]
          split_ifs <;> exact fun h => by cases h

lemma failure_readLinuxCaBundle_ne_timeout {elapsed : ℕ} {paths : List String} :
    (readLinuxCaBundle fs elapsed paths maxBytes).failure ≠ some .timeout :=
  failure_linuxBundleLoop_ne_timeout (fun h => by cases h) paths

end Portcall.Net
