import Portcall.Environment
import Portcall.Net.JavaKeystore
import Portcall.Net.Pem

/-! The runtime store reader: where each runtime looks for roots, and what is there. Files and
environment variables only; every read and every search is bounded. -/
namespace Portcall.Net

def maxRuntimeStoreBytes : ℕ := 8 * 1024 * 1024
def maxDiscoveryMatches : ℕ := 8

def javaCacertsPaths : Platform → List String
  | .linux =>
    ["/usr/lib/jvm/*/lib/security/cacerts", "/usr/lib/jvm/*/jre/lib/security/cacerts",
      "/etc/ssl/certs/java/cacerts"]
  | .darwin =>
    ["/Library/Java/JavaVirtualMachines/*/Contents/Home/lib/security/cacerts",
      "/Library/Java/JavaVirtualMachines/*/Contents/Home/jre/lib/security/cacerts",
      "/opt/homebrew/opt/openjdk/libexec/openjdk.jdk/Contents/Home/lib/security/cacerts"]
  | .win32 =>
    ["C:/Program Files/Java/*/lib/security/cacerts",
      "C:/Program Files/Java/*/jre/lib/security/cacerts",
      "C:/Program Files/Eclipse Adoptium/*/lib/security/cacerts"]
  | .other _ => []

def pythonCertifiPaths : Platform → List String
  | .linux =>
    ["~/.local/lib/python3*/site-packages/certifi/cacert.pem",
      "/usr/lib/python3*/site-packages/certifi/cacert.pem",
      "/usr/lib/python3/dist-packages/certifi/cacert.pem",
      "/usr/local/lib/python3*/site-packages/certifi/cacert.pem",
      "/usr/local/lib/python3*/dist-packages/certifi/cacert.pem"]
  | .darwin =>
    ["~/Library/Python/3*/lib/python/site-packages/certifi/cacert.pem",
      "~/.local/lib/python3*/site-packages/certifi/cacert.pem",
      "/opt/homebrew/lib/python3*/site-packages/certifi/cacert.pem",
      "/usr/local/lib/python3*/site-packages/certifi/cacert.pem",
      "/Library/Frameworks/Python.framework/Versions/*/lib/python3*/site-packages/certifi/" ++
        "cacert.pem"]
  | .win32 =>
    ["~/AppData/Local/Programs/Python/Python3*/Lib/site-packages/certifi/cacert.pem",
      "~/AppData/Roaming/Python/Python3*/site-packages/certifi/cacert.pem",
      "C:/Program Files/Python3*/Lib/site-packages/certifi/cacert.pem"]
  | .other _ => []

def linuxCaBundlePaths : List String :=
  ["/etc/ssl/certs/ca-certificates.crt", "/etc/pki/tls/certs/ca-bundle.crt",
    "/etc/ssl/ca-bundle.pem", "/etc/pki/tls/cacert.pem",
    "/etc/pki/ca-trust/extracted/pem/tls-ca-bundle.pem", "/etc/ssl/cert.pem"]

/-- The code of an operation on a file that failed, if it has one. -/
abbrev Errno := Option String

structure FileSystem where
  /-- `(await stat(path)).size` -/
  stat : String → Except Errno ℕ
  readdir : String → Except Errno (List String)
  /-- `readFile(path, 'utf8')` -/
  readText : String → Except Errno String
  /-- `readFile(path)` -/
  readBytes : String → Except Errno (List UInt8)

/-- Everything a lookup needs. -/
structure Lookup where
  platform : Platform
  env : Environment
  maxBytes : ℕ

variable (ext : Externals) (fs : FileSystem) (lookup : Lookup)

def joinPath (platform : Platform) (parts : List String) : String := ext.pathJoin platform parts

/-- The value of a variable that is set to something. -/
def envValue (env : Environment) (name : String) : Option String :=
  (env name).filter fun value => value ≠ ""

def homeDirectory : Option String :=
  if lookup.platform = .win32 then
    (envValue lookup.env "USERPROFILE").orElse fun _ => envValue lookup.env "HOME"
  else envValue lookup.env "HOME"

section Discovery

/-- One atom of the expression made of a path segment. It has no `u` flag and so speaks of code
units. -/
inductive SegmentAtom where
  | literal (unit : ℕ) (optional : Bool)
  /-- `[^\\/]*`: any run within one segment. -/
  | anyRun
  deriving DecidableEq, Repr

/-- The atoms of a character; a quantifier behind it belongs to its last code unit. -/
def literalAtoms (c : Char) (optional : Bool) : List SegmentAtom :=
  match Text.codeUnits c with
  | [high, low] => [.literal high false, .literal low optional]
  | units => units.map fun unit => .literal unit optional

/-- The atoms of a segment. Every special character is escaped but the question mark, so one makes
the atom before it optional, or lazy; with nothing left to apply to, it throws. -/
def segmentAtoms : List Char → Throwing (List SegmentAtom)
  | [] => some []
  | '?' :: _ => none
  | '*' :: '?' :: rest => (segmentAtoms rest).map (SegmentAtom.anyRun :: ·)
  | '*' :: rest => (segmentAtoms rest).map (SegmentAtom.anyRun :: ·)
  | c :: '?' :: '?' :: rest => (segmentAtoms rest).map (literalAtoms c true ++ ·)
  | c :: '?' :: rest => (segmentAtoms rest).map (literalAtoms c true ++ ·)
  | c :: rest => (segmentAtoms rest).map (literalAtoms c false ++ ·)

def separators : List ℕ := ['\\'.toNat, '/'.toNat]

/-- What may follow a run of code units that are no separators. -/
def afterRuns : List ℕ → List (List ℕ)
  | [] => [[]]
  | unit :: rest => (unit :: rest) :: if separators.contains unit then [] else afterRuns rest

def matchesAtoms (fold : ℕ → ℕ) : List SegmentAtom → List ℕ → Bool
  | [], text => text.isEmpty
  | .literal unit optional :: atoms, text =>
    (optional && matchesAtoms fold atoms text) ||
      match text with
      | [] => false
      | first :: rest => fold unit = fold first && matchesAtoms fold atoms rest
  | .anyRun :: atoms, text => (afterRuns text).any fun rest => matchesAtoms fold atoms rest

/-- What a code unit is compared by: itself or, where case is ignored, its upper case. Half a
surrogate pair has none. -/
def segmentCase (platform : Platform) (unit : ℕ) : ℕ :=
  if platform = .win32 ∧ unit.isValidChar then (ext.canonicalize (Char.ofNat unit)).toNat else unit

def segmentMatcher (segment : String) (platform : Platform) : Throwing (String → Bool) :=
  (segmentAtoms segment.toList).map fun atoms entry =>
    matchesAtoms (segmentCase ext platform) atoms (Text.utf16 entry)

def pathExists (path : String) : Bool := (fs.stat path).toOption.isSome

/-- `/^[A-Za-z]:$/` -/
def isDrive (first : String) : Bool :=
  match first.toList with
  | [letter, ':'] => Text.isAlphanumeric letter && !Text.isDigit letter
  | _ => false

/-- Where a pattern starts; nowhere, when it starts at a home directory that has no name. -/
def patternHeads (first : String) : Option (List String) :=
  if first = "~" then (homeDirectory lookup).map ([·])
  else if first = "" then some ["/"]
  else if isDrive first then
    some [if lookup.platform = .win32 then first ++ "\\" else first]
  else some [first]

/-- One segment further, from every path found so far. -/
def expandSegment (heads : List String) (segment : String) : Throwing (List String) :=
  if !segment.toList.contains '*' then
    some (heads.map fun head => joinPath ext lookup.platform [head, segment])
  else (segmentMatcher ext segment lookup.platform).map fun isMatch =>
    (heads.flatMap fun head =>
      match fs.readdir head with
      | .error _ => []
      | .ok entries => ((Text.sorted entries).filter isMatch).map fun entry =>
        joinPath ext lookup.platform [head, entry]).take maxDiscoveryMatches

/-- Every existing path that matches a pattern, in name order and up to a bound. -/
def expandPattern (pattern : String) : Throwing (List String) :=
  let segments := Text.split '/' pattern
  match patternHeads lookup (segments.headD "") with
  | none => some []
  | some heads => (segments.tail.foldlM (expandSegment ext fs lookup) heads).map fun heads =>
    (heads.filter (pathExists fs)).take maxDiscoveryMatches

def capped (paths : List String) : List String := paths.take maxDiscoveryMatches

/-- The distinct paths of these patterns, until there are enough. -/
def discover (found : List String) : List String → Throwing (List String)
  | [] => some found
  | pattern :: rest => do
    let paths ← expandPattern ext fs lookup pattern
    let found := paths.foldl
      (fun found path => if found.contains path then found else found ++ [path]) found
    if maxDiscoveryMatches ≤ found.length then return found else discover found rest

/-- `replace(/\\/g, '/').replace(/\/+$/, '')` -/
def pathRoot (path : String) : String :=
  String.ofList (((path.toList.map fun c => if c = '\\' then '/' else c).reverse.dropWhile
    fun c => c = '/').reverse)

end Discovery

section Files

structure Contents where
  pems : List String
  failure : Option RuntimeStoreFailure
  code : Option String
  deriving DecidableEq, Repr

/-- What an operation that failed makes of a store. -/
def statFailure (errno : Errno) : RuntimeStoreFailure :=
  if errno = some "ENOENT" then .notFound else .unreadable

/-- One PEM file, size-checked before it is opened. -/
def readPemFile (path : String) (maxBytes : ℕ) : Contents :=
  match fs.stat path with
  | .error errno => ⟨[], some (statFailure errno), errno⟩
  | .ok size =>
    if maxBytes < size then ⟨[], some .outputTooLarge, none⟩
    else match fs.readText path with
      | .error errno => ⟨[], some .unreadable, errno⟩
      | .ok text =>
        let pems := pemBlocks text
        ⟨pems, if pems.isEmpty then some .noCertificates else none, none⟩

/-- An outcome with the fields every one has. -/
def outcome (runtime : Runtime) (kind : RuntimeStoreKind) (combines : StoreCombination) :
    RuntimeStoreOutcome where
  runtime
  kind
  locator := none
  searched := []
  combines
  pems := []
  format := none
  isPartial := false
  failure := none
  code := none

/-- The outcome of a store that is one PEM file. -/
def pemOutcome (base : RuntimeStoreOutcome) (path : String) (searched : List String)
    (contents : Contents) : RuntimeStoreOutcome :=
  { base with
    locator := some path
    searched
    pems := contents.pems
    failure := contents.failure
    code := contents.code }

/-- A store named by an environment variable. -/
def envFileStore (runtime : Runtime) (kind : RuntimeStoreKind) (name : String)
    (combines : StoreCombination) : RuntimeStoreOutcome :=
  match envValue lookup.env name with
  | none =>
    { outcome runtime kind combines with
      locator := some name
      searched := [name]
      failure := some .notConfigured }
  | some path => pemOutcome (outcome runtime kind combines) path [name, path]
    (readPemFile fs path lookup.maxBytes)

/-- `/\.(?:pem|crt)$/i` -/
def isCertificateFile (entry : String) : Bool :=
  let lower := entry.toList.map Char.toLower
  ['.', 'p', 'e', 'm'].isSuffixOf lower || ['.', 'c', 'r', 't'].isSuffixOf lower

/-- The certificate files of a directory, in name order. -/
def certificateFiles (dir : String) (entries : List String) : List String :=
  (Text.sorted (entries.filter isCertificateFile)).map fun entry =>
    joinPath ext lookup.platform [dir, entry]

/-- `SSL_CERT_DIR`: the files of the directory, as many as are read, make one store. -/
def certDirStore (runtime : Runtime) : RuntimeStoreOutcome :=
  let base := outcome runtime .goSslCertDir .replaces
  match envValue lookup.env "SSL_CERT_DIR" with
  | none =>
    { base with
      locator := some "SSL_CERT_DIR"
      searched := ["SSL_CERT_DIR"]
      failure := some .notConfigured }
  | some dir =>
    match fs.readdir dir with
    | .error errno =>
      { base with
        locator := some dir
        searched := ["SSL_CERT_DIR", dir]
        failure := some (statFailure errno)
        code := errno }
    | .ok entries =>
      let files := capped (certificateFiles ext lookup dir entries)
      let contents := files.map fun file => readPemFile fs file lookup.maxBytes
      let pems := contents.flatMap Contents.pems
      { base with
        locator := some dir
        searched := files
        pems
        failure := if pems.isEmpty then some .noCertificates else none
        code := contents.findSome? Contents.code }

def certifiPatterns : List String :=
  ((envValue lookup.env "VIRTUAL_ENV").map fun virtualEnv =>
      [pathRoot virtualEnv ++ "/lib/python3*/site-packages/certifi/cacert.pem",
        pathRoot virtualEnv ++ "/Lib/site-packages/certifi/cacert.pem"]).getD [] ++
    pythonCertifiPaths lookup.platform

def certifiStores : Throwing (List RuntimeStoreOutcome) := do
  let base := outcome .python .pythonCertifi .standalone
  let patterns := certifiPatterns lookup
  let found ← discover ext fs lookup [] patterns
  if found.isEmpty then
    return [{ base with searched := capped patterns, failure := some .notFound }]
  else return (capped found).map fun path =>
    pemOutcome base path [path] (readPemFile fs path lookup.maxBytes)

/-- A failure of the container reader, under the store's word for it. -/
def KeystoreFailure.storeFailure : KeystoreFailure → RuntimeStoreFailure
  | .unsupportedFormat => .unsupportedFormat
  | .unsupportedEncoding => .unsupportedEncoding
  | .truncated => .truncated
  | .encrypted => .encrypted
  | .noCertificates => .noCertificates

structure KeystoreContents where
  pems : List String
  format : Option KeystoreFormat
  isPartial : Bool
  failure : Option RuntimeStoreFailure
  code : Option String
  deriving DecidableEq, Repr

/-- One `cacerts`, size-checked the same way and handed to the container reader. -/
def readJavaCacerts (path : String) (maxBytes : ℕ) : KeystoreContents :=
  match fs.stat path with
  | .error errno => ⟨[], none, false, some (statFailure errno), errno⟩
  | .ok size =>
    if maxBytes < size then ⟨[], none, false, some .outputTooLarge, none⟩
    else match fs.readBytes path with
      | .error errno => ⟨[], none, false, some .unreadable, errno⟩
      | .ok bytes =>
        let read := readKeystore bytes
        ⟨read.certificates.map derToPem, read.format, read.isPartial,
          read.failure.map KeystoreFailure.storeFailure, none⟩

/-- The outcome of one `cacerts`. -/
def cacertsOutcome (path : String) (contents : KeystoreContents) : RuntimeStoreOutcome :=
  { outcome .java .javaCacerts .standalone with
    locator := some path
    searched := [path]
    pems := contents.pems
    format := contents.format
    isPartial := contents.isPartial
    failure := contents.failure
    code := contents.code }

def cacertsPatterns : List String :=
  ((envValue lookup.env "JAVA_HOME").map fun javaHome =>
      [pathRoot javaHome ++ "/lib/security/cacerts",
        pathRoot javaHome ++ "/jre/lib/security/cacerts"]).getD [] ++
    javaCacertsPaths lookup.platform

def javaStores : Throwing (List RuntimeStoreOutcome) := do
  let base := outcome .java .javaCacerts .standalone
  let patterns := cacertsPatterns lookup
  let found ← discover ext fs lookup [] patterns
  if found.isEmpty then
    return [{ base with searched := capped patterns, failure := some .notFound }]
  else return (capped found).map fun path =>
    cacertsOutcome path (readJavaCacerts fs path lookup.maxBytes)

end Files

section Runtimes
variable (publicRootPems : List String)

def nodeStores : List RuntimeStoreOutcome :=
  [{ outcome .node .nodeBundled .standalone with
      pems := publicRootPems
      failure := if publicRootPems.isEmpty then some .noCertificates else none },
    envFileStore fs lookup .node .nodeExtraCa "NODE_EXTRA_CA_CERTS" .addsTo]

/-- The first bundle that exists; `tried` holds the rows before. -/
def goSystemBundleLoop (maxBytes : ℕ) (tried : List String) : List String → RuntimeStoreOutcome
  | [] =>
    { outcome .go .goSystemBundle .standalone with
      searched := capped tried
      failure := some .notFound }
  | path :: rest =>
    if pathExists fs path then
      pemOutcome (outcome .go .goSystemBundle .standalone) path (capped (tried ++ [path]))
        (readPemFile fs path maxBytes)
    else goSystemBundleLoop maxBytes (tried ++ [path]) rest

def goSystemBundleStore (paths : List String) (maxBytes : ℕ) : RuntimeStoreOutcome :=
  goSystemBundleLoop fs maxBytes [] paths

def goStores : List RuntimeStoreOutcome :=
  let file := envFileStore fs lookup .go .goSslCertFile "SSL_CERT_FILE" .replaces
  let dir := certDirStore ext fs lookup .go
  let overridden := (envValue lookup.env "SSL_CERT_FILE").isSome ||
    (envValue lookup.env "SSL_CERT_DIR").isSome
  let usesVerifier := lookup.platform = .darwin || lookup.platform = .win32
  if !overridden && usesVerifier then [file, dir, outcome .go .platformVerifier .standalone]
  else if !overridden && lookup.platform = .linux then
    [file, dir, goSystemBundleStore fs linuxCaBundlePaths lookup.maxBytes]
  else [file, dir]

def pythonStores : Throwing (List RuntimeStoreOutcome) :=
  (certifiStores ext fs lookup).map fun certifi =>
    [envFileStore fs lookup .python .pythonSslCertFile "SSL_CERT_FILE" .replaces,
      envFileStore fs lookup .python .pythonRequestsCaBundle "REQUESTS_CA_BUNDLE" .replaces] ++
      certifi

/-- The stores of one runtime. -/
def runtimeStores : Runtime → Throwing (List RuntimeStoreOutcome)
  | .node => some (nodeStores fs lookup publicRootPems)
  | .go => some (goStores ext fs lookup)
  | .python => pythonStores ext fs lookup
  | .java => javaStores ext fs lookup

/-- The stores for each requested runtime, in the order they were requested. -/
def read (runtimes : List Runtime) : Throwing (List RuntimeStoreOutcome) :=
  (runtimes.mapM (runtimeStores ext fs lookup publicRootPems)).map List.flatten

end Runtimes
end Portcall.Net
