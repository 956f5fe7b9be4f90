import Portcall.Engine

/-! Trust store outcomes: what a read of the platform's stores and of a runtime's stores can
come back with. -/
namespace Portcall

inductive TrustStoreKind where
  | macosSystemRoots
  | macosAdminAnchors
  | windowsMachineRoot
  | linuxCaBundle
  deriving DecidableEq, Repr

def TrustStoreKind.text : TrustStoreKind → String
  | .macosSystemRoots => "macos-system-roots"
  | .macosAdminAnchors => "macos-admin-anchors"
  | .windowsMachineRoot => "windows-machine-root"
  | .linuxCaBundle => "linux-ca-bundle"

inductive TrustStoreFailure where
  | unsupportedPlatform
  | readerMissing
  | readerFailed
  | aborted
  | timeout
  | outputTooLarge
  | noCertificates
  deriving DecidableEq, Repr

def TrustStoreFailure.text : TrustStoreFailure → String
  | .unsupportedPlatform => "unsupported-platform"
  | .readerMissing => "reader-missing"
  | .readerFailed => "reader-failed"
  | .aborted => "aborted"
  | .timeout => "timeout"
  | .outputTooLarge => "output-too-large"
  | .noCertificates => "no-certificates"

/-- One platform store's read. -/
structure TrustStoreOutcome where
  kind : TrustStoreKind
  locator : String
  pems : List String
  failure : Option TrustStoreFailure
  code : Option String
  /-- Zero when no child was started, `none` for the store that starts no process. -/
  budgetMs : Option ℕ
  readMs : Option ℕ
  deriving DecidableEq, Repr

/-- The columns of the pinned command table that the evaluation reads. -/
structure TrustStoreCommand where
  kind : TrustStoreKind
  timeoutMs : ℕ
  deriving DecidableEq, Repr

inductive RuntimeStoreKind where
  | nodeBundled
  | nodeExtraCa
  | goSslCertFile
  | goSslCertDir
  | goSystemBundle
  | pythonCertifi
  | pythonSslCertFile
  | pythonRequestsCaBundle
  | javaCacerts
  | platformVerifier
  deriving DecidableEq, Repr

def RuntimeStoreKind.text : RuntimeStoreKind → String
  | .nodeBundled => "node-bundled"
  | .nodeExtraCa => "node-extra-ca"
  | .goSslCertFile => "go-ssl-cert-file"
  | .goSslCertDir => "go-ssl-cert-dir"
  | .goSystemBundle => "go-system-bundle"
  | .pythonCertifi => "python-certifi"
  | .pythonSslCertFile => "python-ssl-cert-file"
  | .pythonRequestsCaBundle => "python-requests-ca-bundle"
  | .javaCacerts => "java-cacerts"
  | .platformVerifier => "platform-verifier"

inductive RuntimeStoreFailure where
  | notConfigured
  | notFound
  | unreadable
  | outputTooLarge
  | unsupportedFormat
  | unsupportedEncoding
  | truncated
  | encrypted
  | noCertificates
  deriving DecidableEq, Repr

def RuntimeStoreFailure.text : RuntimeStoreFailure → String
  | .notConfigured => "not-configured"
  | .notFound => "not-found"
  | .unreadable => "unreadable"
  | .outputTooLarge => "output-too-large"
  | .unsupportedFormat => "unsupported-format"
  | .unsupportedEncoding => "unsupported-encoding"
  | .truncated => "truncated"
  | .encrypted => "encrypted"
  | .noCertificates => "no-certificates"

/-- How a store combines with its siblings for the same runtime. -/
inductive StoreCombination where
  | addsTo
  | replaces
  | standalone
  deriving DecidableEq, Repr

inductive KeystoreFormat where
  | jks
  | pkcs12
  deriving DecidableEq, Repr

def KeystoreFormat.text : KeystoreFormat → String
  | .jks => "jks"
  | .pkcs12 => "pkcs12"

/-- One runtime store's read. -/
structure RuntimeStoreOutcome where
  runtime : Runtime
  kind : RuntimeStoreKind
  locator : Option String
  searched : List String
  combines : StoreCombination
  pems : List String
  format : Option KeystoreFormat
  /-- Some bags were read and others were encrypted. -/
  isPartial : Bool
  failure : Option RuntimeStoreFailure
  code : Option String
  deriving DecidableEq, Repr

end Portcall
