import Portcall.Truststore.OsFindings
import Portcall.Truststore.TrustSets

/-! Findings about one runtime: its stores, and the verdict on each set of roots it consults. -/
namespace Portcall.Truststore

def maxReportedDns : ℕ := 5
def maxReportedPaths : ℕ := 5

structure RuntimeIds where
  missingRoot : String
  rootsPresent : String
  platformVerifier : String
  extraCaUnreadable : String
  extraCaConfigured : String
  storeNotFound : String
  deriving DecidableEq, Repr

def runtimeIds : Runtime → RuntimeIds
  | .node =>
    { missingRoot := "truststore.node.missing-root"
      rootsPresent := "truststore.node.roots-present"
      platformVerifier := "truststore.node.platform-verifier"
      extraCaUnreadable := "truststore.node.extra-ca-unreadable"
      extraCaConfigured := "truststore.node.extra-ca-configured"
      storeNotFound := "truststore.node.store-not-found" }
  | .go =>
    { missingRoot := "truststore.go.missing-root"
      rootsPresent := "truststore.go.roots-present"
      platformVerifier := "truststore.go.platform-verifier"
      extraCaUnreadable := "truststore.go.extra-ca-unreadable"
      extraCaConfigured := "truststore.go.extra-ca-configured"
      storeNotFound := "truststore.go.store-not-found" }
  | .python =>
    { missingRoot := "truststore.python.missing-root"
      rootsPresent := "truststore.python.roots-present"
      platformVerifier := "truststore.python.platform-verifier"
      extraCaUnreadable := "truststore.python.extra-ca-unreadable"
      extraCaConfigured := "truststore.python.extra-ca-configured"
      storeNotFound := "truststore.python.store-not-found" }
  | .java =>
    { missingRoot := "truststore.java.missing-root"
      rootsPresent := "truststore.java.roots-present"
      platformVerifier := "truststore.java.platform-verifier"
      extraCaUnreadable := "truststore.java.extra-ca-unreadable"
      extraCaConfigured := "truststore.java.extra-ca-configured"
      storeNotFound := "truststore.java.store-not-found" }

/-- The kinds a variable names. -/
def envStoreKinds : List RuntimeStoreKind :=
  [.nodeExtraCa, .goSslCertFile, .goSslCertDir, .pythonSslCertFile, .pythonRequestsCaBundle]

def confirmListingHint : Runtime → String
  | .node => "the file NODE_EXTRA_CA_CERTS names"
  | .go => "the platform’s own certificate manager, or SSL_CERT_FILE/SSL_CERT_DIR if either is set"
  | .python => "the certifi bundle or REQUESTS_CA_BUNDLE named above"
  | .java => "`keytool -list -keystore <path>`"

def missingRootRemediation (runtime : Runtime) (correlation : Option Correlation)
    (isPartial : Bool) : String :=
  let observed :=
    match correlation.map Correlation.strength with
    | none => ""
    | some .bytes =>
      "The chain this run captured from the host above ended in this exact certificate, so " ++
      "connections from this runtime fail today rather than hypothetically. "
    | some .issuerName =>
      "The chain this run captured from the host above was issued by an authority with this " ++
      "name, though the peer never sent the root itself - the match is by name and not by " ++
      "bytes, so confirm it before acting on it. "
  let confirmPartial :=
    if correlation.isSome && isPartial then
      "This runtime’s store was only read in part, so confirm with " ++
      confirmListingHint runtime ++ " before treating this as broken. "
    else ""
  let instruction :=
    match runtime with
    | .node =>
      "Node does not read this machine’s OS trust store, so a root the machine trusts is " ++
      "invisible to it. Export the root named above from the store in the evidence - the " ++
      "platform’s own certificate manager will export it - and point Node at the file with " ++
      "NODE_EXTRA_CA_CERTS, which Node adds to its bundle rather than replacing it. On " ++
      "Linux, `node --use-openssl-ca` is an alternative, because there the OpenSSL store is " ++
      "the system bundle."
    | .go =>
      "Go reads the file or directory SSL_CERT_FILE and SSL_CERT_DIR name rather than this " ++
      "machine’s OS trust store whenever either is set, and the set named above does not " ++
      "hold this root. Append the root to that file, or unset both variables on macOS and " ++
      "Windows, where Go asks the operating system directly instead."
    | .python =>
      "requests and most Python HTTP clients read certifi’s bundle, not this machine’s OS " ++
      "store. Point them at the root with REQUESTS_CA_BUNDLE (or SSL_CERT_FILE for ssl and " ++
      "urllib), or append it to the certifi bundle named above."
    | .java =>
      "This JDK’s cacerts does not contain the anchor above, so anything running on it will " ++
      "fail to verify. Import it with `keytool -importcert -cacerts -alias <name> -file " ++
      "root.pem` (JDK 9+), or point the JVM at a different store with the trustStore system " ++
      "property. The path in the evidence above is the store that was read."
  observed ++ confirmPartial ++ instruction

/-- The missing anchors in report order: the correlated one ahead of the others. -/
def orderedMissing (missing : List Anchor) (correlation : Option Correlation) : List Anchor :=
  match correlation with
  | none => missing
  | some found => found.matched :: missing.filter (fun anchor => anchor ≠ found.matched)

def missingRootFinding (set : TrustSet) (missing : List Anchor)
    (correlation : Option Correlation) : Finding where
  id := (runtimeIds set.runtime).missingRoot
  probe := probeName
  severity := if correlation.isNone || set.isPartial then .degraded else .blocker
  title :=
    if correlation.isNone then "This runtime does not trust a root this machine trusts"
    else "This runtime does not trust the root that terminated a chain it was served"
  evidence :=
    [⟨"missing anchors", toString missing.length, .number⟩] ++
    ((orderedMissing missing correlation).take maxReportedDns).map
      (fun anchor => ⟨"anchor", anchor.subject, .dn⟩) ++
    (set.locator.map fun locator => Evidence.mk "runtime store" locator .path).toList ++
    (if set.isPartial then [⟨"runtime store read", "partial", .text⟩] else []) ++
    (match correlation with
      | none => []
      | some found =>
        [⟨"host", found.anchor.host, .hostname⟩, ⟨"connection", found.anchor.via.text, .text⟩,
          ⟨"match", found.strength.text, .text⟩])
  remediation := some (missingRootRemediation set.runtime correlation set.isPartial)

def rootsPresentFinding (set : TrustSet) (coverage : OsCoverage) : Finding where
  id := (runtimeIds set.runtime).rootsPresent
  probe := probeName
  severity := .ok
  title := "This runtime trusts every root this machine adds"
  evidence :=
    (set.locator.map fun locator => Evidence.mk "runtime store" locator .path).toList ++
    [⟨"anchors checked", toString set.pems.length, .number⟩] ++
    (if coverage.level = .partialRead then
      [⟨"stores read", toString coverage.read, .number⟩,
        ⟨"stores unread", toString coverage.unread, .number⟩] else []) ++
    (if 0 < coverage.unparsed then
      [⟨"unparsable in OS store", toString coverage.unparsed, .number⟩] else [])

def extraCaFindings (runtime : Runtime) (outcome : RuntimeStoreOutcome) : List Finding :=
  let ids := runtimeIds runtime
  let store : List Evidence := ⟨"store", outcome.kind.text, .text⟩ ::
    (outcome.locator.map fun locator => Evidence.mk "runtime store" locator .path).toList
  match outcome.failure with
  | some .notConfigured => []
  | none =>
    [{ id := ids.extraCaConfigured
       probe := probeName
       severity := .ok
       title := "The extra certificate file this runtime is pointed at was read"
       evidence := store ++ [⟨"anchors", toString outcome.pems.length, .number⟩] }]
  | some failure =>
    let empty := failure = .noCertificates
    [{ id := ids.extraCaUnreadable
       probe := probeName
       severity := .degraded
       title :=
         if empty then "The certificate file this runtime is pointed at holds no certificate"
         else "The certificate file this runtime is pointed at cannot be read"
       evidence := store ++ [⟨"failure", failure.text, .text⟩] ++
         (outcome.code.map fun code => Evidence.mk "code" code .text).toList
       remediation := some <|
         if empty then
           "The variable above names a file portcall read and found no certificate in, and the " ++
           "runtime ignores that as silently as it ignores an unreadable one - the roots you " ++
           "believe are loaded are not. Check that the file holds PEM certificate blocks rather " ++
           "than a DER file, a key, or an empty placeholder."
         else
           "The variable above names a file this process cannot read, and the runtime ignores an " ++
           "unreadable value without warning - the roots you believe are loaded are not. Fix the " ++
           "path or the permissions, or unset the variable so the runtime falls back to the " ++
           "store it ships with." }]

def storeNotFoundHint : Runtime → String
  | .node => "point NODE_EXTRA_CA_CERTS at the bundle it reads"
  | .go => "set SSL_CERT_FILE or SSL_CERT_DIR"
  | .python => "set VIRTUAL_ENV or REQUESTS_CA_BUNDLE"
  | .java => "set JAVA_HOME"

def storeNotFoundFinding (runtime : Runtime) (searched : List String) : Finding where
  id := (runtimeIds runtime).storeNotFound
  probe := probeName
  severity := .unknown
  title := "No trust store was found for a runtime this profile declares"
  evidence := (searched.take maxReportedPaths).map fun path => ⟨"searched", path, .path⟩
  remediation := some (
    "Portcall does not execute a toolchain it finds on PATH (ADR-0033), so it looked only " ++
    "in the well-known locations listed above and in the variables this runtime reads. " ++
    "Nothing was there, so no cross-check ran for it and this report says nothing either " ++
    "way about what it trusts. If the runtime is installed elsewhere, " ++
    storeNotFoundHint runtime ++ " and re-run; if it is not installed at all, drop it from the " ++
    "profile’s `runtimes` list so the report stops asking.")

/-- A keystore that produced no usable set, or only part of one. -/
def javaStoreUnreadableFinding (outcome : RuntimeStoreOutcome) : Finding :=
  let encrypted := outcome.failure = some .encrypted
  let part := outcome.failure = none && outcome.isPartial
  { id := "truststore.java.store-unreadable"
    probe := probeName
    severity := .unknown
    title :=
      if part then
        "Only part of this JDK’s keystore could be read: some entries are password-protected"
      else if encrypted then
        "This JDK’s keystore is password-protected, and portcall supplies no password"
      else "This JDK’s keystore was found and could not be read"
    evidence :=
      (outcome.locator.map fun locator => Evidence.mk "runtime store" locator .path).toList ++
      [⟨"format", (outcome.format.map KeystoreFormat.text).getD noCode, .text⟩,
        ⟨"failure", (outcome.failure.map RuntimeStoreFailure.text).getD
          (if part then "encrypted-entries" else "no-certificates"), .text⟩] ++
      (if part then [⟨"anchors read", toString outcome.pems.length, .number⟩] else [])
    remediation := some <|
      if part then
        "Portcall read the certificate entries this keystore does not protect with a password " ++
        "and could not read the rest, because it never supplies a keystore password (SPEC.md " ++
        "§4.2, ADR-0036). The cross-check below therefore covers only the entries it could " ++
        "open, and no clean verdict was produced for this store: the anchors it could not " ++
        "read may well be the ones you are looking for. Run `keytool -list -keystore <path>` " ++
        "yourself against the store named above and compare the full listing against the " ++
        "anchors in this report."
      else if encrypted then
        "This cacerts is a PKCS#12 keystore whose certificate entries are password-protected. " ++
        "Portcall never supplies a keystore password (SPEC.md §4.2, ADR-0036), so it cannot " ++
        "list them. Run `keytool -list -keystore <path>` yourself against the store named " ++
        "above and compare the output against the anchors listed in this report."
      else
        "Portcall found this JDK’s keystore and could not read it - the failure class above " ++
        "says whether the container was a format it does not parse, the file was truncated, " ++
        "or the read itself failed. No missing-root verdict was produced for this store, " ++
        "because an unreadable store must manufacture neither a clean answer nor a dirty one. " ++
        "Run `keytool -list -keystore <path>` against the path above and compare it against " ++
        "the anchors in this report." }

def platformVerifierFinding (runtime : Runtime) : Finding where
  id := (runtimeIds runtime).platformVerifier
  probe := probeName
  severity := .ok
  title := "This runtime asks the operating system, so it trusts what this machine trusts"
  evidence := [⟨"store", "platform-verifier", .text⟩]

/-- What one outcome says about its store, whatever it is compared with. -/
def outcomeFindings (runtime : Runtime) (outcome : RuntimeStoreOutcome) : List Finding :=
  (if outcome.kind ∈ envStoreKinds then extraCaFindings runtime outcome else []) ++
  if outcome.kind = .javaCacerts &&
      (outcome.isPartial || (outcome.failure ≠ none && outcome.failure ≠ some .notFound)) then
    [javaStoreUnreadableFinding outcome]
  else []

/-- Some outcome says that the runtime asks the platform itself. -/
def asksPlatform (outcomes : List RuntimeStoreOutcome) : Bool :=
  outcomes.any fun outcome => outcome.kind = .platformVerifier

/-- The anchors a set lacks. -/
def missingFrom (added : List Anchor) (index : CertificateIndex) : List Anchor :=
  added.filter fun anchor => !index.hasCertificate anchor.der

/-- The verdict on one set: none when everything read is there and some of it was not read. -/
def setVerdict (ext : Externals) (added : List Anchor) (observed : List ObservedAnchor)
    (coverage : OsCoverage) (set : TrustSet) : Throwing (Option Finding) :=
  (certificateIndex ext set.pems).map fun index =>
    let missing := missingFrom added index
    if 0 < missing.length then
      some (missingRootFinding set missing (correlate missing observed))
    else if !set.isPartial then some (rootsPresentFinding set coverage)
    else none

/-- Everything one runtime's outcomes say. -/
def runtimeFindings (ext : Externals) (runtime : Runtime) (outcomes : List RuntimeStoreOutcome)
    (added : List Anchor) (observed : List ObservedAnchor) (coverage : OsCoverage) :
    Throwing (List Finding) :=
  let stores := outcomes.flatMap (outcomeFindings runtime)
  if asksPlatform outcomes then some (stores ++ [platformVerifierFinding runtime])
  else
    let sets := trustSets runtime outcomes
    if sets.isEmpty then
      let located := outcomes.any fun outcome =>
        outcome.failure ≠ some .notConfigured && outcome.failure ≠ some .notFound
      some (stores ++ if located then []
        else [storeNotFoundFinding runtime (outcomes.flatMap RuntimeStoreOutcome.searched)])
    else if coverage.level = .none then some stores
    else (sets.mapM (setVerdict ext added observed coverage)).map fun verdicts =>
      stores ++ verdicts.reduceOption

end Portcall.Truststore
