import Portcall.Engine
import Portcall.Tls.PublicRoots

/-! TLS chain evaluation: DER bytes in, findings and the observed anchor out. -/
namespace Portcall.Tls

def expiryWarningDays : ℤ := 30
def dayMs : ℤ := 24 * 60 * 60 * 1000
def maxSanEvidence : ℕ := 8

structure CapturedChain where
  chainDer : List (List UInt8)
  negotiatedProtocol : Option String
  negotiatedCipher : Option String
  requestedSni : String
  via : Via
  deriving DecidableEq, Repr

structure ChainTarget where
  host : String
  required : Bool
  deriving DecidableEq, Repr

structure ChainEvaluationOptions where
  roots : CertificateIndex
  /-- Evaluation time, in milliseconds. -/
  now : ℤ

structure ChainEvaluation where
  findings : List Finding
  anchor : Option ObservedAnchor
  deriving DecidableEq, Repr

/-- What a lookup in `PROTOCOL_RANK` can find: a row, or a member every object inherits, which
compares with no number. -/
inductive Rank where
  | number (rank : ℕ)
  | inherited
  deriving DecidableEq, Repr

def objectMembers : List String :=
  ["constructor", "hasOwnProperty", "isPrototypeOf", "propertyIsEnumerable", "toLocaleString",
    "toString", "valueOf", "__proto__", "__defineGetter__", "__defineSetter__",
    "__lookupGetter__", "__lookupSetter__"]

def protocolRank (name : String) : Option Rank :=
  match name with
  | "SSLv3" => some (.number 0)
  | "TLSv1" => some (.number 1)
  | "TLSv1.1" => some (.number 2)
  | "TLSv1.2" => some (.number 3)
  | "TLSv1.3" => some (.number 4)
  | _ => if name ∈ objectMembers then some .inherited else none

def minVersionRank : TlsVersion → ℕ
  | .v10 => 1
  | .v11 => 2
  | .v12 => 3
  | .v13 => 4

/-- `rank >= floor` -/
def Rank.atLeast : Rank → ℕ → Bool
  | .number rank, floor => floor ≤ rank
  | .inherited, _ => false

def host (name : String) : Evidence := ⟨"host", name, .hostname⟩
def via (capture : CapturedChain) : Evidence := ⟨"connection", capture.via.text, .text⟩
def subject (certificate : X509Certificate) : Evidence := ⟨"subject", certificate.subject, .dn⟩
def issuer (certificate : X509Certificate) (label : String) : Evidence :=
  ⟨label, certificate.issuer, .dn⟩
def serial (certificate : X509Certificate) : Evidence :=
  ⟨"serial", certificate.serialNumber, .serial⟩
def count (label : String) (value : ℤ) : Evidence := ⟨label, toString value, .number⟩

/-- Parse the whole chain, or nothing. -/
def parseChain (ext : Externals) (chainDer : List (List UInt8)) : Option (List X509Certificate) :=
  chainDer.mapM ext.x509Der

def parseOne (ext : Externals) (der : Option (List UInt8)) : Option X509Certificate :=
  der.bind ext.x509Der

/-- The dNSName entries, or `none` when there is no such extension at all. -/
def dnsNames (certificate : X509Certificate) : Option (List String) :=
  certificate.subjectAltName.map fun items =>
    (items.filter (fun name => name.type = "dns")).map GeneralName.value

/-- `replace(/\.$/, '')` -/
def withoutTrailingDot (name : List Char) : List Char :=
  if name.getLast? = some '.' then name.dropLast else name

def matchesDnsName (ext : Externals) (name pattern : String) : Bool :=
  let candidate := withoutTrailingDot (ext.toLowerCase name).toList
  let wanted := withoutTrailingDot (ext.toLowerCase pattern).toList
  if candidate.isEmpty || wanted.isEmpty then false
  else if !(['*', '.'].isPrefixOf wanted) then !wanted.contains '*' && candidate == wanted
  else
    let suffix := wanted.drop 1
    if suffix.contains '*' then false
    else if !(suffix.drop 1).contains '.' then false
    else match candidate.findIdx? (· = '.') with
      | none => false
      | some 0 => false
      | some firstDot => candidate.drop firstDot == suffix

/-- Whole days from `now` to `deadline`, rounded down. -/
def daysUntil (deadline now : ℤ) : ℤ := (deadline - now) / dayMs

section Findings
variable (target : ChainTarget) (capture : CapturedChain) (chain : List X509Certificate)

def chainEmpty : Finding where
  id := "tls.chain-empty"
  probe := "tls"
  severity := .unknown
  title := "The handshake completed without a certificate being presented"
  evidence := [host target.host, via capture]
  remediation := some (
    "Nothing can be said about TLS on this endpoint: the peer completed a handshake and sent no " ++
    "certificate chain, which no ordinary HTTPS server does. Confirm with the team that owns " ++
    "this address that the port really terminates TLS, and re-run; if it repeats, capture the " ++
    "handshake with `openssl s_client -connect host:port -showcerts` and hand that to them.")

def chainUnparseable (length : ℕ) : Finding where
  id := "tls.chain-unparseable"
  probe := "tls"
  severity := .unknown
  title := "The presented certificate chain could not be parsed"
  evidence := [host target.host, via capture, count "certificates presented" length]
  remediation := some (
    "The peer presented bytes that are not a readable X.509 chain, so this is not a verdict " ++
    "about trust either way. Capture the chain with `openssl s_client -connect host:port " ++
    "-showcerts` and give it to whoever operates the TLS terminator on this network - a " ++
    "middlebox emitting malformed certificates will break every client, not just this one.")

def publicRoot (root : X509Certificate) (roots : CertificateIndex) : Finding where
  id := "tls.public-root"
  probe := "tls"
  severity := .ok
  title := "The certificate chain anchors in a public root the runtime ships"
  evidence := [host target.host, via capture, ⟨"root", root.subject, .public⟩,
    count "roots in bundle" roots.size]

/-- The certificate the verdict was reached about: the last one on the issuance path. -/
def anchorOf (verdict : RootVerdict) : Throwing X509Certificate :=
  verdict.path.getLast?.bind (chain[·]?)

def privateRoot (verdict : RootVerdict) (policy : TlsPolicy) : Throwing Finding :=
  (anchorOf chain verdict).map fun top =>
    { id := "tls.private-root"
      probe := "tls"
      severity :=
        if policy.interceptionTolerated then .degraded else cap .blocker target.required
      title := "TLS is terminated by a certificate authority the runtime does not ship"
      evidence := [host target.host, via capture, ⟨"reason", verdict.reason.text, .text⟩,
          subject top, issuer top "root issuer"] ++
        (chain.head?.map serial).toList ++
        [count "certificates presented" chain.length,
          count "certificates on issuance path" verdict.path.length]
      remediation := some <|
        if policy.interceptionTolerated then
          "This network re-signs TLS with its own certificate authority, which this profile " ++
          "expects. Every runtime still has to be told to trust it: export the CA in PEM form " ++
          "from whoever runs the proxy, then point the tool at it (`NODE_EXTRA_CA_CERTS` for " ++
          "Node, `SSL_CERT_FILE`/`REQUESTS_CA_BUNDLE` for Python, the system store for Go). " ++
          "Installing it in the OS store alone is not enough for runtimes that ship their own " ++
          "bundle."
        else
          "This network re-signs TLS with its own certificate authority, and this profile says " ++
          "the client will not accept that - certificate pinning and mutual TLS both break under " ++
          "interception no matter which roots are installed. Ask the team that runs the " ++
          "inspection appliance for a decryption bypass for the hosts in this profile; that is a " ++
          "routine, per-destination policy change and does not require turning inspection off." }

def rootIndeterminate (verdict : RootVerdict) : Throwing Finding :=
  (anchorOf chain verdict).map fun top =>
    { id := "tls.root-indeterminate"
      probe := "tls"
      severity := .unknown
      title := "The chain does not carry its root, so the anchor could not be identified"
      evidence := [host target.host, via capture, ⟨"reason", verdict.reason.text, .text⟩,
        issuer top "names as issuer", count "certificates presented" chain.length,
        count "certificates on issuance path" verdict.path.length]
      remediation := some (
        "The peer sent an incomplete chain: it names an issuer that exists in the public bundle " ++
        "but did not present it, and portcall does not verify signatures, so it will not claim " ++
        "the chain is public on the strength of a name (ADR-0021). Ask whoever operates this " ++
        "endpoint to serve the full chain including intermediates - clients that lack the " ++
        "missing certificate will fail here for the same reason.") }

def protocolFindings (policy : TlsPolicy) : List Finding :=
  match capture.negotiatedProtocol.bind protocolRank with
  | none =>
    [{ id := "tls.protocol-unknown"
       probe := "tls"
       severity := .unknown
       title := "The negotiated TLS version could not be identified"
       evidence := [host target.host, via capture]
       remediation := some (
         "The handshake completed but reported a protocol name this tool does not recognise, so " ++
         "it cannot be checked against the profile minimum. Re-run on a current release; if it " ++
         "persists, run `openssl s_client -connect host:port` and check what the terminator on " ++
         "this path is actually negotiating.") }]
  | some rank =>
    if rank.atLeast (minVersionRank policy.minVersion) then
      [{ id := "tls.protocol"
         probe := "tls"
         severity := .ok
         title := "The negotiated TLS version meets the profile minimum"
         evidence := [host target.host, via capture,
           ⟨"protocol", capture.negotiatedProtocol.getD "", .text⟩] }]
    else
      [{ id := "tls.protocol-below-minimum"
         probe := "tls"
         severity := cap .blocker target.required
         title := "The negotiated TLS version is below the minimum this profile requires"
         evidence := [host target.host, via capture,
           ⟨"protocol", capture.negotiatedProtocol.getD "", .text⟩,
           ⟨"profile minimum", policy.minVersion.text, .text⟩]
         remediation := some (
           "The client will refuse this connection even though the handshake succeeded here, " ++
           "because it requires a newer TLS version than this path offers. Ask the team that " ++
           "runs the TLS-terminating appliance to enable the profile minimum for these hosts; an " ++
           "appliance downgrading traffic to an old TLS version is usually a legacy " ++
           "compatibility setting rather than an intentional policy.") }]

/-- A certificate of the chain with its position. -/
structure ValidityWindow where
  certificate : X509Certificate
  index : ℕ
  deriving DecidableEq, Repr

/-- The certificate that expires first; the first of those that expire together. -/
def earliestExpiring (chain : List X509Certificate) : Option ValidityWindow :=
  chain.zipIdx.foldl (fun earliest entry =>
    match earliest with
    | none => some ⟨entry.1, entry.2⟩
    | some window =>
      if entry.1.notAfter < window.certificate.notAfter then some ⟨entry.1, entry.2⟩
      else some window) none

/-- The certificate whose start is furthest in the future, if any is not valid yet. -/
def notYetValid (chain : List X509Certificate) (now : ℤ) : Option ValidityWindow :=
  chain.zipIdx.foldl (fun latest entry =>
    if entry.1.notBefore ≤ now then latest
    else match latest with
      | none => some ⟨entry.1, entry.2⟩
      | some window =>
        if entry.1.notBefore > window.certificate.notBefore then some ⟨entry.1, entry.2⟩
        else some window) none

def chainNotYetValid (early : ValidityWindow) (now : ℤ) : Finding where
  id := "tls.chain-not-yet-valid"
  probe := "tls"
  severity := cap .blocker target.required
  title := "A certificate in the chain is not valid yet"
  evidence := [host target.host, via capture, subject early.certificate,
    count "chain position" early.index,
    count "days until it becomes valid" (daysUntil early.certificate.notBefore now)]
  remediation := some (
    "This is a clock problem far more often than a certificate problem: check this machine's " ++
    "time and timezone against a reliable source first, since a skewed clock breaks every TLS " ++
    "client on the host. If the clock is right, the certificate was issued with a future start " ++
    "date and whoever issued it has to re-issue it.")

def chainExpired (earliest : ValidityWindow) (remaining : ℤ) : Finding where
  id := "tls.chain-expired"
  probe := "tls"
  severity := cap .blocker target.required
  title := "A certificate in the chain has expired"
  evidence := [host target.host, via capture, subject earliest.certificate,
    count "chain position" earliest.index, count "days since it expired" (-remaining)]
  remediation := some (
    "Every client that checks certificates is already failing on this endpoint. Send the " ++
    "subject in the evidence above to whoever owns that certificate and have it renewed. If the " ++
    "expired certificate is an interception CA rather than the origin, it belongs to whoever " ++
    "runs the proxy, and renewing it will require re-distributing the new CA.")

def chainExpiringSoon (earliest : ValidityWindow) (remaining : ℤ) : Finding where
  id := "tls.chain-expiring-soon"
  probe := "tls"
  severity := .degraded
  title := "A certificate in the chain expires within the warning window"
  evidence := [host target.host, via capture, subject earliest.certificate,
    count "chain position" earliest.index, count "days until expiry" remaining,
    count "warning window (days)" expiryWarningDays]
  remediation := some (
    "Nothing is broken yet, and this is the last comfortable moment to fix it. Raise the " ++
    "renewal with whoever owns the certificate named above now: after it expires every client " ++
    "on this path fails at once, and a change window inside a large organisation is rarely " ++
    "shorter than the time left.")

def validityFindings (now : ℤ) : List Finding :=
  let early := (notYetValid chain now).map fun window =>
    chainNotYetValid target capture window now
  let expiry := (earliestExpiring chain).bind fun window =>
    let remaining := daysUntil window.certificate.notAfter now
    if window.certificate.notAfter ≤ now then some (chainExpired target capture window remaining)
    else if remaining ≤ expiryWarningDays then
      some (chainExpiringSoon target capture window remaining)
    else none
  early.toList ++ expiry.toList

def leafNoSan (leaf : X509Certificate) : Finding where
  id := "tls.leaf-no-san"
  probe := "tls"
  severity := cap .blocker target.required
  title := "The leaf certificate carries no subject alternative name"
  evidence := [host target.host, via capture,
    ⟨"requested name", capture.requestedSni, .hostname⟩, subject leaf, issuer leaf "issuer"]
  remediation := some (
    "Modern TLS clients ignore the common name entirely and will reject this certificate " ++
    "outright, whatever its CN says. Ask whoever issued it - the origin team, or whoever runs " ++
    "the interception appliance if the chain is privately rooted - to re-issue with a " ++
    "subjectAltName covering the hostname in the evidence above.")

def sniMismatch (leaf : X509Certificate) (names : List String) : Finding where
  id := "tls.sni-mismatch"
  probe := "tls"
  severity := cap .blocker target.required
  title := "The presented certificate does not cover the name that was requested"
  evidence := [host target.host, via capture,
      ⟨"requested name", capture.requestedSni, .hostname⟩] ++
    (names.take maxSanEvidence).map (fun name => ⟨"certificate name", name, .hostname⟩) ++
    [count "names on certificate" names.length, subject leaf]
  remediation := some (
    "Every client will reject this connection with a hostname-verification error. If the chain " ++
    "is publicly rooted, the endpoint is serving the wrong certificate and its owner has to fix " ++
    "the binding; if it is privately rooted, the interception appliance is generating " ++
    "certificates for the wrong name - usually because it is keying off the address rather than " ++
    "the SNI - and that is a proxy configuration ticket.")

def nameFindings (ext : Externals) (leaf : X509Certificate) : List Finding :=
  if capture.requestedSni = "" then []
  else match dnsNames leaf with
    | none => [leafNoSan target capture leaf]
    | some names =>
      if names.any (fun name => matchesDnsName ext capture.requestedSni name) then []
      else [sniMismatch target capture leaf names]

/-- The finding the root verdict becomes, if any. -/
def rootFindings (verdict : RootVerdict) (policy : TlsPolicy) (roots : CertificateIndex) :
    Throwing (List Finding) :=
  match verdict.rootClass with
  | .public =>
    some ((verdict.matchedIndex.bind (chain[·]?)).map fun matched =>
      publicRoot target capture matched roots).toList
  | .private => (privateRoot target capture chain verdict policy).map ([·])
  | .indeterminate => (rootIndeterminate target capture chain verdict).map ([·])

/-- The anchor to hand to the cross-check, read off the verdict just made. -/
def observedAnchor (ext : Externals) (verdict : RootVerdict) : Option ObservedAnchor :=
  match verdict.rootClass with
  | .public => none
  | .private => anchored .private
  | .indeterminate => anchored .indeterminate
where
  anchored (anchorClass : AnchorClass) : Option ObservedAnchor :=
    (verdict.path.getLast?.bind (chain[·]?)).map fun terminus =>
      { der := if verdict.reason = .selfSignedAnchorNotBundled then some terminus.rawData else none
        canonicalIssuer := canonicalDn ext terminus.issuerName
        canonicalSubject := canonicalDn ext terminus.subjectName
        host := target.host
        via := capture.via
        anchorClass }

end Findings

/-- Evaluate one captured chain. -/
def evaluateChain (ext : Externals) (capture : CapturedChain) (target : ChainTarget)
    (policy : TlsPolicy) (options : ChainEvaluationOptions) : Throwing ChainEvaluation :=
  if capture.chainDer.isEmpty then some ⟨[chainEmpty target capture], none⟩
  else match parseChain ext capture.chainDer with
    | none => some ⟨[chainUnparseable target capture capture.chainDer.length], none⟩
    | some [] => some ⟨[chainEmpty target capture], none⟩
    | some (leaf :: rest) => do
      let chain := leaf :: rest
      let verdict ← classifyRoot ext chain options.roots
      let root ← rootFindings target capture chain verdict policy options.roots
      return {
        findings := root ++ protocolFindings target capture policy ++
          validityFindings target capture chain options.now ++
          nameFindings target capture ext leaf
        anchor := observedAnchor target capture chain ext verdict }

def interceptionEvidence (ext : Externals) (label : String) (capture : CapturedChain) :
    List Evidence :=
  count (label ++ " chain length") capture.chainDer.length ::
    ((parseOne ext capture.chainDer.head?).map fun leaf =>
      Evidence.mk (label ++ " leaf issuer") leaf.issuer .dn).toList

/-- Compare the chain seen directly against the chain seen through the proxy. -/
def compareChains (ext : Externals) (direct viaProxy : Option CapturedChain) (name : String) :
    List Finding :=
  match direct, viaProxy with
  | some direct, some viaProxy =>
    match direct.chainDer.head?, viaProxy.chainDer.head? with
    | some directLeaf, some proxyLeaf =>
      if directLeaf = proxyLeaf then
        [{ id := "tls.chain-consistent"
           probe := "tls"
           severity := .ok
           title := "The proxied path presents the same certificate as the direct path"
           evidence := host name :: interceptionEvidence ext "direct" direct }]
      else
        [{ id := "tls.intercepted-via-proxy"
           probe := "tls"
           severity := .degraded
           title := "The proxy presents a different certificate than the endpoint does directly"
           evidence := host name :: interceptionEvidence ext "direct" direct ++
             interceptionEvidence ext "proxied" viaProxy
           remediation := some (
             "The proxy is decrypting and re-signing traffic to this endpoint rather than " ++
             "forwarding it. Every runtime on this machine has to trust the appliance CA for " ++
             "that to work, and anything that pins a certificate or uses mutual TLS will fail " ++
             "regardless. Take the issuer in the evidence above to whoever runs the proxy and " ++
             "agree one of two things: distribute the CA to the runtimes this tool uses, or add " ++
             "a decryption bypass for the hosts in this profile.") }]
    | _, _ => []
  | _, _ => []

end Portcall.Tls
