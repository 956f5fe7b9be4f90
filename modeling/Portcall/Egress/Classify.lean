import Portcall.Seams

/-! Egress failure classes: which team one failed attempt belongs to. -/
namespace Portcall.Egress

inductive EgressClass where
  | ok
  | dns
  | refused
  | unreachable
  | timeout
  | reset
  | tls
  | http
  | unclassified
  deriving DecidableEq, Repr

def dnsCodes : List String :=
  ["ENOTFOUND", "EAI_AGAIN", "EAI_NODATA", "ENODATA", "NXDOMAIN", "SERVFAIL", "REFUSED", "ETIMEOUT"]

def unreachableCodes : List String := ["EHOSTUNREACH", "ENETUNREACH", "ENETDOWN", "EADDRNOTAVAIL"]

def timeoutCodes : List String := ["ETIMEDOUT", "ERR_SOCKET_CONNECTION_TIMEOUT"]

def resetCodes : List String := ["ECONNRESET", "EPIPE"]

def tlsCodes : List String :=
  ["ECONNRESET", "EPIPE", "DEPTH_ZERO_SELF_SIGNED_CERT", "SELF_SIGNED_CERT_IN_CHAIN",
    "UNABLE_TO_VERIFY_LEAF_SIGNATURE", "ERR_TLS_CERT_ALTNAME_INVALID"]

def tlsPrefixes : List String := ["ERR_TLS_", "ERR_SSL_", "CERT_"]

def httpPrefixes : List String := ["HPE_", "ERR_HTTP_"]

def hasPrefix (code : String) (prefixes : List String) : Bool :=
  prefixes.any fun head => Text.startsWith code head

/-- The class of a failed attempt. The resolver's codes come first on its own phase; after the
codes that no teardown of ours produces, our own watchdog outranks the code it left behind. -/
def classifyFailed (attempt : FailedAttempt) : EgressClass :=
  let phase := attempt.phase
  if phase = .dns && attempt.code.any (· ∈ dnsCodes) then .dns
  else if attempt.code = some "ECONNREFUSED" then .refused
  else if attempt.code.any (· ∈ unreachableCodes) then .unreachable
  else if attempt.abortedBy = some .phaseTimeout || attempt.code.any (· ∈ timeoutCodes) then
    .timeout
  else match attempt.code with
    | none => .unclassified
    | some code =>
      if (phase = .connect || phase = .http) && code ∈ resetCodes then .reset
      else if phase = .tls && (code ∈ tlsCodes || hasPrefix code tlsPrefixes) then .tls
      else if phase = .http && hasPrefix code httpPrefixes then .http
      else .unclassified

def classifyAttempt : EndpointAttempt → EgressClass
  | .ok .. => .ok
  | .failed attempt => classifyFailed attempt

/-- Statuses an intermediary answers with. -/
def intermediaryStatuses : List ℕ := [407, 511, 502, 503, 504]

def classifyStatus (status : ℕ) : EgressClass :=
  if status ∈ intermediaryStatuses then .http else .ok

end Portcall.Egress
