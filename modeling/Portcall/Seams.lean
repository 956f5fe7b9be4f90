import Portcall.Profile

/-! The network seams: what an attempt, a lookup, a fetch or a capture can come back with. -/
namespace Portcall

inductive AttemptPhase where
  | dns
  | connect
  | tls
  | http
  deriving DecidableEq, Repr

def AttemptPhase.text : AttemptPhase → String
  | .dns => "dns"
  | .connect => "connect"
  | .tls => "tls"
  | .http => "http"

/-- Whose clock ended an attempt: its own budget, or the run's. -/
inductive AbortedBy where
  | phaseTimeout
  | runSignal
  deriving DecidableEq, Repr

structure AttemptTiming where
  dnsMs : Option ℕ := none
  connectMs : Option ℕ := none
  tlsMs : Option ℕ := none
  httpMs : Option ℕ := none
  deriving DecidableEq, Repr

structure FailedAttempt where
  phase : AttemptPhase
  code : Option String
  abortedBy : Option AbortedBy
  addresses : List String := []
  status : Option ℕ := none
  timing : AttemptTiming := {}
  deriving DecidableEq, Repr

inductive EndpointAttempt where
  | ok (addresses : List String) (tlsProtocol : Option String) (status : Option ℕ)
      (timing : AttemptTiming)
  | failed (attempt : FailedAttempt)
  deriving DecidableEq, Repr

/-- The run's own clock ended the attempt. -/
def EndpointAttempt.endedByRun : EndpointAttempt → Bool
  | .ok .. => false
  | .failed attempt => attempt.abortedBy = some .runSignal

structure EndpointTarget where
  host : String
  port : ℕ
  useTls : Bool
  deriving DecidableEq, Repr

/-- The endpoint seam: what an attempt on a target comes back with. -/
abbrev EndpointProber := EndpointTarget → EndpointAttempt

structure FailedLookup where
  code : Option String
  abortedBy : Option AbortedBy
  elapsedMs : ℕ := 0
  deriving DecidableEq, Repr

inductive DnsOutcome where
  | ok (addresses : List String) (elapsedMs : ℕ)
  | failed (outcome : FailedLookup)
  deriving DecidableEq, Repr

def DnsOutcome.endedByRun : DnsOutcome → Bool
  | .ok .. => false
  | .failed outcome => outcome.abortedBy = some .runSignal

/-- The resolver seam: what a lookup comes back with. -/
abbrev DnsResolver := String → DnsOutcome

structure FailedFetch where
  phase : AttemptPhase
  code : Option String
  abortedBy : Option AbortedBy
  elapsedMs : ℕ := 0
  deriving DecidableEq, Repr

inductive PacFetchOutcome where
  | ok (script : String) (elapsedMs : ℕ)
  | failed (outcome : FailedFetch)
  deriving DecidableEq, Repr

def PacFetchOutcome.endedByRun : PacFetchOutcome → Bool
  | .ok .. => false
  | .failed outcome => outcome.abortedBy = some .runSignal

/-- The fetch seam: what asking a URL for a script comes back with. -/
abbrev PacFetcher := String → PacFetchOutcome

inductive AuthScheme where
  | basic
  | ntlm
  | negotiate
  | none
  | unknown
  deriving DecidableEq, Repr

def AuthScheme.text : AuthScheme → String
  | .basic => "Basic"
  | .ntlm => "NTLM"
  | .negotiate => "Negotiate"
  | .none => "none"
  | .unknown => "unknown"

/-- The phases of a CONNECT attempt: those of any attempt, and the tunnel request itself. -/
inductive ConnectPhase where
  | attempt (phase : AttemptPhase)
  | tunnel
  deriving DecidableEq, Repr

structure FailedConnect where
  phase : ConnectPhase
  code : Option String
  status : Option ℕ
  abortedBy : Option AbortedBy
  timing : AttemptTiming := {}
  deriving DecidableEq, Repr

inductive ProxyConnectAttempt where
  | ok (status : ℕ) (timing : AttemptTiming)
  | failed (attempt : FailedConnect)
  deriving DecidableEq, Repr

def ProxyConnectAttempt.endedByRun : ProxyConnectAttempt → Bool
  | .ok .. => false
  | .failed attempt => attempt.abortedBy = some .runSignal

def ProxyConnectAttempt.code : ProxyConnectAttempt → Option String
  | .ok .. => none
  | .failed attempt => attempt.code

/-- The attempt, with the raw challenge header beside it. -/
structure ProxyConnectDetail where
  attempt : ProxyConnectAttempt
  proxyAuthenticate : Option String
  deriving DecidableEq, Repr

inductive TlsCapturePhase where
  | dns
  | connect
  | tunnel
  | tls
  deriving DecidableEq, Repr

def TlsCapturePhase.text : TlsCapturePhase → String
  | .dns => "dns"
  | .connect => "connect"
  | .tunnel => "tunnel"
  | .tls => "tls"

structure TlsChain where
  chainDer : List (List UInt8)
  negotiatedProtocol : Option String
  negotiatedCipher : Option String
  requestedSni : String
  deriving DecidableEq, Repr

structure FailedCapture where
  phase : TlsCapturePhase
  code : Option String
  abortedBy : Option AbortedBy
  deriving DecidableEq, Repr

inductive TlsChainOutcome where
  | ok (chain : TlsChain)
  | failed (outcome : FailedCapture)
  deriving DecidableEq, Repr

def TlsChainOutcome.endedByRun : TlsChainOutcome → Bool
  | .ok _ => false
  | .failed outcome => outcome.abortedBy = some .runSignal

structure HostPort where
  host : String
  port : ℕ
  deriving DecidableEq, Repr

/-- The CONNECT seam: what asking a proxy for a tunnel to a target comes back with. -/
abbrev ProxyConnect := HostPort → HostPort → ProxyConnectDetail

/-- Stand-in for a failure that gave no code. -/
def noCode : String := "unavailable"

end Portcall
