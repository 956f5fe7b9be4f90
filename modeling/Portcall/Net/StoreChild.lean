import Portcall.Net.Pem
import Portcall.Truststore.Stores

/-! Reading one store through a child process: what the handlers of the child's events, of the
budget's timer and of the run's signal do to the three flags they share, in whatever order they
fire. -/
namespace Portcall.Net

inductive Platform where
  | darwin
  | win32
  | linux
  | other
  deriving DecidableEq, Repr

inductive StoreFormat where
  | pemStream
  | base64DerLines
  deriving DecidableEq, Repr

/-- A row of the pinned command table. -/
structure StoreRow extends TrustStoreCommand where
  platform : Platform
  file : String
  argv : List String
  locator : String
  format : StoreFormat
  deriving DecidableEq, Repr

def osTrustStoreCommands : List StoreRow :=
  [{ platform := .darwin
     kind := .macosSystemRoots
     file := "/usr/bin/security"
     argv := ["find-certificate", "-a", "-p",
       "/System/Library/Keychains/SystemRootCertificates.keychain"]
     locator := "/System/Library/Keychains/SystemRootCertificates.keychain"
     format := .pemStream
     timeoutMs := 5000 },
   { platform := .darwin
     kind := .macosAdminAnchors
     file := "/usr/bin/security"
     argv := ["find-certificate", "-a", "-p", "/Library/Keychains/System.keychain"]
     locator := "/Library/Keychains/System.keychain"
     format := .pemStream
     timeoutMs := 5000 },
   { platform := .win32
     kind := .windowsMachineRoot
     file := "C:\\Windows\\System32\\WindowsPowerShell\\v1.0\\powershell.exe"
     argv := ["-NoProfile", "-NonInteractive", "-NoLogo", "-Command",
       "Get-ChildItem -Path Cert:\\LocalMachine\\Root | ForEach-Object " ++
         "\x7b [System.Convert]::ToBase64String($_.RawData) \x7d"]
     locator := "Cert:\\LocalMachine\\Root"
     format := .base64DerLines
     timeoutMs := 60000 }]

def maxStoreOutputBytes : ℕ := 4 * 1024 * 1024

/-- A line without the `\r` its `\n` was written with. -/
def withoutReturn (line : List Char) : List Char :=
  if line.getLast? = some '\r' then line.dropLast else line

/-- `stdout.split(/\r?\n/)` -/
def splitLines (text : List Char) : List (List Char) :=
  let lines := Text.splitChars '\n' text
  lines.dropLast.map withoutReturn ++ lines.getLast?.toList

def parseStdout (format : StoreFormat) (stdout : String) : List String :=
  match format with
  | .pemStream => pemBlocks stdout
  | .base64DerLines => (splitLines stdout.toList).filterMap fun line =>
    (normaliseBase64 line).map fun body => derToPem (Base64.decode body)

/-- Why the child was killed, and the machine code that says so. -/
structure Killed where
  failure : TrustStoreFailure
  code : String
  deriving DecidableEq, Repr

/-- What fires after the spawn. -/
inductive ChildEvent where
  | data (chunk : List UInt8)
  | timer
  | abort
  | error (code : Option String)
  | close (code : Option ℤ) (signal : Option String)
  deriving DecidableEq, Repr

/-- The variables the handlers share, and what the promise was resolved with, first to last. -/
structure ReadState where
  chunks : List (List UInt8) := []
  received : ℕ := 0
  settled : Bool := false
  killed : Option Killed := none
  resolved : List TrustStoreOutcome := []
  deriving DecidableEq, Repr

namespace ReadState

def kill (state : ReadState) (reason : Killed) : ReadState :=
  if state.killed.isSome || state.settled then state
  else { state with killed := some reason, chunks := [] }

def finish (state : ReadState) (outcome : TrustStoreOutcome) : ReadState :=
  if state.settled then state
  else { state with settled := true, resolved := state.resolved ++ [outcome] }

end ReadState

section Read
variable (utf8 : List UInt8 → String) (row : StoreRow) (timeoutMs : ℕ)

def storeOutcome (readMs : Option ℕ) (failure : Option TrustStoreFailure) (code : Option String)
    (pems : List String) : TrustStoreOutcome where
  kind := row.kind
  locator := row.locator
  pems
  failure
  code
  budgetMs := some timeoutMs
  readMs

/-- One handler run; `elapsed` is the time since the read began. -/
def onEvent (state : ReadState) : ℕ × ChildEvent → ReadState
  | (_, .timer) => state.kill ⟨.timeout, "signal:SIGKILL"⟩
  | (_, .abort) => state.kill ⟨.aborted, "run-signal"⟩
  | (_, .data chunk) =>
    if state.killed.isSome then state
    else
      let state := { state with received := state.received + chunk.length }
      if maxStoreOutputBytes < state.received then
        state.kill ⟨.outputTooLarge, "signal:SIGKILL"⟩
      else { state with chunks := state.chunks ++ [chunk] }
  | (elapsed, .error code) =>
    state.finish (storeOutcome row timeoutMs (some elapsed)
      (some (if code = some "ENOENT" then .readerMissing else .readerFailed)) code [])
  | (elapsed, .close code signal) =>
    let finish failure code pems :=
      state.finish (storeOutcome row timeoutMs (some elapsed) failure code pems)
    match state.killed, signal with
    | some killed, _ => finish (some killed.failure) (some killed.code) []
    | none, some signal => finish (some .readerFailed) (some ("signal:" ++ signal)) []
    | none, none =>
      if code ≠ some 0 then
        finish (some .readerFailed) (code.map fun code => "exit:" ++ toString code) []
      else
        let pems := parseStdout row.format (utf8 state.chunks.flatten)
        finish (if pems.isEmpty then some .noCertificates else none) none pems

/-- The handlers of the events that fire, one after the other. -/
def onEvents (events : List (ℕ × ChildEvent)) : ReadState :=
  events.foldl (onEvent utf8 row timeoutMs) {}

/-- One store, one child process; `none` while its promise is not resolved. -/
def readOneStore (aborted : Bool) (events : List (ℕ × ChildEvent)) : Option TrustStoreOutcome :=
  if aborted then
    -- no child, no budget and no read
    some { storeOutcome row timeoutMs none (some .aborted) (some "run-signal") [] with
      budgetMs := some 0 }
  else (onEvents utf8 row timeoutMs events).resolved.head?

end Read
end Portcall.Net
