import Portcall.Truststore.Anchors

/-! Findings about the platform's stores themselves, before anything is compared with them. -/
namespace Portcall.Truststore

def probeName : String := "truststore"

/-- The healthy-read ceiling of the row for this store, if the table has one. -/
def ceilingFor (kind : TrustStoreKind) (commands : List TrustStoreCommand) : Option ℕ :=
  (commands.find? fun command => command.kind = kind).map TrustStoreCommand.timeoutMs

/-- Whether the double nearest to `ms / 1000` is at least `ms / 1000`. -/
def roundsUp (ms : ℕ) : Bool :=
  let shift := ((List.range 64).find? fun s => 1000 * 2 ^ 52 ≤ ms * 2 ^ s).getD 0
  let mantissa := ms * 2 ^ shift / 1000
  let remainder := ms * 2 ^ shift % 1000
  remainder = 0 || 500 < remainder || (remainder = 500 && mantissa % 2 = 1)

/-- `(ms / 1000).toFixed(1)`: of two tenths equally near, the larger. -/
def toFixed1 (ms : ℕ) : String :=
  let tenths :=
    if ms % 100 < 50 then ms / 100
    else if 50 < ms % 100 then ms / 100 + 1
    else if roundsUp ms then ms / 100 + 1
    else ms / 100
  toString (tenths / 10) ++ "." ++ toString (tenths % 10)

/-- Whole seconds where the number is whole, one decimal where it is not. -/
def seconds (ms : ℕ) : String :=
  if ms % 1000 = 0 then toString (ms / 1000) else toFixed1 ms

example : seconds 1050 = "1.1" ∧ seconds 1150 = "1.1" := by decide

def readTimeoutRemediation (store : TrustStoreOutcome) (ceiling : Option ℕ) : String :=
  if store.code = some "budget-exhausted" then
    "The run's remaining time ran out before this store was read, not the store itself: the " ++
    "four earlier probes used the whole budget. Re-run with --timeout raised (default 60 " ++
    "seconds, and truststore runs last)."
  else
    let applied := store.budgetMs.getD 0
    let rowBound := ceiling.any (fun ceiling => ceiling ≤ applied)
    "Portcall stopped reading " ++ store.locator ++ " after " ++ seconds applied ++
    " seconds, so the trust-store cross-check below is incomplete rather than clean - do not " ++
    "read it as \"this root is present\". " ++
    (if rowBound then
      "That is the whole time this store gets on this platform rather than a slice of the run " ++
      "budget: the run's own --timeout is not what cut the read short, so raising it would " ++
      "only wait longer for the same answer. The ceiling is what a healthy host of this " ++
      "platform actually needs for this read, with headroom above it, so a store that outruns " ++
      "it is the finding rather than a number to retune. "
    else
      "The run had less time left than this store is allowed, so the run budget is what cut " ++
      "the read short: re-run with --timeout raised to give it more room. ") ++
    "If it still does not finish, list that store with your platform's own certificate tool " ++
    "and send the output with this report. On Windows, a first enumeration of the machine " ++
    "root store can also block while the OS itself fetches its root-certificate update " ++
    "list, so check whether ctldl.windowsupdate.com is reachable or blocked at your egress."

def readTimeoutFinding (store : TrustStoreOutcome) (ceiling : Option ℕ) : Finding where
  id := "truststore.os.read-timeout"
  probe := probeName
  severity := .unknown
  title := "Reading this machine’s trust store did not finish inside the time allowed"
  evidence :=
    [⟨"store", store.kind.text, .text⟩, ⟨"store read", store.locator, .path⟩] ++
    (match store.budgetMs.filter (fun budget => 0 < budget), ceiling with
      | some budget, _ => [⟨"budget applied (ms)", toString budget, .number⟩]
      | none, some ceiling => [⟨"store budget, never applied (ms)", toString ceiling, .number⟩]
      | none, none => []) ++
    (store.readMs.map fun readMs => Evidence.mk "read took (ms)" (toString readMs) .number).toList ++
    [⟨"code", store.code.getD noCode, .text⟩]
  remediation := some (readTimeoutRemediation store ceiling)

def storeUnreadableTitle : String := "Portcall could not read this machine’s trust store"
def storeEmptyTitle : String :=
  "Portcall read this machine’s trust store and it held no certificates"

structure ReadFailureRow where
  title : String
  remediation : String
  deriving DecidableEq, Repr

/-- Why a store read produced nothing; the other failures have findings of their own or none. -/
def osReadFailures : TrustStoreFailure → Option ReadFailureRow
  | .readerMissing => some
    { title := storeUnreadableTitle
      remediation :=
        "The tool this platform lists certificates with was not there to run - the absolute " ++
        "path portcall pins it to (ADR-0033) does not exist on this machine. Confirm it is " ++
        "installed where this platform ships it, or list the store yourself with the platform’s " ++
        "certificate manager and send the output with this report." }
  | .readerFailed => some
    { title := storeUnreadableTitle
      remediation :=
        "The tool this platform lists certificates with ran and did not answer - the code above " ++
        "says whether it exited non-zero or was killed by a signal portcall did not send. Run " ++
        "the same listing yourself to see what it reports, or list the store with the " ++
        "platform’s certificate manager and send the output with this report." }
  | .outputTooLarge => some
    { title := storeUnreadableTitle
      remediation :=
        "This store’s listing exceeded the size portcall reads from a child process, and the " ++
        "child was killed before it printed the rest, so nothing from it could be parsed. That " ++
        "is unusual for a trust store; list it yourself with the platform’s certificate manager " ++
        "to see what is actually in it, and send the output with this report." }
  | .noCertificates => some
    { title := storeEmptyTitle
      remediation :=
        "Portcall read this store and it held no certificates at all, which is unusual for a " ++
        "trust store, so the cross-check below has nothing to compare runtimes against for it. " ++
        "Confirm this is really the store this machine verifies TLS connections against with " ++
        "the platform’s certificate manager - an empty result more often means the wrong path " ++
        "than an empty machine." }
  | .unsupportedPlatform => none
  | .timeout => none
  | .aborted => none

def unreadableFinding (store : TrustStoreOutcome) (failure : TrustStoreFailure)
    (row : ReadFailureRow) : Finding where
  id := "truststore.os.unreadable"
  probe := probeName
  severity := .unknown
  title := row.title
  evidence := [⟨"store", store.kind.text, .text⟩, ⟨"store read", store.locator, .path⟩,
    ⟨"failure", failure.text, .text⟩, ⟨"code", store.code.getD noCode, .text⟩]
  remediation := some row.remediation

def unsupportedPlatformFinding : Finding where
  id := "truststore.os.unreadable"
  probe := probeName
  severity := .unknown
  title := "Portcall has no trust-store reader for this operating system"
  evidence := [⟨"failure", "unsupported-platform", .text⟩]
  remediation := some (
    "Portcall reads the trust store on macOS, Windows and Linux, and this machine is none " ++
    "of them, so it did not look rather than looking and finding nothing. The cross-check " ++
    "below is missing its entire reference set: list this machine’s roots with whatever " ++
    "tool this platform provides and compare them by hand against the runtime stores named " ++
    "below.")

def unparsedRemediation (count : ℕ) : String :=
  "This store held " ++ toString count ++ " block" ++ (if count = 1 then "" else "s") ++
  " that did not parse as a certificate - a malformed entry in this machine’s own trust store, " ++
  "not something portcall can fix. Every check below is against the anchors that did parse; if " ++
  "the root you expect to find is missing from them, it may be the one that failed to parse. " ++
  "List the store yourself with the platform’s certificate manager to confirm."

def readFinding (store : TrustStoreOutcome) (parsed : StoreAnchors)
    (locallyAddedKeys : List String) : Finding where
  id := "truststore.os.read"
  probe := probeName
  severity := .ok
  title := "Read this machine’s trust store"
  evidence :=
    [⟨"store", store.kind.text, .text⟩, ⟨"store read", store.locator, .path⟩] ++
    (store.readMs.map fun readMs => Evidence.mk "read took (ms)" (toString readMs) .number).toList ++
    [⟨"anchors", toString parsed.anchors.values.length, .number⟩,
      ⟨"locally added", toString (parsed.anchors.values.filter fun anchor =>
        locallyAddedKeys.contains (derKey anchor.der)).length, .number⟩] ++
    (if 0 < parsed.unparsed then
      [⟨"unparsable certificates", toString parsed.unparsed, .number⟩] else [])
  remediation := if 0 < parsed.unparsed then some (unparsedRemediation parsed.unparsed) else none

def abortedFinding (store : TrustStoreOutcome) : Finding where
  id := "truststore.os.aborted"
  probe := probeName
  severity := .unknown
  title := "The run ended before this machine’s trust store was read"
  evidence := [⟨"store", store.kind.text, .text⟩, ⟨"store read", store.locator, .path⟩]
  remediation := some (
    "The run was cancelled before this store was read, so nothing here is a verdict about " ++
    "the store or about this machine - the read simply never happened. Re-run without " ++
    "interrupting it, and with a larger --timeout if the run hit its own budget.")

/-- What one store's read says; nothing for the failure no reader assigns. -/
def storeFinding (ext : Externals) (commands : List TrustStoreCommand)
    (locallyAddedKeys : List String) (store : TrustStoreOutcome) : Option Finding :=
  match store.failure with
  | none => some (readFinding store (anchorsOf ext store.pems) locallyAddedKeys)
  | some .timeout => some (readTimeoutFinding store (ceilingFor store.kind commands))
  | some .aborted => some (abortedFinding store)
  | some failure => (osReadFailures failure).map (unreadableFinding store failure)

def osFindings (ext : Externals) (osStores : List TrustStoreOutcome)
    (commands : List TrustStoreCommand) (locallyAddedKeys : List String) : List Finding :=
  osStores.filterMap (storeFinding ext commands locallyAddedKeys) ++
    if osStores.isEmpty then [unsupportedPlatformFinding] else []

/-- The ids a finding about a platform store can carry. -/
def osFindingIds : List String :=
  ["truststore.os.read", "truststore.os.read-timeout", "truststore.os.aborted",
    "truststore.os.unreadable"]

lemma id_mem_of_storeFinding {ext : Externals} {commands : List TrustStoreCommand}
    {keys : List String} {store : TrustStoreOutcome} {finding : Finding}
    (h : storeFinding ext commands keys store = some finding) : finding.id ∈ osFindingIds := by
  unfold storeFinding at h
  split at h
  · cases h
    simp [osFindingIds, readFinding]
  · cases h
    simp [osFindingIds, readTimeoutFinding]
  · cases h
    simp [osFindingIds, abortedFinding]
  · obtain ⟨row, -, rfl⟩ := Option.map_eq_some_iff.mp h
    simp [osFindingIds, unreadableFinding]

theorem id_mem_of_mem_osFindings {ext : Externals} {osStores : List TrustStoreOutcome}
    {commands : List TrustStoreCommand} {keys : List String} {finding : Finding}
    (h : finding ∈ osFindings ext osStores commands keys) : finding.id ∈ osFindingIds := by
  rcases List.mem_append.mp h with h | h
  · obtain ⟨store, -, hs⟩ := List.mem_filterMap.mp h
    exact id_mem_of_storeFinding hs
  · split_ifs at h
    · rw [List.mem_singleton.mp h]
      decide
    · simp at h

end Portcall.Truststore
