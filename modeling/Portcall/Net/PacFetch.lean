import Portcall.Net.Tunnel

/-! Fetching a PAC script, phase by phase. It is the one place where a body is read, and the host it
is fetched from is admitted by the fetch itself. -/
namespace Portcall.Net
open Threads

def httpsPort : ℕ := 443

/-- The budget of each phase of a fetch. -/
def fetchTimeoutMs : ℕ := 5000

/-- Where a script is fetched from. -/
structure PacSource where
  host : String
  port : ℕ
  path : String
  useTls : Bool
  deriving DecidableEq, Repr

def PacSource.endpoint (source : PacSource) : HostPort := ⟨source.host, source.port⟩

section Programs
variable (ext : NetExternals)

/-- A script is fetched over HTTP, with TLS or without. -/
def pacSource (url : String) : Option PacSource :=
  ((ext.parseUrl url).filter fun parsed =>
    parsed.protocol = "http:" || parsed.protocol = "https:").map fun parsed =>
      { host := parsed.hostname
        port :=
          if parsed.port ≠ "" then Text.decimal parsed.port.toList
          else if parsed.protocol = "https:" then httpsPort
          else httpPort
        path := ext.urlPath url
        useTls := parsed.protocol = "https:" }

def failedFetch (phase : AttemptPhase) (error : Thrown) (signal : ℕ) : Prog NetOp PacFetchOutcome := do
  let (code, abortedBy) ← failure error signal
  let elapsedMs ← Prog.call .elapsed
  return .failed { phase, code, abortedBy, elapsedMs }

/-- The code of an answer that is no script. -/
def statusCodeText (status : Option ℕ) : String :=
  "HTTP_" ++ match status with
    | some status => toString status
    | none => "UNKNOWN"

variable (source : PacSource) (maxBytes : ℕ)

def readScript (stream : ℕ) : Prog NetOp PacFetchOutcome := do
  let signal ← Prog.call (.phaseSignal fetchTimeoutMs)
  let settled ← Prog.call (.fetchBody stream (getRequest source.path) maxBytes signal)
  match settled with
  | .threw error => failedFetch .http error signal
  | .done response =>
    let elapsedMs ← Prog.call .elapsed
    if response.status = some 200 then return .ok response.body elapsedMs
    else
      return .failed
        { phase := .http
          code := some (statusCodeText response.status)
          abortedBy := none
          elapsedMs }

def secureScript (socket : ℕ) : Prog NetOp PacFetchOutcome :=
  if source.useTls then do
    let signal ← Prog.call (.phaseSignal fetchTimeoutMs)
    let secure ← Prog.call (.tlsConnect socket (servername ext source.host) true)
    overSocket secure do
      let settled ← Prog.call (.secured secure signal)
      match settled with
      | .threw error => failedFetch .tls error signal
      | .done _ => readScript source maxBytes secure
  else readScript source maxBytes socket

def dialSource (address : String) : Prog NetOp PacFetchOutcome := do
  let signal ← Prog.call (.phaseSignal fetchTimeoutMs)
  let socket ← Prog.call (.netConnect address source.port)
  overSocket socket do
    let settled ← Prog.call (.connected socket signal)
    match settled with
    | .threw error => failedFetch .connect error signal
    | .done _ => secureScript ext source maxBytes socket

def fetchFrom : NetM PacFetchOutcome := do
  Throws.call (.permit source.host source.port "PAC script fetch")
  let resolved ← resolveWithin ext fetchTimeoutMs source.host
  match resolved with
  | .failed outcome =>
    let abortedBy ← Throws.lift (lookupSource outcome)
    let elapsedMs ← Throws.call .elapsed
    return .failed { phase := .dns, code := outcome.code, abortedBy, elapsedMs }
  | .ok [] _ =>
    let elapsedMs ← Throws.call .elapsed
    return .failed { phase := .dns, code := some "ENODATA", abortedBy := none, elapsedMs }
  | .ok (address :: _) _ => Throws.lift (dialSource ext source maxBytes address)

/-- `pacFetcher.fetch`: a URL no script is fetched from never reaches the network. -/
def fetch (url : String) (maxBytes : ℕ) : NetM PacFetchOutcome :=
  match pacSource ext url with
  | none => do
    let elapsedMs ← Throws.call .elapsed
    return .failed { phase := .dns, code := some "INVALID_PAC_URL", abortedBy := none, elapsedMs }
  | some source => fetchFrom ext source maxBytes

end Programs

/-- What a fetch may come back with: all the bytes of a body within the cap, from where the URL
points, or the phase it died in. -/
def Delivered (ext : NetExternals) (url : String) (maxBytes : ℕ) (outcome : PacFetchOutcome)
    (s : NetState) : Prop :=
  match outcome with
  | .ok script _ => pacSource ext url ≠ none ∧
    ∃ bytes, script = ext.utf8 bytes ∧ bytes.length ≤ maxBytes
  | .failed failed => Blames failed.code failed.abortedBy s ∧
    (failed.phase ≠ .dns → ∃ source, pacSource ext url = some source ∧
      (failed.phase = .tls → source.useTls = true))

section Rules
variable {ext : NetExternals} {url : String} {source : PacSource} {maxBytes : ℕ}
  {admits : NetState → HostPort → Prop} {halted : Prop} {s s' : NetState}

lemma Delivered.mono {outcome : PacFetchOutcome} (h : Delivered ext url maxBytes outcome s)
    (hle : s ≤ s') : Delivered ext url maxBytes outcome s' := by
  cases outcome with
  | ok script elapsedMs => exact h
  | failed failed => exact ⟨Blames.mono h.1 hle, h.2⟩

lemma length_bodyOf_le {aborted : Bool} {events : List BodyEvent} {fetched : Fetched}
    (h : fetchBody ext.utf8 maxBytes aborted events = some (.done fetched)) :
    (∃ bytes, fetched.body = ext.utf8 bytes ∧ bytes.length ≤ maxBytes) ∧
      ∀ status, fetched.status = some status → status ≤ 599 := by
  obtain ⟨-, before, _, statusCode, -, hbefore, -, rfl⟩ := fetchBody_done_iff.mp h
  refine ⟨⟨_, rfl, hbefore.within⟩, fun status hstatus => ?_⟩
  have hfilter := (Option.filter_eq_some_iff.mp hstatus).2
  rw [Bool.and_eq_true, decide_eq_true_eq, decide_eq_true_eq] at hfilter
  exact hfilter.2

lemma isMachineCode_statusCodeText {status : Option ℕ} (h : ∀ code, status = some code → code ≤ 599) :
    isMachineCode (statusCodeText status) = true := by
  cases status with
  | none => decide
  | some status => exact isMachineCode_http (h status rfl)

section Phases
variable (hsource : pacSource ext url = some source)
include hsource

lemma safe_failedFetch {phase : AttemptPhase} {error : Thrown} {signal : ℕ}
    (htls : phase = .tls → source.useTls = true) :
    Safe (network ext) (Conduct ext admits halted) (failedFetch phase error signal)
      (Delivered ext url maxBytes) s := by
  refine Safe.bind network_grows safe_failure fun blame s₁ _ hblame => ?_
  refine safe_call_bind fun s₂ h₂ => ⟨trivial, fun elapsedMs s₃ hreply => safe_done fun t ht => ?_⟩
  have h₃ := h₂.trans (network_grows.step hreply)
  exact ⟨hblame t (h₃.trans ht), fun _ => ⟨source, hsource, htls⟩⟩

lemma safe_readScript {stream : ℕ} (hstream : s.unverified stream = some false) :
    Safe (network ext) (Conduct ext admits halted) (readScript source maxBytes stream)
      (Delivered ext url maxBytes) s := by
  refine safe_call_bind fun s₁ h₁ => ⟨trivial, fun signal s₂ hreply => ?_⟩
  have h₂ := h₁.trans (network_grows.step hreply)
  refine safe_call_bind fun s₃ h₃ =>
    ⟨⟨bare_getRequest _, NetState.unverified_mono (h₂.trans h₃) hstream⟩, fun settled s₄ hreply => ?_⟩
  obtain ⟨-, events, hevents⟩ := hreply
  cases settled with
  | threw error => exact safe_failedFetch hsource fun h => by cases h
  | done response =>
    obtain ⟨hbody, hstatus⟩ := length_bodyOf_le hevents
    refine safe_call_bind fun s₅ _ => ⟨trivial, fun elapsedMs s₆ _ => ?_⟩
    split_ifs
    · exact safe_done fun _ _ => ⟨by rw [hsource]; exact Option.some_ne_none source, hbody⟩
    · refine safe_done fun _ _ => ⟨blames_code fun found hfound => ?_, fun _ =>
        ⟨source, hsource, fun h => by cases h⟩⟩
      cases hfound
      exact isMachineCode_statusCodeText hstatus

lemma safe_secureScript {socket : ℕ} (hsocket : s.unverified socket = some false) :
    Safe (network ext) (Conduct ext admits halted) (secureScript ext source maxBytes socket)
      (Delivered ext url maxBytes) s := by
  rw [secureScript]
  split_ifs with husetls
  · refine safe_call_bind fun s₁ _ => ⟨trivial, fun signal s₂ _ => ?_⟩
    refine safe_call_bind fun s₃ _ => ⟨trivial, fun secure s₄ hreply => safe_overSocket ?_⟩
    have hsecure : s₄.unverified secure = some false := by
      obtain ⟨rfl, rfl⟩ := hreply
      exact unverified_opened s₃ { unverified := false }
    refine safe_call_bind fun s₅ h₅ => ⟨trivial, fun settled s₆ hreply => ?_⟩
    have h₆ := h₅.trans (network_grows.step hreply)
    cases settled with
    | threw error => exact safe_failedFetch hsource fun _ => husetls
    | done value => exact safe_readScript hsource (NetState.unverified_mono h₆ hsecure)
  · exact safe_readScript hsource hsocket

lemma safe_dialSource {elapsedMs : ℕ} {address : String} {rest : List String} (hhalted : ¬halted)
    (hallowed : s.guard.isAllowed ext.toExternals source.host source.port = true)
    (hlooked : Looked ext source.host (.ok (address :: rest) elapsedMs) s) :
    Safe (network ext) (Conduct ext admits halted) (dialSource ext source maxBytes address)
      (Delivered ext url maxBytes) s := by
  obtain ⟨hip, hanswered⟩ := hlooked address List.mem_cons_self
  refine safe_call_bind fun s₁ h₁ => ⟨trivial, fun signal s₂ hreply => ?_⟩
  have h₂ := h₁.trans (network_grows.step hreply)
  refine safe_call_bind fun s₃ h₃ => ⟨⟨hhalted, hip, source.host, ?_, ?_⟩, fun socket s₄ hreply =>
    safe_overSocket ?_⟩
  · exact NetState.answered_mono (h₂.trans h₃) hanswered
  · exact NetworkGuard.isAllowed_of_le (h₂.trans h₃).1 hallowed
  · have hsocket : s₄.unverified socket = some false := by
      obtain ⟨rfl, rfl⟩ := hreply
      exact unverified_opened s₃ {}
    refine safe_call_bind fun s₅ h₅ => ⟨trivial, fun settled s₆ hreply => ?_⟩
    have h₆ := h₅.trans (network_grows.step hreply)
    cases settled with
    | threw error => exact safe_failedFetch hsource fun h => by cases h
    | done value => exact safe_secureScript hsource (NetState.unverified_mono h₆ hsocket)

lemma holds_fetchFrom (hhalted : halted → s.stopped = true)
    (hadmits : ∀ s', s ≤ s' → admits s' source.endpoint) :
    Holds (network ext) (Conduct ext admits halted) (fetchFrom ext source maxBytes)
      (fun outcome s' => Delivered ext url maxBytes outcome s' ∧ (s.stopped = true →
        ∃ failed, outcome = .failed failed ∧ failed.phase = .dns ∧
          failed.abortedBy = some .runSignal)) s := by
  refine holds_call_bind fun s₁ h₁ => ⟨hadmits s₁ h₁, fun _ s₂ hreply => ?_⟩
  have h₂ := h₁.trans (network_grows.step hreply)
  obtain rfl : s₂ = _ := hreply
  have hallowed := @NetworkGuard.isAllowed_permit_self ext.toExternals s₁.guard source.host
    source.port "PAC script fetch"
  refine (holds_resolveWithin (NetworkGuard.isHostAllowed_of_isAllowed hallowed)).bind network_grows
    fun resolved s₃ h₃ hresolved => ?_
  obtain ⟨hlooked, hended⟩ := hresolved s₃ le_rfl
  have hstopped := fun hstop : s.stopped = true => hended (h₂.2.1 hstop)
  match resolved with
  | .failed outcome =>
    refine Holds.bind network_grows (holds_lift network_grows (safe_lookupSource hlooked))
      fun abortedBy s₄ _ habortedBy => ?_
    refine holds_call_bind fun s₅ h₅ => ⟨trivial, fun elapsedMs s₆ hreply =>
      holds_pure fun t ht => ?_⟩
    have hby := habortedBy t ((h₅.trans (network_grows.step hreply)).trans ht)
    refine ⟨⟨hby.1, fun hne => absurd rfl hne⟩, fun hstop => ?_⟩
    obtain ⟨_, houtcome⟩ := hstopped hstop
    cases houtcome
    exact ⟨_, rfl, rfl, hby.2.2 ((h₂.trans h₃).2.1 hstop) (by simp)⟩
  | .ok [] _ =>
    refine holds_call_bind fun s₄ _ => ⟨trivial, fun elapsedMs s₅ _ => holds_pure fun t _ =>
      ⟨⟨blames_code fun _ => isMachineCode_of_eq_enodata, fun hne => absurd rfl hne⟩,
        fun hstop => ?_⟩⟩
    obtain ⟨_, houtcome⟩ := hstopped hstop
    cases houtcome
  | .ok (address :: rest) elapsedMs =>
    have hrunning : ¬s.stopped = true := fun hstop => by
      obtain ⟨_, houtcome⟩ := hstopped hstop
      cases houtcome
    refine Holds.weaken network_grows (holds_lift network_grows (safe_dialSource hsource
      (fun hhalt => hrunning (hhalted hhalt)) (NetworkGuard.isAllowed_of_le h₃.1 hallowed)
      hlooked)) fun outcome t _ houtcome => ⟨houtcome, fun hstop => absurd hstop hrunning⟩

end Phases

/-- A fetch admits only where its URL points. One that begins once the run has stopped gets no
further than the name. -/
theorem holds_fetch (hhalted : halted → s.stopped = true)
    (hadmits : ∀ source, pacSource ext url = some source → ∀ s', s ≤ s' →
      admits s' source.endpoint) :
    Holds (network ext) (Conduct ext admits halted) (fetch ext url maxBytes)
      (fun outcome s' => Delivered ext url maxBytes outcome s' ∧ (s.stopped = true →
        ∃ failed, outcome = .failed failed ∧ failed.phase = .dns ∧
          (pacSource ext url ≠ none → failed.abortedBy = some .runSignal))) s := by
  unfold fetch
  cases hsource : pacSource ext url with
  | none =>
    refine holds_call_bind fun s₁ _ => ⟨trivial, fun elapsedMs s₂ _ => holds_pure fun t _ => ?_⟩
    refine ⟨⟨blames_code fun found hfound => ?_, fun hne => absurd rfl hne⟩, fun _ =>
      ⟨_, rfl, rfl, fun hne => absurd rfl hne⟩⟩
    cases hfound
    decide
  | some source =>
    refine Holds.weaken network_grows (holds_fetchFrom hsource hhalted (hadmits source hsource))
      fun outcome t _ houtcome => ⟨houtcome.1, fun hstop => ?_⟩
    obtain ⟨failed, rfl, hphase, hby⟩ := houtcome.2 hstop
    exact ⟨failed, rfl, hphase, fun _ => hby⟩

end Rules

section Sockets
variable {ext : NetExternals} {source : PacSource} {maxBytes : ℕ} {held : Set ℕ}

lemma owns_failedFetch {phase : AttemptPhase} {error : Thrown} {signal : ℕ} :
    Owns socketLedger (failedFetch phase error signal) held fun _ left => left = held := by
  refine owns_failure.bind fun blame left hleft => ?_
  subst hleft
  exact owns_idle (fun _ => rfl) rfl (Set.empty_subset _) fun elapsedMs => rfl

lemma owns_readScript {stream : ℕ} (h : stream ∈ held) :
    Owns socketLedger (readScript source maxBytes stream) held fun _ left => left = held := by
  refine owns_idle (fun _ => rfl) rfl (Set.empty_subset _) fun signal => ?_
  refine owns_idle (fun _ => rfl) rfl (Set.singleton_subset_iff.mpr h) fun settled => ?_
  cases settled with
  | threw error => exact owns_failedFetch
  | done response =>
    refine owns_idle (fun _ => rfl) rfl (Set.empty_subset _) fun elapsedMs => ?_
    split_ifs <;> exact rfl

lemma owns_secureScript {socket : ℕ} (h : socket ∈ held) :
    Owns socketLedger (secureScript ext source maxBytes socket) held fun _ left => left = held := by
  rw [secureScript]
  split_ifs
  · refine owns_idle (fun _ => rfl) rfl (Set.empty_subset _) fun signal => ?_
    refine owns_opening (fun _ => rfl) rfl (Set.singleton_subset_iff.mpr h) fun secure hsecure => ?_
    refine owns_overSocket hsecure ?_
    refine owns_idle (fun _ => rfl) rfl
      (Set.singleton_subset_iff.mpr (Set.mem_insert _ _)) fun settled => ?_
    cases settled with
    | threw error => exact owns_failedFetch
    | done value => exact owns_readScript (Set.mem_insert _ _)
  · exact owns_readScript h

lemma owns_dialSource {address : String} :
    Owns socketLedger (dialSource ext source maxBytes address) ∅ fun _ left => left = ∅ := by
  refine owns_idle (fun _ => rfl) rfl (Set.empty_subset _) fun signal => ?_
  refine owns_opening (fun _ => rfl) rfl (Set.empty_subset _) fun socket hsocket => ?_
  refine owns_overSocket hsocket ?_
  refine owns_idle (fun _ => rfl) rfl
    (Set.singleton_subset_iff.mpr (Set.mem_insert _ _)) fun settled => ?_
  cases settled with
  | threw error => exact owns_failedFetch
  | done value => exact owns_secureScript (Set.mem_insert _ _)

/-- A fetch closes its sockets, however it ends. -/
theorem closes_fetch {url : String} : Closes socketLedger (fetch ext url maxBytes) := by
  unfold fetch
  cases pacSource ext url with
  | none => exact closes_idle (fun _ => rfl) rfl (Set.empty_subset _) fun elapsedMs => closes_pure _
  | some source =>
    refine closes_idle (fun _ => rfl) rfl (Set.empty_subset _) fun _ => ?_
    refine closes_resolveWithin.bind fun resolved => ?_
    match resolved with
    | .failed outcome =>
      refine Closes.bind (closes_lift owns_lookupSource) fun abortedBy => ?_
      exact closes_idle (fun _ => rfl) rfl (Set.empty_subset _) fun elapsedMs => closes_pure _
    | .ok [] elapsedMs =>
      exact closes_idle (fun _ => rfl) rfl (Set.empty_subset _) fun elapsedMs => closes_pure _
    | .ok (address :: rest) elapsedMs => exact closes_lift owns_dialSource

end Sockets
end Portcall.Net
