import Portcall.Net.Resolver

/-! One endpoint attempt, phase by phase: its name, a connection, a handshake where the target has
one, and a request where HTTP is spoken. -/
namespace Portcall.Net
open Threads

structure AttemptOptions where
  connectTimeoutMs : ℕ
  tlsTimeoutMs : ℕ
  httpTimeoutMs : ℕ
  deriving DecidableEq, Repr

/-- The one port that means HTTP without a scheme to say so. -/
def httpPort : ℕ := 80

section Programs
variable (ext : NetExternals) (options : AttemptOptions) (target : EndpointTarget)

/-- SNI carries a name, never an address. -/
def servername (host : String) : Option String := if ext.isIp host then none else some host

def getRequest (path : String) : HttpRequest := ⟨"GET", path, [("connection", "close")]⟩

/-- `GET /`, answered with the status alone. -/
def requestStatus (stream signal : ℕ) : Prog NetOp (Settled (Option ℕ)) := do
  let reply ← Prog.call (.request stream (getRequest "/") signal)
  match reply with
  | .done reply => return .done reply.status
  | .threw error => return .threw error

def failedAttempt (phase : AttemptPhase) (error : Thrown) (signal : ℕ) (addresses : List String)
    (timing : AttemptTiming) : Prog NetOp EndpointAttempt := do
  let (code, abortedBy) ← failure error signal
  return .failed { phase, code, abortedBy, addresses, status := none, timing }

/-- Any bare port but that of HTTP is a reachability check only. -/
def speaksHttp : Bool := target.useTls || target.port = httpPort

def httpPhase (stream : ℕ) (addresses : List String) (tlsProtocol : Option String)
    (timing : AttemptTiming) : Prog NetOp EndpointAttempt :=
  if speaksHttp target then do
    let signal ← Prog.call (.phaseSignal options.httpTimeoutMs)
    let settled ← requestStatus stream signal
    let httpMs ← Prog.call .elapsed
    let timing := { timing with httpMs := some httpMs }
    match settled with
    | .threw error => failedAttempt .http error signal addresses timing
    | .done status => return .ok addresses tlsProtocol status timing
  else return .ok addresses tlsProtocol none timing

def tlsPhase (socket : ℕ) (addresses : List String) (timing : AttemptTiming) :
    Prog NetOp EndpointAttempt :=
  if target.useTls then do
    let signal ← Prog.call (.phaseSignal options.tlsTimeoutMs)
    let secure ← Prog.call (.tlsConnect socket (servername ext target.host) true)
    overSocket secure do
      let settled ← Prog.call (.secured secure signal)
      let tlsMs ← Prog.call .elapsed
      let timing := { timing with tlsMs := some tlsMs }
      match settled with
      | .threw error => failedAttempt .tls error signal addresses timing
      | .done _ =>
        let session ← Prog.call (.session secure)
        httpPhase options target secure addresses session.protocol timing
  else httpPhase options target socket addresses none timing

/-- Only the first address is attempted. -/
def connectPhase (address : String) (addresses : List String) (timing : AttemptTiming) :
    Prog NetOp EndpointAttempt := do
  let signal ← Prog.call (.phaseSignal options.connectTimeoutMs)
  let socket ← Prog.call (.netConnect address target.port)
  overSocket socket do
    let settled ← Prog.call (.connected socket signal)
    let connectMs ← Prog.call .elapsed
    let timing := { timing with connectMs := some connectMs }
    match settled with
    | .threw error => failedAttempt .connect error signal addresses timing
    | .done _ => tlsPhase ext options target socket addresses timing

def attempt : NetM EndpointAttempt := do
  assertAllowed target.host target.port
  let resolved ← resolveWithin ext options.connectTimeoutMs target.host
  match resolved with
  | .failed outcome =>
    let abortedBy ← Throws.lift (lookupSource outcome)
    return .failed
      { phase := .dns
        code := outcome.code
        abortedBy
        timing := { dnsMs := some outcome.elapsedMs } }
  | .ok [] elapsedMs =>
    return .failed
      { phase := .dns
        code := some "ENODATA"
        abortedBy := none
        timing := { dnsMs := some elapsedMs } }
  | .ok (address :: rest) elapsedMs =>
    Throws.lift (connectPhase ext options target address (address :: rest)
      { dnsMs := some elapsedMs })

end Programs

section Contract
variable (ext : NetExternals) (target : EndpointTarget)

/-- The phases up to this one have a time, and the others have none. -/
structure TimedTo (phase : AttemptPhase) (timing : AttemptTiming) : Prop where
  dns : timing.dnsMs.isSome = true
  connect : timing.connectMs.isSome = true ↔ phase ≠ .dns
  tls : timing.tlsMs.isSome = true ↔ target.useTls = true ∧ (phase = .tls ∨ phase = .http)
  http : timing.httpMs.isSome = true ↔ phase = .http

/-- What is reported of an endpoint that answered. -/
structure ReachedEndpoint (addresses : List String) (tlsProtocol : Option String)
    (status : Option ℕ) (timing : AttemptTiming) : Prop where
  addresses : addresses ≠ [] ∧ ∀ address ∈ addresses, ext.isIp address = true
  tlsProtocol : tlsProtocol ≠ none → target.useTls = true
  status : ∀ code, status = some code → speaksHttp target = true ∧ 100 ≤ code ∧ code ≤ 599
  timing : TimedTo target (if speaksHttp target then .http else .connect) timing

/-- What is reported of an attempt that failed: the phase it died in, and nothing of a later one. -/
structure DiedIn (attempt : FailedAttempt) (s : NetState) : Prop where
  blames : Blames attempt.code attempt.abortedBy s
  status : attempt.status = none
  addresses : ∀ address ∈ attempt.addresses, ext.isIp address = true
  resolved : attempt.addresses = [] ↔ attempt.phase = .dns
  timing : TimedTo target attempt.phase attempt.timing
  tls : attempt.phase = .tls → target.useTls = true
  http : attempt.phase = .http → speaksHttp target = true

def Attempted (attempt : EndpointAttempt) (s : NetState) : Prop :=
  match attempt with
  | .ok addresses tlsProtocol status timing =>
    ReachedEndpoint ext target addresses tlsProtocol status timing
  | .failed failed => DiedIn ext target failed s

end Contract

section Rules
variable {ext : NetExternals} {options : AttemptOptions} {target : EndpointTarget}
  {admits : NetState → HostPort → Prop} {halted : Prop} {s s' : NetState}
  {addresses : List String} {timing : AttemptTiming}

lemma isMachineCode_of_eq_enodata {found : String} (h : some "ENODATA" = some found) :
    isMachineCode found = true := by
  cases h
  decide

lemma Attempted.mono {attempt : EndpointAttempt} (h : Attempted ext target attempt s)
    (hle : s ≤ s') : Attempted ext target attempt s' := by
  cases attempt with
  | ok addresses tlsProtocol status timing => exact h
  | failed failed => exact { h with blames := h.blames.mono hle }

/-- A name that came to nothing. -/
lemma diedIn_dns {code : Option String} {abortedBy : Option AbortedBy} {elapsedMs : ℕ}
    (h : Blames code abortedBy s) : DiedIn ext target
      { phase := .dns, code, abortedBy, timing := { dnsMs := some elapsedMs } } s where
  blames := h
  status := rfl
  addresses _ hm := absurd hm List.not_mem_nil
  resolved := iff_of_true rfl rfl
  timing := ⟨rfl, by simp, by simp, by simp⟩
  tls h := by cases h
  http h := by cases h

lemma bare_getRequest (path : String) : Bare (getRequest path) := by
  refine ⟨Or.inl rfl, fun header hm => ?_⟩
  rw [List.mem_singleton.mp hm]
  simp

lemma plausible_of_status {reply : TunnelReply} {code : ℕ} (h : reply.status = some code) :
    100 ≤ code ∧ code ≤ 599 := by
  have hfilter := (Option.filter_eq_some_iff.mp h).2
  simpa using hfilter

lemma safe_requestStatus {stream signal : ℕ} (hstream : s.unverified stream = some false) :
    Safe (network ext) (Conduct ext admits halted) (requestStatus stream signal)
      (fun settled _ => ∀ status code, settled = .done status → status = some code →
        100 ≤ code ∧ code ≤ 599) s := by
  refine safe_call_bind fun s₁ h₁ =>
    ⟨⟨bare_getRequest "/", NetState.unverified_mono h₁ hstream⟩, fun settled s₂ _ => ?_⟩
  cases settled with
  | done reply =>
    refine safe_done fun t _ status code hstatus hcode => ?_
    cases hstatus
    exact plausible_of_status hcode
  | threw error => exact safe_done fun t _ status code hstatus => by cases hstatus

lemma safe_failedAttempt {phase : AttemptPhase} {error : Thrown} {signal : ℕ}
    (haddresses : addresses ≠ [] ∧ ∀ address ∈ addresses, ext.isIp address = true)
    (hphase : phase ≠ .dns) (htiming : TimedTo target phase timing)
    (htls : phase = .tls → target.useTls = true)
    (hhttp : phase = .http → speaksHttp target = true) :
    Safe (network ext) (Conduct ext admits halted)
      (failedAttempt phase error signal addresses timing) (Attempted ext target) s := by
  refine Safe.bind network_grows safe_failure fun blame s₁ _ hblame => safe_done fun t ht => ?_
  exact ⟨hblame t ht, rfl, haddresses.2, iff_of_false haddresses.1 hphase, htiming, htls, hhttp⟩

/-- The request, over a connection or a handshake. -/
lemma safe_httpPhase {stream : ℕ} {tlsProtocol : Option String}
    (hstream : s.unverified stream = some false)
    (haddresses : addresses ≠ [] ∧ ∀ address ∈ addresses, ext.isIp address = true)
    (hprotocol : tlsProtocol ≠ none → target.useTls = true)
    (hdns : timing.dnsMs.isSome = true) (hconnect : timing.connectMs.isSome = true)
    (htls : timing.tlsMs.isSome = true ↔ target.useTls = true) (hhttp : timing.httpMs = none) :
    Safe (network ext) (Conduct ext admits halted)
      (httpPhase options target stream addresses tlsProtocol timing) (Attempted ext target) s := by
  rw [httpPhase]
  by_cases hspeaks : speaksHttp target = true
  · rw [if_pos hspeaks]
    refine safe_call_bind fun s₁ h₁ => ⟨trivial, fun signal s₂ hreply => ?_⟩
    have hstream₂ := NetState.unverified_mono (h₁.trans (network_grows.step hreply)) hstream
    refine Safe.bind network_grows (safe_requestStatus hstream₂) fun settled s₃ _ hsettled => ?_
    refine safe_call_bind fun s₄ _ => ⟨trivial, fun httpMs s₅ _ => ?_⟩
    have htimed : TimedTo target .http { timing with httpMs := some httpMs } :=
      ⟨hdns, by simpa using hconnect, by simpa using htls, by simp⟩
    cases settled with
    | threw error =>
      exact safe_failedAttempt haddresses (by decide) htimed (fun h => by cases h)
        fun _ => hspeaks
    | done status =>
      refine safe_done fun t ht => ⟨haddresses, hprotocol, fun code hcode => ?_, ?_⟩
      · exact ⟨hspeaks, hsettled _ le_rfl status code rfl hcode⟩
      · rw [if_pos hspeaks]
        exact htimed
  · rw [if_neg hspeaks]
    have husetls : target.useTls = false := by
      simp only [speaksHttp, Bool.or_eq_true, not_or, Bool.not_eq_true] at hspeaks
      exact hspeaks.1
    rw [husetls] at htls
    refine safe_done fun t _ => ⟨haddresses, hprotocol, (fun code hcode => by cases hcode), ?_⟩
    rw [if_neg hspeaks]
    exact ⟨hdns, by simpa using hconnect, by simpa [husetls] using htls, by simp [hhttp]⟩

lemma safe_tlsPhase {socket : ℕ} (hsocket : s.unverified socket = some false)
    (haddresses : addresses ≠ [] ∧ ∀ address ∈ addresses, ext.isIp address = true)
    (hdns : timing.dnsMs.isSome = true) (hconnect : timing.connectMs.isSome = true)
    (htls : timing.tlsMs = none) (hhttp : timing.httpMs = none) :
    Safe (network ext) (Conduct ext admits halted)
      (tlsPhase ext options target socket addresses timing) (Attempted ext target) s := by
  rw [tlsPhase]
  by_cases husetls : target.useTls = true
  · rw [if_pos husetls]
    refine safe_call_bind fun s₁ _ => ⟨trivial, fun signal s₂ _ => ?_⟩
    refine safe_call_bind fun s₃ _ => ⟨trivial, fun secure s₄ hreply => safe_overSocket ?_⟩
    have hsecure : s₄.unverified secure = some false := by
      obtain ⟨rfl, rfl⟩ := hreply
      exact unverified_opened s₃ { unverified := false }
    refine safe_call_bind fun s₅ h₅ => ⟨trivial, fun settled s₆ hreply => ?_⟩
    have h₆ := h₅.trans (network_grows.step hreply)
    refine safe_call_bind fun s₇ h₇ => ⟨trivial, fun tlsMs s₈ hreply => ?_⟩
    have h₈ := (h₆.trans h₇).trans (network_grows.step hreply)
    cases settled with
    | threw error =>
      refine safe_failedAttempt haddresses (by decide) ?_ (fun _ => husetls) fun h => by cases h
      exact ⟨hdns, by simpa using hconnect, by simpa using husetls, by simp [hhttp]⟩
    | done value =>
      refine safe_call_bind fun s₉ h₉ => ⟨trivial, fun session s₁₀ hreply => ?_⟩
      have h₁₀ := (h₈.trans h₉).trans (network_grows.step hreply)
      exact safe_httpPhase (NetState.unverified_mono h₁₀ hsecure) haddresses (fun _ => husetls) hdns
        hconnect
        (iff_of_true rfl husetls) hhttp
  · rw [if_neg husetls]
    exact safe_httpPhase hsocket haddresses (fun h => absurd rfl h) hdns hconnect
      (iff_of_false (by simp [htls]) husetls) hhttp

/-- The connection is to an address that was answered for the target's host. -/
lemma safe_connectPhase {address : String} {rest : List String} (hhalted : ¬halted)
    (hallowed : s.guard.isAllowed ext.toExternals target.host target.port = true)
    (haddresses : ∀ other ∈ address :: rest, ext.isIp other = true ∧
      (target.host, other) ∈ s.answered)
    (hdns : timing.dnsMs.isSome = true)
    (htls : timing.tlsMs = none) (hhttp : timing.httpMs = none) :
    Safe (network ext) (Conduct ext admits halted)
      (connectPhase ext options target address (address :: rest) timing)
      (Attempted ext target) s := by
  have hips : (address :: rest) ≠ [] ∧ ∀ other ∈ address :: rest, ext.isIp other = true :=
    ⟨List.cons_ne_nil _ _, fun other hm => (haddresses other hm).1⟩
  obtain ⟨hip, hanswered⟩ := haddresses address List.mem_cons_self
  refine safe_call_bind fun s₁ h₁ => ⟨trivial, fun signal s₂ hreply => ?_⟩
  have h₂ := h₁.trans (network_grows.step hreply)
  refine safe_call_bind fun s₃ h₃ => ⟨⟨hhalted, hip, target.host, ?_, ?_⟩, fun socket s₄ hreply =>
    safe_overSocket ?_⟩
  · exact NetState.answered_mono (h₂.trans h₃) hanswered
  · exact NetworkGuard.isAllowed_of_le (h₂.trans h₃).1 hallowed
  · have hsocket : s₄.unverified socket = some false := by
      obtain ⟨rfl, rfl⟩ := hreply
      exact unverified_opened s₃ {}
    refine safe_call_bind fun s₅ h₅ => ⟨trivial, fun settled s₆ hreply => ?_⟩
    have h₆ := h₅.trans (network_grows.step hreply)
    refine safe_call_bind fun s₇ h₇ => ⟨trivial, fun connectMs s₈ hreply => ?_⟩
    have h₈ := (h₆.trans h₇).trans (network_grows.step hreply)
    cases settled with
    | threw error =>
      refine safe_failedAttempt hips (by decide) ?_ (fun h => by cases h) fun h => by cases h
      exact ⟨hdns, by simp, by simp [htls], by simp [hhttp]⟩
    | done value => exact safe_tlsPhase (NetState.unverified_mono h₈ hsocket) hips hdns rfl htls hhttp

/-- Whatever else happens meanwhile, an attempt on an admitted target keeps to what it may do, and
reports the phase it died in. One that begins once the run has stopped gets no further than the name,
and says so. -/
theorem holds_attempt (hhalted : halted → s.stopped = true)
    (hallowed : s.guard.isAllowed ext.toExternals target.host target.port = true) :
    Holds (network ext) (Conduct ext admits halted) (attempt ext options target)
      (fun attempt s' => Attempted ext target attempt s' ∧ (s.stopped = true →
        ∃ failed, attempt = .failed failed ∧ failed.phase = .dns ∧
          failed.abortedBy = some .runSignal)) s := by
  refine (holds_assertAllowed hallowed).bind network_grows fun _ s₁ h₁ _ => ?_
  have hallowed₁ := NetworkGuard.isAllowed_of_le h₁.1 hallowed
  refine (holds_resolveWithin (NetworkGuard.isHostAllowed_of_isAllowed hallowed₁)).bind network_grows
    fun resolved s₂ h₂ hresolved => ?_
  obtain ⟨hlooked, hended⟩ := hresolved s₂ le_rfl
  have hstopped := fun hstop : s.stopped = true => hended (h₁.2.1 hstop)
  match resolved with
  | .failed outcome =>
    refine Holds.bind network_grows (holds_lift network_grows (safe_lookupSource hlooked))
      fun abortedBy s₃ h₃ habortedBy => holds_pure fun t ht => ⟨?_, fun hstop => ?_⟩
    · exact diedIn_dns (habortedBy t ht).1
    · obtain ⟨elapsedMs, houtcome⟩ := hstopped hstop
      cases houtcome
      exact ⟨_, rfl, rfl, (habortedBy t ht).2.2 ((h₁.trans h₂).2.1 hstop) (by simp)⟩
  | .ok [] elapsedMs =>
    refine holds_pure fun t ht =>
      ⟨diedIn_dns (blames_code fun _ => isMachineCode_of_eq_enodata), fun hstop => ?_⟩
    obtain ⟨_, houtcome⟩ := hstopped hstop
    cases houtcome
  | .ok (address :: rest) elapsedMs =>
    have hrunning : ¬s.stopped = true := fun hstop => by
      obtain ⟨_, houtcome⟩ := hstopped hstop
      cases houtcome
    refine Holds.weaken network_grows (holds_lift network_grows (safe_connectPhase
      (fun hhalt => hrunning (hhalted hhalt)) (NetworkGuard.isAllowed_of_le h₂.1 hallowed₁) hlooked
      rfl rfl rfl)) fun attempt t _ hattempt => ⟨hattempt, fun hstop => absurd hstop hrunning⟩

end Rules

section Sockets
variable {ext : NetExternals} {options : AttemptOptions} {target : EndpointTarget}
  {addresses : List String} {timing : AttemptTiming} {held : Set ℕ}

lemma owns_failedAttempt {phase : AttemptPhase} {error : Thrown} {signal : ℕ} :
    Owns socketLedger (failedAttempt phase error signal addresses timing) held
      fun _ left => left = held :=
  owns_failure.bind fun _ _ hleft => hleft

lemma owns_requestStatus {stream signal : ℕ} (h : stream ∈ held) :
    Owns socketLedger (requestStatus stream signal) held fun _ left => left = held := by
  refine owns_idle (fun _ => rfl) rfl (Set.singleton_subset_iff.mpr h) fun reply => ?_
  cases reply <;> exact rfl

lemma owns_httpPhase {stream : ℕ} {tlsProtocol : Option String} (h : stream ∈ held) :
    Owns socketLedger (httpPhase options target stream addresses tlsProtocol timing) held
      fun _ left => left = held := by
  rw [httpPhase]
  split_ifs
  · refine owns_idle (fun _ => rfl) rfl (Set.empty_subset _) fun signal => ?_
    refine (owns_requestStatus h).bind fun settled left hleft => ?_
    subst hleft
    refine owns_idle (fun _ => rfl) rfl (Set.empty_subset _) fun httpMs => ?_
    cases settled with
    | threw error => exact owns_failedAttempt
    | done status => exact rfl
  · exact rfl

lemma owns_tlsPhase {socket : ℕ} (h : socket ∈ held) :
    Owns socketLedger (tlsPhase ext options target socket addresses timing) held
      fun _ left => left = held := by
  rw [tlsPhase]
  split_ifs
  · refine owns_idle (fun _ => rfl) rfl (Set.empty_subset _) fun signal => ?_
    refine owns_opening (fun _ => rfl) rfl (Set.singleton_subset_iff.mpr h) fun secure hsecure => ?_
    refine owns_overSocket hsecure ?_
    refine owns_idle (fun _ => rfl) rfl
      (Set.singleton_subset_iff.mpr (Set.mem_insert _ _)) fun settled => ?_
    refine owns_idle (fun _ => rfl) rfl (Set.empty_subset _) fun tlsMs => ?_
    cases settled with
    | threw error => exact owns_failedAttempt
    | done value =>
      refine owns_idle (fun _ => rfl) rfl
        (Set.singleton_subset_iff.mpr (Set.mem_insert _ _)) fun session => ?_
      exact owns_httpPhase (Set.mem_insert _ _)
  · exact owns_httpPhase h

/-- Every socket an attempt opens is closed by it. -/
theorem closes_attempt : Closes socketLedger (attempt ext options target) := by
  refine closes_assertAllowed.bind fun _ => ?_
  refine closes_resolveWithin.bind fun resolved => ?_
  match resolved with
  | .failed outcome =>
    exact Closes.bind (closes_lift owns_lookupSource) fun abortedBy => closes_pure _
  | .ok [] elapsedMs => exact closes_pure _
  | .ok (address :: rest) elapsedMs =>
    refine closes_lift ?_
    refine owns_idle (fun _ => rfl) rfl (Set.empty_subset _) fun signal => ?_
    refine owns_opening (fun _ => rfl) rfl (Set.empty_subset _) fun socket hsocket => ?_
    refine owns_overSocket hsocket ?_
    refine owns_idle (fun _ => rfl) rfl
      (Set.singleton_subset_iff.mpr (Set.mem_insert _ _)) fun settled => ?_
    refine owns_idle (fun _ => rfl) rfl (Set.empty_subset _) fun connectMs => ?_
    cases settled with
    | threw error => exact owns_failedAttempt
    | done value => exact owns_tlsPhase (Set.mem_insert _ _)

end Sockets
end Portcall.Net
