import Portcall.Net.Endpoint

/-! CONNECT through a proxy: the probe's attempt, which closes its socket on every status, and the
tunnel that is handed to a caller, which closes it on every other. -/
namespace Portcall.Net
open Threads

/-- The phases a tunnel can die in. -/
inductive TunnelPhase where
  | dns
  | connect
  | tunnel
  deriving DecidableEq, Repr

structure FailedTunnel where
  phase : TunnelPhase
  code : Option String
  status : Option ℕ
  abortedBy : Option AbortedBy
  deriving DecidableEq, Repr

/-- A socket the caller now owns, or the phase the attempt died in. -/
inductive TunnelOutcome where
  | ok (socket : ℕ)
  | failed (outcome : FailedTunnel)
  deriving DecidableEq, Repr

section Programs
variable (ext : NetExternals) (proxy target : HostPort)

/-- The only two headers are those CONNECT requires and the one that ends the connection. -/
def connectRequest : HttpRequest :=
  let authority := target.host ++ ":" ++ toString target.port
  ⟨"CONNECT", authority, [("host", authority), ("connection", "close")]⟩

def failedOver (phase : ConnectPhase) (error : Thrown) (signal : ℕ) (timing : AttemptTiming) :
    Prog NetOp ProxyConnectDetail := do
  let (code, abortedBy) ← failure error signal
  return failedConnect phase code abortedBy timing

/-- What a reply to the request says: a tunnel on 200 alone. -/
def answeredOver (reply : TunnelReply) (timing : AttemptTiming) : ProxyConnectDetail :=
  if reply.status = some 200 then ⟨.ok 200 timing, none⟩
  else
    { attempt := .failed
        { phase := .tunnel
          code := reply.status.map fun status => "HTTP_" ++ toString status
          status := reply.status
          abortedBy := none
          timing }
      proxyAuthenticate := reply.challenge }

def tunnelPhase (options : AttemptOptions) (socket : ℕ) (timing : AttemptTiming) :
    Prog NetOp ProxyConnectDetail := do
  let signal ← Prog.call (.phaseSignal options.httpTimeoutMs)
  let settled ← Prog.call (.request socket (connectRequest target) signal)
  let httpMs ← Prog.call .elapsed
  let timing := { timing with httpMs := some httpMs }
  match settled with
  | .threw error => failedOver .tunnel error signal timing
  | .done reply => return answeredOver reply timing

def dialProxy (options : AttemptOptions) (address : String) (timing : AttemptTiming) :
    Prog NetOp ProxyConnectDetail := do
  let signal ← Prog.call (.phaseSignal options.connectTimeoutMs)
  let socket ← Prog.call (.netConnect address proxy.port)
  overSocket socket do
    let settled ← Prog.call (.connected socket signal)
    let connectMs ← Prog.call .elapsed
    let timing := { timing with connectMs := some connectMs }
    match settled with
    | .threw error => failedOver (.attempt .connect) error signal timing
    | .done _ => tunnelPhase target options socket timing

/-- `connectDetailed`, over the network. -/
def connectProxy (options : AttemptOptions) : NetM ProxyConnectDetail := do
  Throws.call (.permit proxy.host proxy.port "proxy CONNECT probe")
  let resolved ← resolveWithin ext options.connectTimeoutMs proxy.host
  match resolved with
  | .failed outcome =>
    let abortedBy ← Throws.lift (lookupSource outcome)
    return failedConnect (.attempt .dns) outcome.code abortedBy { dnsMs := some outcome.elapsedMs }
  | .ok [] elapsedMs =>
    return failedConnect (.attempt .dns) (some "ENODATA") none { dnsMs := some elapsedMs }
  | .ok (address :: _) elapsedMs =>
    Throws.lift (dialProxy proxy target options address { dnsMs := some elapsedMs })

def failedTunnel (phase : TunnelPhase) (error : Thrown) (signal : ℕ) : Prog NetOp TunnelOutcome := do
  let (code, abortedBy) ← failure error signal
  return .failed { phase, code, status := none, abortedBy }

/-- The one path that does not close its socket is the one that gave it away. -/
def unlessHandedOver (socket : ℕ) (body : Prog NetOp TunnelOutcome) : Prog NetOp TunnelOutcome := do
  let outcome ← body
  match outcome with
  | .ok given => return .ok given
  | .failed failed =>
    Prog.call (.destroy socket)
    return .failed failed

def requestTunnel (connectTimeoutMs socket : ℕ) : Prog NetOp TunnelOutcome := do
  let signal ← Prog.call (.phaseSignal connectTimeoutMs)
  let settled ← Prog.call (.request socket (connectRequest target) signal)
  match settled with
  | .threw error => failedTunnel .tunnel error signal
  | .done reply =>
    if reply.status = some 200 then return .ok socket
    else
      return .failed
        { phase := .tunnel
          code := reply.status.map fun status => "HTTP_" ++ toString status
          status := reply.status
          abortedBy := none }

def dialTunnel (connectTimeoutMs : ℕ) (address : String) : Prog NetOp TunnelOutcome := do
  let signal ← Prog.call (.phaseSignal connectTimeoutMs)
  let socket ← Prog.call (.netConnect address proxy.port)
  unlessHandedOver socket do
    let settled ← Prog.call (.connected socket signal)
    match settled with
    | .threw error => failedTunnel .connect error signal
    | .done _ => requestTunnel target connectTimeoutMs socket

def openTunnel (connectTimeoutMs : ℕ) : NetM TunnelOutcome := do
  Throws.call (.permit proxy.host proxy.port "proxy CONNECT tunnel")
  let resolved ← resolveWithin ext connectTimeoutMs proxy.host
  match resolved with
  | .failed outcome =>
    let abortedBy ← Throws.lift (lookupSource outcome)
    return .failed { phase := .dns, code := outcome.code, status := none, abortedBy }
  | .ok [] _ =>
    return .failed { phase := .dns, code := some "ENODATA", status := none, abortedBy := none }
  | .ok (address :: _) _ => Throws.lift (dialTunnel proxy target connectTimeoutMs address)

end Programs

section Codes

lemma length_toString_le {n : ℕ} (h : n < 1000) : (toString n).toList.length ≤ 3 := by
  rw [Nat.toString_eq_repr, Nat.toList_repr]
  exact Nat.length_toDigits_le_iff (by decide) (by decide) |>.mpr h

/-- The code of a status is a machine code. -/
lemma isMachineCode_http {status : ℕ} (h : status ≤ 599) :
    isMachineCode ("HTTP_" ++ toString status) = true := by
  have hlength := length_toString_le (Nat.lt_of_le_of_lt h (by decide))
  have hdigits : ∀ c ∈ (toString status).toList, isMachineCodeChar c = true := fun c hc => by
    simp [isMachineCodeChar, Text.isDigit_of_mem_toString hc]
  have htext : ("HTTP_" ++ toString status).toList =
      'H' :: ('T' :: 'T' :: 'P' :: '_' :: (toString status).toList) := by
    rw [String.toList_append]
    rfl
  rw [isMachineCode, htext]
  simp only [List.all_cons, List.length_cons, Bool.and_eq_true, decide_eq_true_eq]
  refine ⟨⟨⟨by decide, by decide, by decide, by decide, by decide, ?_⟩, ?_⟩, ?_⟩
  · exact List.all_eq_true.mpr hdigits
  · omega
  · omega

lemma isMachineCode_of_status {reply : TunnelReply} {found : String}
    (h : (reply.status.map fun status => "HTTP_" ++ toString status) = some found) :
    isMachineCode found = true := by
  obtain ⟨status, hstatus, rfl⟩ := Option.map_eq_some_iff.mp h
  exact isMachineCode_http (plausible_of_status hstatus).2

end Codes

section Contract

/-- What an awaited phase may have ended in. -/
def Ended {α : Type} (ending : PhaseEnd α) (s : NetState) : Prop :=
  match ending with
  | .done _ => True
  | .error code => Blames code none s
  | .aborted source => Blames none (some source) s

/-- What an attempt on a proxy may have met. -/
structure MetProxy (ext : NetExternals) (proxy : HostPort) (run : ConnectRun) (s : NetState) :
    Prop where
  resolved : Looked ext proxy.host run.resolved s
  abortSource : run.abortSource = .runSignal → s.stopped = true
  connected : Ended run.connected s
  tunnel : Ended run.tunnel s

/-- What an attempt on a proxy may come back with: what is reported of some such run. -/
def Connected (ext : NetExternals) (proxy : HostPort) (detail : ProxyConnectDetail) (s : NetState) :
    Prop := ∃ run, detail = connectDetailed run ∧ MetProxy ext proxy run s

def Tunnelled (outcome : TunnelOutcome) (s : NetState) : Prop :=
  match outcome with
  | .ok _ => True
  | .failed failed => Blames failed.code failed.abortedBy s

end Contract

section Rules
variable {ext : NetExternals} {options : AttemptOptions} {proxy target : HostPort}
  {admits : NetState → HostPort → Prop} {halted : Prop} {s s' : NetState}
  {timing : AttemptTiming} {connectTimeoutMs : ℕ}

lemma Ended.mono {α : Type} {ending : PhaseEnd α} (h : Ended ending s) (hle : s ≤ s') :
    Ended ending s' := by
  cases ending with
  | done value => trivial
  | error code => exact Blames.mono h hle
  | aborted source => exact Blames.mono h hle

lemma Connected.mono {detail : ProxyConnectDetail} (h : Connected ext proxy detail s)
    (hle : s ≤ s') : Connected ext proxy detail s' := by
  obtain ⟨run, hrun, hmet⟩ := h
  exact ⟨run, hrun, hmet.resolved.mono hle, fun hsource => hle.2.1 (hmet.abortSource hsource),
    hmet.connected.mono hle, hmet.tunnel.mono hle⟩

lemma Tunnelled.mono {outcome : TunnelOutcome} (h : Tunnelled outcome s) (hle : s ≤ s') :
    Tunnelled outcome s' := by
  cases outcome with
  | ok socket => trivial
  | failed failed => exact Blames.mono h hle

/-- How a phase ended, as its failure tells it. -/
def endOf (blame : Option String × Option AbortedBy) : PhaseEnd TunnelReply :=
  match blame.2 with
  | none => .error blame.1
  | some source => .aborted source

lemma ended_endOf {blame : Option String × Option AbortedBy} (h : Blames blame.1 blame.2 s) :
    Ended (endOf blame) s := by
  obtain ⟨code, abortedBy⟩ := blame
  cases abortedBy with
  | none => exact h
  | some source =>
    obtain rfl : code = none := h.exclusive (by simp)
    exact h

/-- What the run that is reported met, one phase at a time. -/
def metRun (resolved : DnsOutcome) (connected : PhaseEnd Unit) (connectMs : ℕ)
    (tunnel : PhaseEnd TunnelReply) (httpMs : ℕ) : ConnectRun :=
  ⟨resolved, .phaseTimeout, connected, connectMs, tunnel, httpMs⟩

lemma bare_connectRequest (target : HostPort) : Bare (connectRequest target) := by
  refine ⟨Or.inr rfl, fun header hm => ?_⟩
  rcases List.mem_cons.mp hm with rfl | hm
  · simp
  · rw [List.mem_singleton.mp hm]
    simp

lemma safe_tunnelPhase {socket connectMs elapsedMs : ℕ} {address : String} {rest : List String}
    (hsocket : s.unverified socket = some false)
    (hlooked : Looked ext proxy.host (.ok (address :: rest) elapsedMs) s) :
    Safe (network ext) (Conduct ext admits halted)
      (tunnelPhase target options socket
        { dnsMs := some elapsedMs, connectMs := some connectMs })
      (Connected ext proxy) s := by
  refine safe_call_bind fun s₁ h₁ => ⟨trivial, fun signal s₂ hreply => ?_⟩
  have h₂ := h₁.trans (network_grows.step hreply)
  refine safe_call_bind fun s₃ h₃ =>
    ⟨⟨bare_connectRequest target, NetState.unverified_mono (h₂.trans h₃) hsocket⟩,
      fun settled s₄ hreply => ?_⟩
  have h₄ := (h₂.trans h₃).trans (network_grows.step hreply)
  refine safe_call_bind fun s₅ h₅ => ⟨trivial, fun httpMs s₆ hreply => ?_⟩
  have h₆ := (h₄.trans h₅).trans (network_grows.step hreply)
  cases settled with
  | threw error =>
    refine Safe.bind network_grows safe_failure fun blame s₇ h₇ hblame => safe_done fun t ht => ?_
    refine ⟨metRun (.ok (address :: rest) elapsedMs) (.done ()) connectMs (endOf blame) httpMs, ?_,
      hlooked.mono ((h₆.trans h₇).trans ht), (fun h => by cases h), trivial,
      ended_endOf (hblame t ht)⟩
    obtain ⟨code, abortedBy⟩ := blame
    cases abortedBy with
    | none => rfl
    | some source =>
      obtain rfl : code = none := (hblame t ht).exclusive (by simp)
      rfl
  | done reply =>
    refine safe_done fun t ht => ⟨metRun (.ok (address :: rest) elapsedMs) (.done ()) connectMs
      (.done reply) httpMs, rfl, hlooked.mono (h₆.trans ht), (fun h => by cases h), trivial,
      trivial⟩

lemma safe_dialProxy {elapsedMs : ℕ} {address : String} {rest : List String} (hhalted : ¬halted)
    (hallowed : s.guard.isAllowed ext.toExternals proxy.host proxy.port = true)
    (hlooked : Looked ext proxy.host (.ok (address :: rest) elapsedMs) s) :
    Safe (network ext) (Conduct ext admits halted)
      (dialProxy proxy target options address { dnsMs := some elapsedMs })
      (Connected ext proxy) s := by
  obtain ⟨hip, hanswered⟩ := hlooked address List.mem_cons_self
  refine safe_call_bind fun s₁ h₁ => ⟨trivial, fun signal s₂ hreply => ?_⟩
  have h₂ := h₁.trans (network_grows.step hreply)
  refine safe_call_bind fun s₃ h₃ => ⟨⟨hhalted, hip, proxy.host, ?_, ?_⟩, fun socket s₄ hreply =>
    safe_overSocket ?_⟩
  · exact NetState.answered_mono (h₂.trans h₃) hanswered
  · exact NetworkGuard.isAllowed_of_le (h₂.trans h₃).1 hallowed
  · have h₄ := (h₂.trans h₃).trans (network_grows.step hreply)
    have hsocket : s₄.unverified socket = some false := by
      obtain ⟨rfl, rfl⟩ := hreply
      exact unverified_opened s₃ {}
    refine safe_call_bind fun s₅ h₅ => ⟨trivial, fun settled s₆ hreply => ?_⟩
    have h₆ := h₅.trans (network_grows.step hreply)
    refine safe_call_bind fun s₇ h₇ => ⟨trivial, fun connectMs s₈ hreply => ?_⟩
    have h₈ := (h₆.trans h₇).trans (network_grows.step hreply)
    cases settled with
    | threw error =>
      refine Safe.bind network_grows safe_failure fun blame s₉ h₉ hblame =>
        safe_done fun t ht => ?_
      have hlooked' := hlooked.mono (h₄.trans ((h₈.trans h₉).trans ht))
      obtain ⟨code, abortedBy⟩ := blame
      have hby := hblame t ht
      cases abortedBy with
      | none =>
        exact ⟨metRun _ (.error code) connectMs (.error none) 0, rfl, hlooked',
          (fun h => by cases h), hby, blames_code fun _ h => by cases h⟩
      | some source =>
        obtain rfl : code = none := hby.exclusive (by simp)
        exact ⟨metRun _ (.aborted source) connectMs (.error none) 0, rfl, hlooked',
          (fun h => by cases h), hby, blames_code fun _ h => by cases h⟩
    | done value =>
      exact safe_tunnelPhase (NetState.unverified_mono h₈ hsocket) (hlooked.mono (h₄.trans h₈))

/-- An attempt on a proxy admits it first, and reports what its phases met. One that begins once the
run has stopped gets no further than the proxy's name. -/
theorem holds_connectProxy (hhalted : halted → s.stopped = true)
    (hadmits : ∀ s', s ≤ s' → admits s' proxy) :
    Holds (network ext) (Conduct ext admits halted) (connectProxy ext proxy target options)
      (fun detail s' => Connected ext proxy detail s' ∧ (s.stopped = true →
        ∃ failed, detail.attempt = .failed failed ∧ failed.phase = .attempt .dns ∧
          failed.abortedBy = some .runSignal)) s := by
  refine holds_call_bind fun s₁ h₁ => ⟨hadmits s₁ h₁, fun _ s₂ hreply => ?_⟩
  have h₂ := h₁.trans (network_grows.step hreply)
  obtain rfl : s₂ = _ := hreply
  have hallowed := @NetworkGuard.isAllowed_permit_self ext.toExternals s₁.guard proxy.host
    proxy.port "proxy CONNECT probe"
  refine (holds_resolveWithin (NetworkGuard.isHostAllowed_of_isAllowed hallowed)).bind network_grows
    fun resolved s₃ h₃ hresolved => ?_
  obtain ⟨hlooked, hended⟩ := hresolved s₃ le_rfl
  have hstopped := fun hstop : s.stopped = true => hended (h₂.2.1 hstop)
  match resolved with
  | .failed outcome =>
    refine Holds.bind network_grows (holds_lift network_grows (safe_lookupSource hlooked))
      fun abortedBy s₄ h₄ habortedBy => holds_pure fun t ht => ⟨?_, fun hstop => ?_⟩
    · obtain ⟨hby, ⟨source, rfl⟩, -⟩ := habortedBy t ht
      have hlooked' := Looked.mono hlooked (h₄.trans ht)
      cases habort : outcome.abortedBy with
      | none =>
        refine ⟨metRun (.failed outcome) (.done ()) 0 (.error none) 0, ?_, hlooked',
          (fun h => by cases h), trivial, blames_code fun _ h => by cases h⟩
        simp [metRun, connectDetailed, habort]
      | some clock =>
        refine ⟨⟨.failed outcome, source, .done (), 0, .error none, 0⟩, ?_, hlooked', fun h => ?_,
          trivial, blames_code fun _ h => by cases h⟩
        · simp [connectDetailed, habort]
        · exact hby.honest (by rw [habort]; exact congrArg some h)
    · obtain ⟨elapsedMs, houtcome⟩ := hstopped hstop
      cases houtcome
      exact ⟨_, rfl, rfl, (habortedBy t ht).2.2 ((h₂.trans h₃).2.1 hstop) (by simp)⟩
  | .ok [] elapsedMs =>
    refine holds_pure fun t ht => ⟨⟨metRun (.ok [] elapsedMs) (.done ()) 0 (.error none) 0, rfl,
      hlooked.mono ht, (fun h => by cases h), trivial, blames_code fun _ h => by cases h⟩,
      fun hstop => ?_⟩
    obtain ⟨_, houtcome⟩ := hstopped hstop
    cases houtcome
  | .ok (address :: rest) elapsedMs =>
    have hrunning : ¬s.stopped = true := fun hstop => by
      obtain ⟨_, houtcome⟩ := hstopped hstop
      cases houtcome
    refine Holds.weaken network_grows (holds_lift network_grows (safe_dialProxy
      (fun hhalt => hrunning (hhalted hhalt)) (NetworkGuard.isAllowed_of_le h₃.1 hallowed)
      hlooked)) fun detail t _ hdetail => ⟨hdetail, fun hstop => absurd hstop hrunning⟩

lemma safe_failedTunnel {phase : TunnelPhase} {error : Thrown} {signal : ℕ} :
    Safe (network ext) (Conduct ext admits halted) (failedTunnel phase error signal)
      Tunnelled s :=
  Safe.bind network_grows safe_failure fun _ _ _ hblame => safe_done fun t ht => hblame t ht

lemma safe_unlessHandedOver {socket : ℕ} {body : Prog NetOp TunnelOutcome}
    (h : Safe (network ext) (Conduct ext admits halted) body Tunnelled s) :
    Safe (network ext) (Conduct ext admits halted) (unlessHandedOver socket body) Tunnelled s := by
  refine Safe.bind network_grows h fun outcome s₁ _ houtcome => ?_
  cases outcome with
  | ok given => exact safe_done fun _ _ => trivial
  | failed failed =>
    refine safe_call_bind fun s₂ h₂ => ⟨trivial, fun _ s₃ hreply => safe_done fun t ht => ?_⟩
    exact houtcome t (h₂.trans ((network_grows.step hreply).trans ht))

lemma safe_requestTunnel {socket : ℕ} (hsocket : s.unverified socket = some false) :
    Safe (network ext) (Conduct ext admits halted) (requestTunnel target connectTimeoutMs socket)
      Tunnelled s := by
  refine safe_call_bind fun s₁ h₁ => ⟨trivial, fun signal s₂ hreply => ?_⟩
  have h₂ := h₁.trans (network_grows.step hreply)
  refine safe_call_bind fun s₃ h₃ =>
    ⟨⟨bare_connectRequest target, NetState.unverified_mono (h₂.trans h₃) hsocket⟩,
      fun settled s₄ _ => ?_⟩
  cases settled with
  | threw error => exact safe_failedTunnel
  | done reply =>
    change Safe _ _ (if reply.status = some 200 then _ else _) _ s₄
    split_ifs
    · exact safe_done fun _ _ => trivial
    · exact safe_done fun _ _ => blames_code fun _ => isMachineCode_of_status

lemma safe_dialTunnel {elapsedMs : ℕ} {address : String} {rest : List String} (hhalted : ¬halted)
    (hallowed : s.guard.isAllowed ext.toExternals proxy.host proxy.port = true)
    (hlooked : Looked ext proxy.host (.ok (address :: rest) elapsedMs) s) :
    Safe (network ext) (Conduct ext admits halted)
      (dialTunnel proxy target connectTimeoutMs address) Tunnelled s := by
  obtain ⟨hip, hanswered⟩ := hlooked address List.mem_cons_self
  refine safe_call_bind fun s₁ h₁ => ⟨trivial, fun signal s₂ hreply => ?_⟩
  have h₂ := h₁.trans (network_grows.step hreply)
  refine safe_call_bind fun s₃ h₃ => ⟨⟨hhalted, hip, proxy.host, ?_, ?_⟩, fun socket s₄ hreply =>
    safe_unlessHandedOver ?_⟩
  · exact NetState.answered_mono (h₂.trans h₃) hanswered
  · exact NetworkGuard.isAllowed_of_le (h₂.trans h₃).1 hallowed
  · have hsocket : s₄.unverified socket = some false := by
      obtain ⟨rfl, rfl⟩ := hreply
      exact unverified_opened s₃ {}
    refine safe_call_bind fun s₅ h₅ => ⟨trivial, fun settled s₆ hreply => ?_⟩
    have h₆ := h₅.trans (network_grows.step hreply)
    cases settled with
    | threw error => exact safe_failedTunnel
    | done value => exact safe_requestTunnel (NetState.unverified_mono h₆ hsocket)

/-- So does a tunnel. -/
theorem holds_openTunnel (hhalted : halted → s.stopped = true)
    (hadmits : ∀ s', s ≤ s' → admits s' proxy) :
    Holds (network ext) (Conduct ext admits halted) (openTunnel ext proxy target connectTimeoutMs)
      (fun outcome s' => Tunnelled outcome s' ∧ (s.stopped = true →
        ∃ failed, outcome = .failed failed ∧ failed.phase = .dns ∧
          failed.abortedBy = some .runSignal)) s := by
  refine holds_call_bind fun s₁ h₁ => ⟨hadmits s₁ h₁, fun _ s₂ hreply => ?_⟩
  have h₂ := h₁.trans (network_grows.step hreply)
  obtain rfl : s₂ = _ := hreply
  have hallowed := @NetworkGuard.isAllowed_permit_self ext.toExternals s₁.guard proxy.host
    proxy.port "proxy CONNECT tunnel"
  refine (holds_resolveWithin (NetworkGuard.isHostAllowed_of_isAllowed hallowed)).bind network_grows
    fun resolved s₃ h₃ hresolved => ?_
  obtain ⟨hlooked, hended⟩ := hresolved s₃ le_rfl
  have hstopped := fun hstop : s.stopped = true => hended (h₂.2.1 hstop)
  match resolved with
  | .failed outcome =>
    refine Holds.bind network_grows (holds_lift network_grows (safe_lookupSource hlooked))
      fun abortedBy s₄ _ habortedBy => holds_pure fun t ht => ⟨(habortedBy t ht).1, fun hstop => ?_⟩
    obtain ⟨elapsedMs, houtcome⟩ := hstopped hstop
    cases houtcome
    exact ⟨_, rfl, rfl, (habortedBy t ht).2.2 ((h₂.trans h₃).2.1 hstop) (by simp)⟩
  | .ok [] elapsedMs =>
    refine holds_pure fun t _ =>
      ⟨blames_code fun _ => isMachineCode_of_eq_enodata, fun hstop => ?_⟩
    obtain ⟨_, houtcome⟩ := hstopped hstop
    cases houtcome
  | .ok (address :: rest) elapsedMs =>
    have hrunning : ¬s.stopped = true := fun hstop => by
      obtain ⟨_, houtcome⟩ := hstopped hstop
      cases houtcome
    refine Holds.weaken network_grows (holds_lift network_grows (safe_dialTunnel
      (fun hhalt => hrunning (hhalted hhalt)) (NetworkGuard.isAllowed_of_le h₃.1 hallowed)
      hlooked)) fun outcome t _ houtcome => ⟨houtcome, fun hstop => absurd hstop hrunning⟩

/-- What is reported of an attempt on a proxy blames what a phase of it did. -/
lemma blames_of_connected {detail : ProxyConnectDetail} {failed : FailedConnect}
    (h : Connected ext proxy detail s) (hfailed : detail.attempt = .failed failed) :
    Blames failed.code failed.abortedBy s := by
  obtain ⟨run, rfl, hresolved, hsource, hconnected, htunnel⟩ := h
  unfold connectDetailed failedConnect at hfailed
  split at hfailed
  · rename_i outcome houtcome
    cases hfailed
    rw [houtcome] at hresolved
    have hby : Blames outcome.code outcome.abortedBy s := hresolved
    refine ⟨hby.machine, fun hne => hby.exclusive fun hnone => hne (by simp [hnone]), fun hrun => ?_⟩
    obtain ⟨_, -, hclock⟩ := Option.map_eq_some_iff.mp hrun
    exact hsource hclock
  · cases hfailed
    exact blames_code fun _ => isMachineCode_of_eq_enodata
  · dsimp only at hfailed
    split at hfailed
    · rename_i code hend
      cases hfailed
      rwa [hend] at hconnected
    · rename_i source hend
      cases hfailed
      rwa [hend] at hconnected
    · split at hfailed
      · rename_i code hend
        cases hfailed
        rwa [hend] at htunnel
      · rename_i source hend
        cases hfailed
        rwa [hend] at htunnel
      · split_ifs at hfailed
        cases hfailed
        exact blames_code fun _ => isMachineCode_of_status

end Rules

section Sockets
variable {ext : NetExternals} {options : AttemptOptions} {proxy target : HostPort}
  {timing : AttemptTiming} {connectTimeoutMs : ℕ} {held : Set ℕ}

lemma owns_tunnelPhase {socket : ℕ} (h : socket ∈ held) :
    Owns socketLedger (tunnelPhase target options socket timing) held
      fun _ left => left = held := by
  refine owns_idle (fun _ => rfl) rfl (Set.empty_subset _) fun signal => ?_
  refine owns_idle (fun _ => rfl) rfl (Set.singleton_subset_iff.mpr h) fun settled => ?_
  refine owns_idle (fun _ => rfl) rfl (Set.empty_subset _) fun httpMs => ?_
  cases settled with
  | threw error => exact owns_failure.bind fun _ _ hleft => hleft
  | done reply => exact rfl

/-- An attempt on a proxy closes its socket whatever the proxy answers. -/
theorem closes_connectProxy : Closes socketLedger (connectProxy ext proxy target options) := by
  refine closes_idle (fun _ => rfl) rfl (Set.empty_subset _) fun _ => ?_
  refine closes_resolveWithin.bind fun resolved => ?_
  match resolved with
  | .failed outcome =>
    exact Closes.bind (closes_lift owns_lookupSource) fun abortedBy => closes_pure _
  | .ok [] elapsedMs => exact closes_pure _
  | .ok (address :: rest) elapsedMs =>
    refine closes_lift ?_
    refine owns_idle (fun _ => rfl) rfl (Set.empty_subset _) fun signal => ?_
    refine owns_opening (fun _ => rfl) rfl (Set.empty_subset _) fun socket hsocket => ?_
    refine owns_overSocket hsocket ?_
    refine owns_idle (fun _ => rfl) rfl
      (Set.singleton_subset_iff.mpr (Set.mem_insert _ _)) fun settled => ?_
    refine owns_idle (fun _ => rfl) rfl (Set.empty_subset _) fun connectMs => ?_
    cases settled with
    | threw error => exact owns_failure.bind fun _ _ hleft => hleft
    | done value => exact owns_tunnelPhase (Set.mem_insert _ _)

/-- What is left open is the socket that is handed over. -/
def HandedOver (outcome : TunnelOutcome) (left : Set ℕ) : Prop :=
  match outcome with
  | .ok socket => left = {socket}
  | .failed _ => left = ∅

lemma owns_unlessHandedOver {socket : ℕ} {body : Prog NetOp TunnelOutcome}
    (h : Owns socketLedger body {socket} fun outcome left =>
      left = {socket} ∧ ∀ given, outcome = .ok given → given = socket) :
    Owns socketLedger (unlessHandedOver socket body) {socket} HandedOver := by
  refine h.bind fun outcome left hleft => ?_
  obtain ⟨rfl, hgiven⟩ := hleft
  cases outcome with
  | ok given =>
    obtain rfl := hgiven given rfl
    exact rfl
  | failed failed =>
    refine ⟨subset_rfl, fun reply _ => ?_⟩
    ext other
    simp [Ledger.after, socketLedger, eq_comm]

lemma owns_failedTunnel {phase : TunnelPhase} {error : Thrown} {signal socket : ℕ} :
    Owns socketLedger (failedTunnel phase error signal) {socket} fun outcome left =>
      left = {socket} ∧ ∀ given, outcome = .ok given → given = socket :=
  owns_failure.bind fun _ _ hleft => ⟨hleft, fun given hgiven => by cases hgiven⟩

lemma owns_requestTunnel {socket : ℕ} :
    Owns socketLedger (requestTunnel target connectTimeoutMs socket) {socket} fun outcome left =>
      left = {socket} ∧ ∀ given, outcome = .ok given → given = socket := by
  refine owns_idle (fun _ => rfl) rfl (Set.empty_subset _) fun signal => ?_
  refine owns_idle (fun _ => rfl) rfl subset_rfl fun settled => ?_
  cases settled with
  | threw error => exact owns_failedTunnel
  | done reply =>
    change Owns _ (if reply.status = some 200 then _ else _) _ _
    split_ifs
    · exact ⟨rfl, fun given hgiven => by cases hgiven; rfl⟩
    · exact ⟨rfl, fun given hgiven => by cases hgiven⟩

lemma owns_dialTunnel {address : String} :
    Owns socketLedger (dialTunnel proxy target connectTimeoutMs address) ∅ HandedOver := by
  refine owns_idle (fun _ => rfl) rfl (Set.empty_subset _) fun signal => ?_
  refine owns_opening (fun _ => rfl) rfl (Set.empty_subset _) fun socket _ => ?_
  rw [insert_empty_eq]
  refine owns_unlessHandedOver ?_
  refine owns_idle (fun _ => rfl) rfl subset_rfl fun settled => ?_
  cases settled with
  | threw error => exact owns_failedTunnel
  | done value => exact owns_requestTunnel

/-- A tunnel that failed leaves no socket, and one that opened leaves the one it hands over. -/
theorem owns_openTunnel :
    Owns socketLedger (openTunnel ext proxy target connectTimeoutMs).run ∅ fun result left =>
      match result with
      | .ok outcome => HandedOver outcome left
      | .error _ => left = ∅ := by
  refine owns_run_idle (fun _ => rfl) rfl (Set.empty_subset _) fun _ => ?_
  refine Owns.bind closes_resolveWithin fun result left hleft => ?_
  subst hleft
  match result with
  | .error error => exact rfl
  | .ok (.failed outcome) =>
    refine Owns.bind (closes_lift owns_lookupSource) fun result left hleft => ?_
    cases result <;> exact hleft
  | .ok (.ok [] elapsedMs) => exact rfl
  | .ok (.ok (address :: rest) elapsedMs) =>
    exact Owns.bind owns_dialTunnel fun outcome left hleft => hleft

end Sockets
end Portcall.Net
