import Portcall.Seams

/-! One CONNECT attempt: what its three phases end in, and the attempt that is reported of them. -/
namespace Portcall.Net

/-- How a phase that was awaited ended: with its value, with an error that gave this machine code
if any, or because its signal fired first. -/
inductive PhaseEnd (α : Type) where
  | done (value : α)
  | error (code : Option String)
  | aborted (source : AbortedBy)
  deriving DecidableEq, Repr

/-- What the parser made of a reply to the request: a status code, if it read one, and the
challenge header. -/
structure TunnelReply where
  statusCode : Option ℕ
  proxyAuthenticate : Option String
  deriving DecidableEq, Repr

/-- The status of a reply, when it is one. -/
def TunnelReply.status (reply : TunnelReply) : Option ℕ :=
  reply.statusCode.filter fun status => 100 ≤ status && status ≤ 599

/-- The challenge, which a reply that opens the tunnel does not make. -/
def TunnelReply.challenge (reply : TunnelReply) : Option String :=
  if reply.status.any (· ≠ 200) then reply.proxyAuthenticate else none

/-- What one attempt meets: the lookup of the proxy, the connection to it, and the round trip. -/
structure ConnectRun where
  resolved : DnsOutcome
  /-- Whose clock it was, had the lookup been aborted. -/
  abortSource : AbortedBy
  connected : PhaseEnd Unit
  connectMs : ℕ
  tunnel : PhaseEnd TunnelReply
  httpMs : ℕ
  deriving DecidableEq, Repr

/-- An attempt that an error or a signal ended. -/
def failedConnect (phase : ConnectPhase) (code : Option String) (abortedBy : Option AbortedBy)
    (timing : AttemptTiming) : ProxyConnectDetail :=
  ⟨.failed { phase, code, status := none, abortedBy, timing }, none⟩

def connectDetailed (run : ConnectRun) : ProxyConnectDetail :=
  match run.resolved with
  | .failed outcome =>
    failedConnect (.attempt .dns) outcome.code (outcome.abortedBy.map fun _ => run.abortSource)
      { dnsMs := some outcome.elapsedMs }
  | .ok [] elapsedMs =>
    failedConnect (.attempt .dns) (some "ENODATA") none { dnsMs := some elapsedMs }
  | .ok (_ :: _) elapsedMs =>
    let timing : AttemptTiming := { dnsMs := some elapsedMs, connectMs := some run.connectMs }
    match run.connected with
    | .error code => failedConnect (.attempt .connect) code none timing
    | .aborted source => failedConnect (.attempt .connect) none (some source) timing
    | .done _ =>
      let timing := { timing with httpMs := some run.httpMs }
      match run.tunnel with
      | .error code => failedConnect .tunnel code none timing
      | .aborted source => failedConnect .tunnel none (some source) timing
      | .done reply =>
        if reply.status = some 200 then ⟨.ok 200 timing, none⟩
        else
          { attempt := .failed
              { phase := .tunnel
                code := reply.status.map fun status => "HTTP_" ++ toString status
                status := reply.status
                abortedBy := none
                timing }
            proxyAuthenticate := reply.challenge }

/-- The proxy was asked for the tunnel and gave no status in answer. -/
def Unanswered (attempt : FailedConnect) : Prop := attempt.phase = .tunnel ∧ attempt.status = none

instance (attempt : FailedConnect) : Decidable (Unanswered attempt) :=
  inferInstanceAs (Decidable (_ ∧ _))

/-- A failed attempt ended before the request, or in it without a reply, or with the reply's own
status. -/
theorem connectDetailed_failed {run : ConnectRun} {attempt : FailedConnect}
    (h : (connectDetailed run).attempt = .failed attempt) :
    (attempt.phase ≠ .tunnel ∧ attempt.status = none) ∨
    ((∀ reply, run.tunnel ≠ .done reply) ∧ attempt.phase = .tunnel ∧ attempt.status = none) ∨
    ∃ reply, run.tunnel = .done reply ∧ attempt.phase = .tunnel ∧ attempt.status = reply.status ∧
      attempt.abortedBy = none ∧
      attempt.code = reply.status.map fun status => "HTTP_" ++ toString status := by
  unfold connectDetailed failedConnect at h
  split at h
  · cases h
    simp
  · cases h
    simp
  · dsimp only at h
    split at h
    · cases h
      simp
    · cases h
      simp
    · split at h
      · rename_i hend
        cases h
        simp [hend]
      · rename_i hend
        cases h
        simp [hend]
      · rename_i reply hend
        split_ifs at h
        cases h
        exact Or.inr (Or.inr ⟨reply, hend, rfl, rfl, rfl, rfl⟩)

/-- A status is the proxy's own answer: no error, no signal and no other phase comes with one. -/
theorem answered_of_connectDetailed {run : ConnectRun} {attempt : FailedConnect} {status : ℕ}
    (h : (connectDetailed run).attempt = .failed attempt) (hstatus : attempt.status = some status) :
    attempt.phase = .tunnel ∧ attempt.abortedBy = none ∧
      attempt.code = some ("HTTP_" ++ toString status) := by
  rcases connectDetailed_failed h with ⟨-, hnone⟩ | ⟨-, -, hnone⟩ | ⟨reply, -, hp, hs, ha, hc⟩
  · rw [hnone] at hstatus
    cases hstatus
  · rw [hnone] at hstatus
    cases hstatus
  · rw [← hs, hstatus] at hc
    exact ⟨hp, ha, hc⟩

/-- The proxy was asked and gave no status exactly when the round trip ended without one. -/
theorem unanswered_iff_of_connectDetailed {run : ConnectRun} {attempt : FailedConnect}
    (h : (connectDetailed run).attempt = .failed attempt) (htunnel : attempt.phase = .tunnel) :
    Unanswered attempt ↔ ∀ reply, run.tunnel = .done reply → reply.status = none := by
  rw [Unanswered, and_iff_right htunnel]
  rcases connectDetailed_failed h with ⟨hp, -⟩ | ⟨hend, -, hnone⟩ | ⟨reply, hend, -, hs, -⟩
  · exact absurd htunnel hp
  · exact iff_of_true hnone fun reply hr => absurd hr (hend reply)
  · rw [hs, hend]
    simp

end Portcall.Net
