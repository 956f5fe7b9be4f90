import Portcall.Net.ProxyConnect
import Portcall.Proxy.Clusters
import Portcall.Shared.RootIndex

/-! Whether a class that says the proxy answered is ever given to one that did not: the table of the
tunnel phase looks at the status alone, so silence and a hang-up are read as a refusal. -/
namespace Portcall.Proxy
open Net (Unanswered)
variable {ext : Externals}

/-- The classes that say the proxy answered the request itself. -/
def SaysAnswered (verdict : ProxyConnectClass) : Prop := verdict = .rejected ∨ verdict = .authRequired

/-- What the class of a failed attempt should be: one that says the proxy answered only where it
did, and where it did not, what ended the wait. -/
structure Truthful (attempt : FailedConnect) : Prop where
  answered : SaysAnswered (classifyConnect (.failed attempt)) → attempt.status.isSome
  timeout : Unanswered attempt → attempt.abortedBy = some .phaseTimeout →
    classifyConnect (.failed attempt) = .timeout
  reset : Unanswered attempt → attempt.abortedBy = none →
    attempt.code.any (· ∈ Egress.resetCodes) → classifyConnect (.failed attempt) = .reset
  unnamed : Unanswered attempt → attempt.abortedBy = none → attempt.code = none →
    classifyConnect (.failed attempt) = .unclassified

/-- The finding that says the proxy answered the request itself is about one that did. -/
def TruthfulFinding (ext : Externals) (route : ProxyRoute) (detail : ProxyConnectDetail) : Prop :=
  ∀ finding ∈ probeRoutes ext (fun _ _ => detail) [route],
    finding.id = "proxy.connect-rejected" →
      ∃ attempt, detail.attempt = .failed attempt ∧ attempt.status.isSome

lemma classifyConnect_of_tunnel {attempt : FailedConnect} (h : attempt.phase = .tunnel) :
    classifyConnect (.failed attempt) =
      if attempt.status = some 407 then .authRequired else .rejected := by
  rw [classifyConnect, h]

/-- Only the tunnel phase says that the proxy answered. -/
lemma tunnel_of_saysAnswered {attempt : FailedConnect}
    (h : SaysAnswered (classifyConnect (.failed attempt))) : attempt.phase = .tunnel := by
  cases hphase : attempt.phase with
  | tunnel => rfl
  | attempt phase =>
    obtain ⟨_, code, status, abortedBy, timing⟩ := attempt
    cases hphase
    unfold SaysAnswered classifyConnect at h
    dsimp only at h
    split at h <;> simp at h

lemma saysAnswered_of_tunnel {attempt : FailedConnect} (h : attempt.phase = .tunnel) :
    SaysAnswered (classifyConnect (.failed attempt)) := by
  rw [classifyConnect_of_tunnel h]
  split_ifs
  · exact Or.inr rfl
  · exact Or.inl rfl

lemma verdict_probeRoute (connect : ProxyConnect) (route : ProxyRoute) :
    (probeRoute connect route).verdict =
      if (connect route.proxy route.target).attempt.endedByRun then .aborted
      else .measured (classifyConnect (connect route.proxy route.target).attempt) := by
  unfold probeRoute
  dsimp only
  split_ifs <;> rfl

lemma probeRoutes_singleton (connect : ProxyConnect) (route : ProxyRoute) :
    ∃ members : ProxyCluster, members.verdict = (probeRoute connect route).verdict ∧
      probeRoutes ext connect [route] = [connectVerdictFinding members] :=
  ⟨_, rfl, rfl⟩

/-- The finding is made of the class it is named for, and of no other. -/
lemma verdict_of_connectRejected {members : ProxyCluster}
    (h : (connectVerdictFinding members).id = "proxy.connect-rejected") :
    members.verdict = .measured .rejected := by
  unfold connectVerdictFinding at h
  split at h <;> first | assumption | exact absurd h (by simp)

lemma truthfulFinding_of_answered {route : ProxyRoute} {attempt : FailedConnect}
    {challenge : Option String} (h : Truthful attempt) :
    TruthfulFinding ext route ⟨.failed attempt, challenge⟩ := by
  intro finding hm hid
  obtain ⟨members, hverdict, hfindings⟩ :=
    @probeRoutes_singleton ext (fun _ _ => ⟨.failed attempt, challenge⟩) route
  rw [hfindings, List.mem_singleton] at hm
  rw [hm] at hid
  rw [verdict_of_connectRejected hid, verdict_probeRoute] at hverdict
  split_ifs at hverdict
  injection hverdict with hclass
  exact ⟨attempt, rfl, h.answered (Or.inl hclass.symm)⟩

/-- The class of a failed attempt is what it should be exactly where a proxy asked for a tunnel
answered. -/
theorem classifyConnect_truthful_iff (ext : Externals) (route : ProxyRoute)
    (attempt : FailedConnect) (challenge : Option String) :
    (Truthful attempt ∧ TruthfulFinding ext route ⟨.failed attempt, challenge⟩) ↔
      ¬Unanswered attempt := by
  constructor
  · rintro ⟨h, -⟩ ⟨hphase, hstatus⟩
    have hsome := h.answered (saysAnswered_of_tunnel hphase)
    rw [hstatus] at hsome
    cases hsome
  · intro h
    have htruthful : Truthful attempt := by
      refine ⟨fun hsays => ?_, fun hun => absurd hun h, fun hun => absurd hun h,
        fun hun => absurd hun h⟩
      have hphase := tunnel_of_saysAnswered hsays
      exact Option.isSome_iff_ne_none.mpr fun hnone => h ⟨hphase, hnone⟩
    exact ⟨htruthful, truthfulFinding_of_answered htruthful⟩

/-- A proxy that accepted the connection and never spoke. -/
def silentRun : Net.ConnectRun where
  resolved := .ok ["192.0.2.1"] 3
  abortSource := .phaseTimeout
  connected := .done ()
  connectMs := 5
  tunnel := .aborted .phaseTimeout
  httpMs := 10000

/-- It is reported to have answered the request itself. -/
theorem silent_proxy_rejected :
    ∃ attempt, (Net.connectDetailed silentRun).attempt = .failed attempt ∧
      attempt.abortedBy = some .phaseTimeout ∧ attempt.status = none ∧
      classifyConnect (.failed attempt) = .rejected ∧
      (probeRoutes fixtureExternals (fun _ _ => Net.connectDetailed silentRun)
        [⟨⟨"proxy.corp", 3128⟩, ⟨"api.example.com", 443⟩, true⟩]).map Finding.id =
          ["proxy.connect-rejected"] ∧
      ¬(Truthful attempt ∧ TruthfulFinding fixtureExternals
        ⟨⟨"proxy.corp", 3128⟩, ⟨"api.example.com", 443⟩, true⟩
        (Net.connectDetailed silentRun)) := by
  refine ⟨_, rfl, rfl, rfl, rfl, rfl, fun h => ?_⟩
  have hsome := h.1.answered (Or.inl rfl)
  cases hsome

end Portcall.Proxy
