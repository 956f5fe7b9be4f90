import Portcall.Run.Concurrent
import Portcall.Run.Signal

/-! What the network may have answered one run: for every question of every seam an answer that
keeps to what that seam promises. -/
namespace Portcall.Concurrent
open Threads Net

/-- One answer of every seam to every question. -/
structure Answers where
  dnsResolver : DnsResolver
  dohProber : EndpointProber
  egressProber : EndpointProber
  pacResolver : DnsResolver
  pacFetcher : PacFetcher
  connect : ProxyConnect
  engine : Proxy.PacEngine
  clock : Endpoint → ℤ
  capturer : Tls.TlsCapture
  now : ℤ

/-- The run that these answers make, without anything happening side by side. -/
def Answers.run {ext : Externals} (answers : Answers) (loaded : LoadedProfile ext)
    (machine : Machine) : Run ext where
  loaded
  env := machine.env
  dnsResolver := answers.dnsResolver
  dohProber := answers.dohProber
  egressProber := answers.egressProber
  pacResolver := answers.pacResolver
  pacFetcher := answers.pacFetcher
  connect := answers.connect
  engine := answers.engine
  myAddress := machine.myAddress
  clock := answers.clock
  capturer := answers.capturer
  publicRootPems := machine.publicRootPems
  now := answers.now

section Promises
variable (ext : NetExternals) (stopped : Bool) (s : NetState)

def MetLookup (host : String) (outcome : DnsOutcome) : Prop :=
  Looked ext host outcome s ∧ (stopped = true → outcome.endedByRun = true)

def MetAttempt (target : EndpointTarget) (attempt : EndpointAttempt) : Prop :=
  Attempted ext target attempt s ∧ (stopped = true → attempt.endedByRun = true)

/-- A URL that nothing is fetched from is refused before any clock matters. -/
def MetFetch (url : String) (outcome : PacFetchOutcome) : Prop :=
  Delivered ext url Proxy.maxScriptBytes outcome s ∧
    (stopped = true → pacSource ext url ≠ none → outcome.endedByRun = true)

def MetConnect (proxy : HostPort) (detail : ProxyConnectDetail) : Prop :=
  Connected ext proxy detail s ∧ (stopped = true → detail.attempt.endedByRun = true)

def MetCapture (target : HostPort) (viaProxy : Option HostPort) (outcome : TlsChainOutcome) : Prop :=
  Net.Captured ext target viaProxy outcome s ∧ (stopped = true → outcome.endedByRun = true)

/-- Every answer keeps to the promises of its seam; all of a run that was stopped before they were
asked for are ended by the run. -/
structure Answers.Met (answers : Answers) : Prop where
  dns : ∀ host, MetLookup ext stopped s host (answers.dnsResolver host)
  doh : ∀ target, MetAttempt ext stopped s target (answers.dohProber target)
  egress : ∀ target, MetAttempt ext stopped s target (answers.egressProber target)
  pacDns : ∀ host, MetLookup ext stopped s host (answers.pacResolver host)
  fetch : ∀ url, MetFetch ext stopped s url (answers.pacFetcher url)
  connect : ∀ proxy target, MetConnect ext stopped s proxy (answers.connect proxy target)
  capture : ∀ target viaProxy,
    MetCapture ext stopped s target viaProxy (answers.capturer target viaProxy)

/-- Whose clock ends what is never asked for. -/
def silence : Option AbortedBy := if stopped then some .runSignal else none

/-- Answers to questions that are never asked. -/
def silent : Answers where
  dnsResolver _ := .failed ⟨none, silence stopped, 0⟩
  dohProber _ := .failed { phase := .dns, code := none, abortedBy := silence stopped
                           timing := { dnsMs := some 0 } }
  egressProber _ := .failed { phase := .dns, code := none, abortedBy := silence stopped
                              timing := { dnsMs := some 0 } }
  pacResolver _ := .failed ⟨none, silence stopped, 0⟩
  pacFetcher _ := .failed ⟨.dns, none, silence stopped, 0⟩
  connect _ _ := failedConnect (.attempt .dns) none (silence stopped) { dnsMs := some 0 }
  engine _ := none
  clock _ := 0
  capturer _ _ := .failed ⟨.dns, none, silence stopped⟩
  now := 0

variable {ext stopped s} {s' : NetState}

lemma Answers.Met.mono {answers : Answers} (h : answers.Met ext stopped s) (hle : s ≤ s') :
    answers.Met ext stopped s' where
  dns host := ⟨(h.dns host).1.mono hle, (h.dns host).2⟩
  doh target := ⟨(h.doh target).1.mono hle, (h.doh target).2⟩
  egress target := ⟨(h.egress target).1.mono hle, (h.egress target).2⟩
  pacDns host := ⟨(h.pacDns host).1.mono hle, (h.pacDns host).2⟩
  fetch url := ⟨(h.fetch url).1.mono hle, (h.fetch url).2⟩
  connect proxy target := ⟨(h.connect proxy target).1.mono hle, (h.connect proxy target).2⟩
  capture target viaProxy :=
    ⟨(h.capture target viaProxy).1.mono hle, (h.capture target viaProxy).2⟩

variable (h : stopped = true → s.stopped = true)
include h

lemma blames_silence : Blames none (silence stopped) s where
  machine _ hfound := by cases hfound
  exclusive _ := rfl
  honest hrun := by
    apply h
    unfold silence at hrun
    split_ifs at hrun with hstopped
    exact hstopped

omit h in
lemma endedByRun_silence (hstopped : stopped = true) :
    decide (silence stopped = some .runSignal) = true :=
  decide_eq_true (if_pos hstopped)

lemma connected_silence (proxy : HostPort) : Connected ext proxy
    (failedConnect (.attempt .dns) none (silence stopped) { dnsMs := some 0 }) s := by
  have hby : ∀ source, some source = silence stopped → source = .runSignal := by
    intro source hsource
    unfold silence at hsource
    split_ifs at hsource
    exact Option.some.inj hsource
  cases hsilence : silence stopped with
  | none =>
    exact ⟨metRun (.failed ⟨none, none, 0⟩) (.done ()) 0 (.error none) 0, rfl,
      blames_code (fun _ hfound => by cases hfound), (fun hrun => by cases hrun), trivial,
      blames_code (fun _ hfound => by cases hfound)⟩
  | some source =>
    have hstopped := (@blames_silence stopped s h).honest
    rw [hsilence, hby source hsilence.symm] at hstopped
    refine ⟨⟨.failed ⟨none, some .runSignal, 0⟩, .runSignal, .done (), 0, .error none, 0⟩, ?_,
      blames_clock fun _ => hstopped rfl, fun _ => hstopped rfl, trivial,
      blames_code fun _ hfound => by cases hfound⟩
    rw [hby source hsilence.symm]
    rfl

lemma met_silent : (silent stopped).Met ext stopped s where
  dns _ := ⟨blames_silence h, endedByRun_silence⟩
  doh _ := ⟨diedIn_dns (blames_silence h), endedByRun_silence⟩
  egress _ := ⟨diedIn_dns (blames_silence h), endedByRun_silence⟩
  pacDns _ := ⟨blames_silence h, endedByRun_silence⟩
  fetch _ := ⟨⟨blames_silence h, fun hne => absurd rfl hne⟩, fun hstopped _ =>
    endedByRun_silence hstopped⟩
  connect proxy _ := ⟨connected_silence h proxy, endedByRun_silence⟩
  capture _ _ := ⟨⟨blames_silence h, fun htunnel => by cases htunnel⟩, endedByRun_silence⟩

end Promises

/-- What a probe makes of the answers of a run. -/
def findingsOf {ext : Externals} (run : Run ext) : NetworkProbe → Throwing (List Finding)
  | .dns => some (Dns.runDns run.profile run.dnsResolver run.dohProber)
  | .egress => some (Egress.runEgress run.profile run.egressProber)
  | .proxy => some (Proxy.runProxy ext run.proxyContext run.profile)
  | .tls => (Tls.runTls ext run.profile run.publicRootPems run.capturer run.env run.now).map Prod.fst

/-- Only the bundled roots can keep a probe from returning. -/
lemma findingsOf_isSome {ext : Externals} {run : Run ext} (probe : NetworkProbe)
    (hroots : (certificateIndex ext run.publicRootPems).isSome) : (findingsOf run probe).isSome := by
  cases probe with
  | dns | egress | proxy => rfl
  | tls =>
    obtain ⟨roots, hroots⟩ := Option.isSome_iff_exists.mp hroots
    obtain ⟨_, -, hresult⟩ := Tls.runTls_eq_mapM run.profile run.capturer run.env run.now hroots
    rw [findingsOf, hresult]
    rfl

section Explained
variable (ext : NetExternals) (machine : Machine) (loaded : LoadedProfile ext.toExternals)
  (stopped : Bool) (probe : NetworkProbe) (result : Throwing (List Finding)) (s : NetState)

/-- A probe's findings are what it makes of answers that keep to the promises: of the same ones,
unless a resolver is declared twice and answers twice; and each of them in any case. No host is
denied to it. -/
structure Explained : Prop where
  whole : loaded.profile.dohResolvers.Nodup → ∃ answers : Answers, answers.Met ext stopped s ∧
    result = findingsOf (answers.run loaded machine) probe
  each : ∀ findings, result = some findings → ∀ finding ∈ findings, ∃ answers : Answers,
    answers.Met ext stopped s ∧ ∃ all, findingsOf (answers.run loaded machine) probe = some all ∧
      finding ∈ all
  returns : (certificateIndex ext.toExternals machine.publicRootPems).isSome → result.isSome

variable {ext machine loaded stopped probe result s} {s' : NetState}

lemma explained_of_answers {answers : Answers} (hmet : answers.Met ext stopped s)
    (h : result = findingsOf (answers.run loaded machine) probe) :
    Explained ext machine loaded stopped probe result s where
  whole _ := ⟨answers, hmet, h⟩
  each findings hfindings _ hm := ⟨answers, hmet, findings, h ▸ hfindings, hm⟩
  returns hroots := h ▸ findingsOf_isSome probe hroots

lemma Explained.mono (h : Explained ext machine loaded stopped probe result s) (hle : s ≤ s') :
    Explained ext machine loaded stopped probe result s' where
  whole hnodup := by
    obtain ⟨answers, hmet, hresult⟩ := h.whole hnodup
    exact ⟨answers, hmet.mono hle, hresult⟩
  each findings hfindings finding hm := by
    obtain ⟨answers, hmet, hall⟩ := h.each findings hfindings finding hm
    exact ⟨answers, hmet.mono hle, hall⟩
  returns := h.returns

end Explained
end Portcall.Concurrent
