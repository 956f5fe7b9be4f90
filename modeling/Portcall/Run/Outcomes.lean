import Portcall.Run.Schedules
import Portcall.Run.TextClosed

/-! What a run reports, whatever order its steps came in: what its probes make of one answer to each
question, and nothing in free text but this program's words and machine codes. -/
namespace Portcall.Concurrent
open Threads Net
variable {ext : NetExternals} {machine : Machine} {loaded : LoadedProfile ext.toExternals}
  {thrown : Thrown} {probes : List NetworkProbe} {stopped : Bool} {s s' : NetState}

section Merged

/-- Each probe asks seams of its own, so that the answers to each are together those to a run. -/
def Answers.merged (answersOf : NetworkProbe → Answers) : Answers where
  dnsResolver := (answersOf .dns).dnsResolver
  dohProber := (answersOf .dns).dohProber
  egressProber := (answersOf .egress).egressProber
  pacResolver := (answersOf .proxy).pacResolver
  pacFetcher := (answersOf .proxy).pacFetcher
  connect := (answersOf .proxy).connect
  engine := (answersOf .proxy).engine
  clock := (answersOf .proxy).clock
  capturer := (answersOf .tls).capturer
  now := (answersOf .tls).now

variable {answersOf : NetworkProbe → Answers}

lemma findingsOf_merged (probe : NetworkProbe) :
    findingsOf ((Answers.merged answersOf).run loaded machine) probe =
      findingsOf ((answersOf probe).run loaded machine) probe := by
  cases probe <;> rfl

lemma met_merged (h : ∀ probe, (answersOf probe).Met ext stopped s) :
    (Answers.merged answersOf).Met ext stopped s where
  dns := (h .dns).dns
  doh := (h .dns).doh
  egress := (h .egress).egress
  pacDns := (h .proxy).pacDns
  fetch := (h .proxy).fetch
  connect := (h .proxy).connect
  capture := (h .tls).capture

/-- Probes that each report what they make of some answers report what they make of the same. -/
lemma exists_answers_of_reported (hprobes : probes.Nodup)
    (hresolvers : loaded.profile.dohResolvers.Nodup) (hstopped : stopped = true → s.stopped = true)
    {outcomes : List ProbeOutcome}
    (h : List.Forall₂ (Reported ext machine loaded thrown stopped s) probes outcomes) :
    ∃ answers : Answers, answers.Met ext stopped s ∧ outcomes = probes.map fun probe =>
      outcomeOf thrown (findingsOf (answers.run loaded machine) probe) := by
  let madeOf (probe : NetworkProbe) (answers : Answers) : ProbeOutcome :=
    outcomeOf thrown (findingsOf (answers.run loaded machine) probe)
  have hmade : List.Forall₂ (fun probe outcome => ∃ answers : Answers,
      outcome = madeOf probe answers ∧ answers.Met ext stopped s) probes outcomes := by
    refine h.imp fun probe outcome hreported => ?_
    obtain ⟨result, rfl, hexplained⟩ := hreported
    obtain ⟨answers, hmet, rfl⟩ := hexplained.whole hresolvers
    exact ⟨answers, rfl, hmet⟩
  obtain ⟨answersOf, rfl, hmet⟩ := @exists_answers _ _ _ _ id madeOf
    (fun _ answers => answers.Met ext stopped s) _ _ hmade (by rwa [List.map_id])
    fun _ => ⟨silent stopped, met_silent hstopped⟩
  refine ⟨.merged answersOf, met_merged hmet, List.map_congr_left fun probe _ => ?_⟩
  rw [findingsOf_merged]
  rfl

/-- Whatever order its steps came in, a run reports what its network probes make of one answer to
each question, each kept to what its seam promises: as if nothing had happened side by side. The
anchors that a capture is observed with are no part of these outcomes: they are pushed in the order
in which the captures complete. -/
theorem outcomes_sequential (hprobes : probes.Nodup)
    (hresolvers : loaded.profile.dohResolvers.Nodup) {outcomes : List ProbeOutcome}
    (hrun : Reaches (network ext) (start loaded) (runEach ext machine loaded.profile thrown probes)
      s (.done outcomes)) :
    ∃ answers : Answers, answers.Met ext false s ∧ outcomes = probes.map fun probe =>
      outcomeOf thrown (findingsOf (answers.run loaded machine) probe) :=
  exists_answers_of_reported hprobes hresolvers (fun hstop => by cases hstop)
    (safe_left hrun s le_rfl)

/-- Any run of these probes can be kept going to its end. -/
lemma exists_plain_run (probes : List NetworkProbe) (s : NetState) : ∃ outcomes s',
    Reaches (network plainNet) s
      (runEach plainNet plainMachine plainLoaded.profile plainThrown probes) s' (.done outcomes) :=
  exists_value (fun _ => exists_answer) _ s

theorem outcomes_sequential_plain : ∃ s outcomes, Reaches (network plainNet) (start plainLoaded)
      (runEach plainNet plainMachine plainLoaded.profile plainThrown networkProbes) s
      (.done outcomes) ∧ ∃ answers : Answers, answers.Met plainNet false s ∧
        outcomes = networkProbes.map fun probe =>
          outcomeOf plainThrown (findingsOf (answers.run plainLoaded plainMachine) probe) := by
  obtain ⟨outcomes, s, hrun⟩ := exists_plain_run networkProbes (start plainLoaded)
  exact ⟨s, outcomes, hrun, outcomes_sequential (by decide) List.nodup_nil hrun⟩

end Merged

section Codes
variable {answers : Answers}

lemma seamCode_of_blames {code : Option String} {abortedBy : Option AbortedBy}
    (h : Blames code abortedBy s) : SeamCode code := fun found hfound =>
  Or.inl (h.machine found hfound)

/-- What a probe makes of answers that keep to their promises repeats machine codes only. -/
lemma emitted_of_met (h : answers.Met ext stopped s) {probe : NetworkProbe} {findings : List Finding}
    (hfindings : findingsOf (answers.run loaded machine) probe = some findings) {finding : Finding}
    (hm : finding ∈ findings) :
    Emitted ext.toExternals SeamCode (fun _ => True) finding := by
  cases probe with
  | dns =>
    cases hfindings
    refine emitted_of_mem_runDns (fun host failed hfailed => ?_) hm
    have hlooked := (h.dns host).1
    rw [show answers.dnsResolver host = _ from hfailed] at hlooked
    exact seamCode_of_blames hlooked
  | egress =>
    cases hfindings
    refine emitted_of_mem_runEgress (fun target failed hfailed => ?_) hm
    have hattempted := (h.egress target).1
    rw [show answers.egressProber target = _ from hfailed] at hattempted
    exact seamCode_of_blames hattempted.blames
  | proxy =>
    cases hfindings
    refine emitted_of_mem_runProxy (fun url failed hfailed => ?_)
      (fun proxy target failed hfailed => ?_) hm
    · have hdelivered := (h.fetch url).1
      rw [show answers.pacFetcher url = _ from hfailed] at hdelivered
      exact seamCode_of_blames hdelivered.1
    · exact seamCode_of_blames (blames_of_connected (h.connect proxy target).1 hfailed)
  | tls =>
    obtain ⟨⟨findings', anchors⟩, hresult, rfl⟩ := Option.map_eq_some_iff.mp hfindings
    refine emitted_of_mem_runTls (fun target via failed hfailed => ?_) (fun _ _ _ _ => trivial)
      hresult hm
    have hcaptured := (h.capture target via).1
    rw [show answers.capturer target via = _ from hfailed] at hcaptured
    exact seamCode_of_blames hcaptured.1

/-- Evidence that gives nothing away as text, but for a protocol's name that every object has a
member of. -/
def RepeatedItem (item : Evidence) : Prop :=
  ClosedItem item ∨ item.label = "protocol" ∧ item.value ∈ Tls.objectMembers

/-- Beside such a name, what is said of the protocol is closed. -/
lemma repeatedItem_of_mem_protocolFindings {target : Tls.ChainTarget} {capture : Tls.CapturedChain}
    {policy : TlsPolicy} {finding : Finding}
    (hm : finding ∈ Tls.protocolFindings target capture policy) :
    ∀ item ∈ finding.evidence, RepeatedItem item := by
  by_cases hname : NotInherited capture.negotiatedProtocol
  · exact fun item hitem => Or.inl (Tls.closedText_protocolFindings hname hm item hitem)
  · unfold NotInherited at hname
    push Not at hname
    obtain ⟨name, hname, hinherited⟩ := hname
    unfold Tls.protocolFindings at hm
    rw [hname, Option.bind_some, Tls.protocolRank_inherited hinherited] at hm
    rw [List.mem_singleton.mp hm]
    simp [RepeatedItem, ClosedItem, Tls.host, Tls.via, hinherited]

/-- The only text that is repeated as the network gave it is a protocol's name that every object
has a member of. -/
lemma repeatedItem_of_emitted {finding : Finding}
    (h : Emitted ext.toExternals SeamCode (fun _ => True) finding) :
    ∀ item ∈ finding.evidence, RepeatedItem item := by
  have hclosed : Emitted ext.toExternals SeamCode NotInherited finding →
      ∀ item ∈ finding.evidence, RepeatedItem item :=
    fun h item hitem => Or.inl (h.closedText item hitem)
  cases h with
  | protocol target capture policy _ hm => exact repeatedItem_of_mem_protocolFindings hm
  | lookup target outcome hcode => exact hclosed (.lookup target outcome hcode)
  | slow target elapsedMs => exact hclosed (.slow target elapsedMs)
  | doh host attempt => exact hclosed (.doh host attempt)
  | egress endpoint attempt hcode => exact hclosed (.egress endpoint attempt hcode)
  | noProxySyntax entry => exact hclosed (.noProxySyntax entry)
  | noProxyBypass endpoint => exact hclosed (.noProxyBypass endpoint)
  | pacDirect endpoint => exact hclosed (.pacDirect endpoint)
  | pacInconclusive endpoint kind => exact hclosed (.pacInconclusive endpoint kind)
  | pacFetchFailed url outcome hcode => exact hclosed (.pacFetchFailed url outcome hcode)
  | wpadUnusable outcome hcode => exact hclosed (.wpadUnusable outcome hcode)
  | noneConfigured => exact hclosed .noneConfigured
  | connect members hcode => exact hclosed (.connect members hcode)
  | captureFailed target path proxy outcome hcode =>
    exact hclosed (.captureFailed target path proxy outcome hcode)
  | chainEmpty target capture => exact hclosed (.chainEmpty target capture)
  | chainUnparseable target capture length =>
    exact hclosed (.chainUnparseable target capture length)
  | root target capture h hm => exact hclosed (.root target capture h hm)
  | validity target capture hm => exact hclosed (.validity target capture hm)
  | name target capture hm => exact hclosed (.name target capture hm)
  | compared hm => exact hclosed (.compared hm)
  | osStore h hcode => exact hclosed (.osStore h hcode)
  | unsupportedPlatform => exact hclosed .unsupportedPlatform
  | runtimeStore hm hcode => exact hclosed (.runtimeStore hm hcode)
  | platformVerifier runtime => exact hclosed (.platformVerifier runtime)
  | storeNotFound runtime searched => exact hclosed (.storeNotFound runtime searched)
  | missingRoot set missing correlation =>
    exact hclosed (.missingRoot set missing correlation)
  | rootsPresent set coverage => exact hclosed (.rootsPresent set coverage)
  | indeterminate osStores => exact hclosed (.indeterminate osStores)

variable {outcomes : List ProbeOutcome} {findings : List Finding} {finding : Finding}

/-- Every finding of a run is one its probe makes of some answers. -/
lemma exists_answers_of_mem
    (h : List.Forall₂ (Reported ext machine loaded thrown stopped s) probes outcomes)
    (hreturned : ProbeOutcome.returned findings ∈ outcomes) (hm : finding ∈ findings) :
    ∃ probe ∈ probes, ∃ answers : Answers, answers.Met ext stopped s ∧ ∃ all,
      findingsOf (answers.run loaded machine) probe = some all ∧ finding ∈ all := by
  obtain ⟨probe, hprobe, result, hresult, hexplained⟩ := exists_of_mem_values h hreturned
  cases result with
  | none => cases hresult
  | some findings =>
    cases hresult
    exact ⟨probe, hprobe, hexplained.each findings rfl finding hm⟩

/-- Whatever the network answers, and in whatever order: each item of free text that the network
probes report is a word of this program's own or a machine code, unless it is a protocol's name that
every object has a member of. -/
theorem outcomes_closed (hrun : Reaches (network ext) (start loaded)
    (runEach ext machine loaded.profile thrown probes) s (.done outcomes))
    (hreturned : ProbeOutcome.returned findings ∈ outcomes) (hm : finding ∈ findings) :
    ∀ item ∈ finding.evidence, item.kind = .text → Word item.value ∨
      item.label = "code" ∧ MachineText item.value ∨
      item.label = "protocol" ∧ item.value ∈ Tls.objectMembers := by
  obtain ⟨probe, -, answers, hmet, all, hall, hm⟩ :=
    exists_answers_of_mem (safe_left hrun s le_rfl) hreturned hm
  intro item hitem htext
  rcases repeatedItem_of_emitted (emitted_of_met hmet hall hm) item hitem with hclosed | hprotocol
  · exact (hclosed htext).imp_right Or.inl
  · exact Or.inr (Or.inr hprotocol)

/-- A run of the probe that attempts every endpoint reports of the one there is. -/
lemma exists_plain_finding (s : NetState) (hadmitted : Admitted plainNet plainLoaded.profile s) :
    ∃ s' outcomes findings finding, Reaches (network plainNet) s
      (runEach plainNet plainMachine plainLoaded.profile plainThrown [.egress]) s'
      (.done outcomes) ∧ .returned findings ∈ outcomes ∧ finding ∈ findings := by
  obtain ⟨outcomes, s', hrun⟩ := exists_plain_run [.egress] s
  have hsafe := @safe_runEach plainNet plainMachine plainLoaded plainThrown False false s
    (fun hhalt => hhalt.elim) (fun hstop => by cases hstop) hadmitted [.egress]
  have hreported := Safe.value network_grows hsafe hrun
  obtain ⟨answers, -, rfl⟩ := exists_answers_of_reported (by decide) List.nodup_nil
    (fun hstop => by cases hstop) hreported
  exact ⟨s', _, _, _, hrun, List.mem_cons_self, List.mem_cons_self⟩

theorem outcomes_closed_plain : ∃ s outcomes findings finding,
    Reaches (network plainNet) (start plainLoaded)
      (runEach plainNet plainMachine plainLoaded.profile plainThrown [.egress]) s (.done outcomes) ∧
    .returned findings ∈ outcomes ∧ finding ∈ findings ∧
      ∀ item ∈ finding.evidence, item.kind = .text → Word item.value ∨
        item.label = "code" ∧ MachineText item.value ∨
        item.label = "protocol" ∧ item.value ∈ Tls.objectMembers := by
  obtain ⟨s, outcomes, findings, finding, hrun, hreturned, hm⟩ :=
    exists_plain_finding (start plainLoaded) admitted_start
  exact ⟨s, outcomes, findings, finding, hrun, hreturned, hm, outcomes_closed hrun hreturned hm⟩

end Codes
section Stopped
variable {answers : Answers} {finding : Finding}

lemma severity_tls_of_met (h : answers.Met ext true s)
    (hm : finding ∈ (answers.run loaded machine).tlsFindings) : finding.severity = .unknown := by
  have hended : ∀ (roots : CertificateIndex) (target : Tls.TlsTarget) (path : Via)
      (via : Option HostPort) (result : Tls.PathResult),
      (answers.run loaded machine).pathResult roots target path via = some result →
        (∀ finding ∈ result.findings, finding.severity = .unknown) ∧ result.chain = none :=
    fun _ target _ via _ hresult =>
      checkPath_of_endedByRun ((h.capture ⟨target.host, target.port⟩ via).2 rfl) hresult
  cases hroots : certificateIndex ext.toExternals (answers.run loaded machine).publicRootPems with
  | none =>
    unfold Run.tlsFindings Tls.runTls at hm
    simp only [hroots, Option.bind_eq_bind, Option.bind_none] at hm
    split_ifs at hm <;> exact absurd hm List.not_mem_nil
  | some roots =>
    obtain ⟨target, -, direct, proxied, hdirect, hproxied, hfinding⟩ :=
      (Run.mem_tlsFindings_iff hroots).mp hm
    obtain ⟨hunknown, hchain⟩ := hended roots target _ _ direct hdirect
    rcases hfinding with hfinding | hfinding | hfinding
    · exact hunknown finding hfinding
    · cases hvia : Tls.discoverEnvProxy ext.toExternals (answers.run loaded machine).env with
      | none =>
        rw [hvia] at hproxied
        cases hproxied
        exact absurd hfinding List.not_mem_nil
      | some via =>
        rw [hvia, Option.mapM_some] at hproxied
        obtain ⟨viaProxy, hmap, rfl⟩ := Option.map_eq_some_iff.mp hproxied
        obtain ⟨result, hresult, rfl⟩ := Option.map_eq_some_iff.mp hmap
        exact (hended roots target _ _ result hresult).1 finding hfinding
    · rw [compareChains_eq_nil (Or.inl hchain)] at hfinding
      exact absurd hfinding List.not_mem_nil

lemma endedByRun_fetch (h : answers.Met ext true s) {url script : String} {elapsedMs : ℕ} :
    answers.pacFetcher url ≠ .ok script elapsedMs := by
  intro hfetched
  have hmet := h.fetch url
  rw [hfetched] at hmet
  cases hmet.2 rfl hmet.1.1

/-- What is reported of a configured script that was not fetched, and of no proxy that was found:
neither asks whose clock it was. -/
def clockBlindIds : List String := ["proxy.pac-fetch-failed", "proxy.none-configured"]

lemma severity_proxy_of_met (h : answers.Met ext true s)
    (hm : finding ∈ Proxy.runProxy ext.toExternals (answers.run loaded machine).proxyContext
      (answers.run loaded machine).profile) :
    finding.severity = .unknown ∨ finding.id ∈ noProxyIds ++ clockBlindIds := by
  have hleg : ∀ script, (answers.run loaded machine).leg ≠ .script script := by
    intro script hscript
    rcases leg_eq_script_iff.mp hscript with ⟨_, _, -, hfetched⟩ | ⟨-, -, _, hfetched⟩
    · exact endedByRun_fetch h hfetched
    · exact endedByRun_fetch h hfetched
  rw [Run.runProxy_eq, List.mem_append] at hm
  rcases hm with hm | hm
  · obtain ⟨entry, -, rfl⟩ := List.mem_map.mp hm
    exact Or.inr (by simp [Proxy.noProxySyntaxFinding, noProxyIds])
  · cases hfound : (answers.run loaded machine).leg with
    | script script => exact absurd hfound (hleg script)
    | pacFetchFailed url outcome =>
      rw [hfound] at hm
      rw [List.mem_singleton.mp hm]
      exact Or.inr (by simp [Proxy.pacFetchFailedFinding, clockBlindIds])
    | wpadFailed outcome =>
      rw [hfound, Proxy.legFindings] at hm
      split_ifs at hm
      · rw [List.mem_singleton.mp hm]
        exact Or.inr (by simp [Proxy.noneConfiguredFinding, clockBlindIds])
      · rw [List.mem_singleton.mp hm]
        exact Or.inl rfl
    | env =>
      rw [Run.legFindings_env hfound, List.mem_append, List.mem_map, List.mem_map] at hm
      rcases hm with ⟨endpoint, -, rfl⟩ | ⟨members, hmembers, rfl⟩
      · exact Or.inr (by simp [Proxy.noProxyBypassFinding, noProxyIds])
      · obtain ⟨first, hfirst, hverdict, -⟩ := Proxy.outcomes_of_mem_cluster hmembers
        obtain ⟨route, -, rfl⟩ := List.mem_map.mp hfirst
        rw [Proxy.severity_connectVerdictFinding_iff, hverdict]
        exact Or.inl ((Proxy.undecided_iff route).mp
          (Or.inl ((h.connect route.proxy route.target).2 rfl)))

/-- What a probe makes of answers that the run's clock ended. -/
lemma severity_of_met (h : answers.Met ext true s) {probe : NetworkProbe} {findings : List Finding}
    (hfindings : findingsOf (answers.run loaded machine) probe = some findings)
    (hm : finding ∈ findings) :
    finding.severity = .unknown ∨ finding.id ∈ noProxyIds ++ clockBlindIds := by
  cases probe with
  | dns =>
    cases hfindings
    rcases List.mem_append.mp hm with hm | hm
    · obtain ⟨target, -, hm⟩ := List.mem_flatMap.mp hm
      exact Or.inl (severity_checkHost ((h.dns target.host).2 rfl) hm)
    · obtain ⟨host, -, rfl⟩ := List.mem_map.mp hm
      exact Or.inl (severity_dohFinding ((h.doh ⟨host, Dns.dohPort, true⟩).2 rfl))
  | egress =>
    cases hfindings
    obtain ⟨endpoint, -, rfl⟩ := List.mem_map.mp hm
    exact Or.inl (severity_judge ((h.egress (Egress.targetOf endpoint)).2 rfl))
  | proxy =>
    cases hfindings
    exact severity_proxy_of_met h hm
  | tls =>
    obtain ⟨result, hresult, rfl⟩ := Option.map_eq_some_iff.mp hfindings
    refine Or.inl (@severity_tls_of_met ext machine loaded s answers finding h ?_)
    rw [Run.tlsFindings, hresult]
    exact hm

variable {before : List NetworkProbe} {outcomes : List ProbeOutcome}

/-- Whatever network probe begins once the run has stopped connects to nobody; and but for what is
made of `NO_PROXY` alone, and for two findings that do not ask whose clock it was, what it says
decides nothing. -/
theorem stopped_probes_undecided {left : Prog NetOp (List ProbeOutcome)}
    (hbefore : Reaches (network ext) (start loaded)
      (runEach ext machine loaded.profile thrown before) s (.done outcomes))
    (hstopped : s.stopped = true)
    (hrun : Reaches (network ext) s (runEach ext machine loaded.profile thrown probes) s' left) :
    (∀ address port, ¬Poised (.netConnect address port) left) ∧
      ∀ outcomes findings finding, left = .done outcomes → .returned findings ∈ outcomes →
        finding ∈ findings → finding.severity = .unknown ∨
          finding.id ∈ noProxyIds ++ clockBlindIds := by
  have hsafe := @safe_runEach ext machine loaded thrown False false (start loaded)
    (fun hhalt => hhalt.elim) (fun hstop => by cases hstop) admitted_start before
  have hadmitted := admitted_start.mono (hsafe.run network_grows hbefore).1
  have hrest := @safe_runEach ext machine loaded thrown True true s (fun _ => hstopped)
    (fun _ => hstopped) hadmitted probes
  have hleft := (hrest.run network_grows hrun).2
  refine ⟨fun address port hop => (hleft.poised hop).1 trivial, ?_⟩
  rintro outcomes findings finding rfl hreturned hm
  obtain ⟨probe, -, answers, hmet, all, hall, hm⟩ :=
    exists_answers_of_mem (hleft s' le_rfl) hreturned hm
  exact severity_of_met hmet hall hm

theorem stopped_probes_undecided_plain : ∃ s outcomes findings finding,
    Reaches (network plainNet) (start plainLoaded).stop
      (runEach plainNet plainMachine plainLoaded.profile plainThrown [.egress]) s (.done outcomes) ∧
    .returned findings ∈ outcomes ∧ finding ∈ findings ∧ (finding.severity = .unknown ∨
      finding.id ∈ noProxyIds ++ clockBlindIds) := by
  have hbefore : Reaches (network plainNet) (start plainLoaded)
      (runEach plainNet plainMachine plainLoaded.profile plainThrown []) (start plainLoaded).stop
      (.done []) := .step .refl (.drift .stop)
  obtain ⟨s, outcomes, findings, finding, hrun, hreturned, hm⟩ :=
    exists_plain_finding (start plainLoaded).stop (@admitted_start plainNet plainLoaded)
  exact ⟨s, outcomes, findings, finding, hrun, hreturned, hm,
    (stopped_probes_undecided hbefore rfl hrun).2 outcomes findings finding rfl hreturned hm⟩

end Stopped
end Portcall.Concurrent
