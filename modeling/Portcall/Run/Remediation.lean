import Portcall.Cli.Check
import Portcall.Run.Emission

/-! Every builder of a finding that says something is broken says what to do about it, so no
outcome of any seam breaks the remediation rule. -/
namespace Portcall
variable {ext : Externals} {finding : Finding}

section Builders

lemma Dns.remediable_resolveFailed (target : ProfileHost) (failure : ResolveFailure)
    (code : Option String) : Remediable (resolveFailed target failure code) := by
  apply remediable_of_some rfl
  simp only [String.append_assoc]
  exact isBlank_append (isBlank_ofList_cons (by decide))

lemma Dns.remediable_verdict (target : ProfileHost) (outcome : DnsOutcome) :
    Remediable (verdict target outcome) := by
  cases outcome with
  | failed outcome =>
    rw [verdict]
    split_ifs
    · exact remediable_of_unknown rfl
    · exact remediable_resolveFailed target _ _
  | ok addresses elapsedMs =>
    rw [verdict]
    split
    · exact remediable_resolveFailed target _ _
    · split
      · apply remediable_of_some rfl
        simp only [String.append_assoc]
        exact isBlank_append (isBlank_ofList_cons (by decide))
      · split
        · apply remediable_of_some rfl
          simp only [String.append_assoc]
          exact isBlank_append (isBlank_ofList_cons (by decide))
        · exact remediable_of_ok rfl

lemma Dns.remediable_dohFinding (host : String) (attempt : EndpointAttempt) :
    Remediable (dohFinding host attempt) := by
  unfold dohFinding
  generalize evaluateDoh attempt = outcome
  have hblocked : ∀ layer, ∃ text, (blocked layer).remediation = some text ∧
      isBlank text = false := by
    intro layer
    refine ⟨_, rfl, ?_⟩
    simp only [String.append_assoc]
    exact isBlank_append (isBlank_ofList_cons (by decide))
  cases outcome with
  | reachable => exact remediable_of_ok rfl
  | blockedDnsFailed | blockedDnsTimeout => exact fun _ => hblocked "DNS"
  | blockedConnectRefused | blockedConnectTimeout => exact fun _ => hblocked "connect"
  | blockedTlsFailed => exact fun _ => hblocked "TLS"
  | indeterminateDeadline => exact remediable_of_unknown rfl

lemma Egress.remediable_httpError (endpoint : Endpoint) (status : Option ℕ) :
    Remediable (httpError endpoint status) := by
  apply remediable_of_some rfl
  simp only [String.append_assoc]
  exact isBlank_append (isBlank_ofList_cons (by decide))

lemma Egress.isBlank_timeoutRemediation (phase : AttemptPhase) :
    isBlank (timeoutRemediation phase) = false := by
  unfold timeoutRemediation
  cases phase with
  | dns | connect | tls | http =>
    dsimp only
    simp only [String.append_assoc]
    exact isBlank_append (isBlank_ofList_cons (by decide))

lemma Egress.remediable_failed (endpoint : Endpoint) (attempt : FailedAttempt) :
    Remediable (failed endpoint attempt) := by
  unfold failed
  dsimp only
  cases classifyFailed attempt with
  | dns | refused | unreachable | reset | tls =>
    apply remediable_of_some rfl
    simp only [String.append_assoc]
    exact isBlank_append (isBlank_ofList_cons (by decide))
  | timeout => exact remediable_of_some rfl (isBlank_timeoutRemediation attempt.phase)
  | http => exact remediable_httpError endpoint attempt.status
  | ok | unclassified => exact remediable_of_unknown rfl

lemma Egress.remediable_judge (endpoint : Endpoint) (attempt : EndpointAttempt) :
    Remediable (judge endpoint attempt) := by
  cases attempt with
  | ok addresses tlsProtocol status timing =>
    rw [judge, succeeded]
    split_ifs
    · exact remediable_httpError endpoint status
    · exact remediable_of_ok rfl
  | failed attempt =>
    rw [judge]
    split_ifs
    · exact remediable_of_unknown rfl
    · exact remediable_failed endpoint attempt

lemma Proxy.remediable_connectVerdict (members : ProxyCluster) :
    Remediable (connectVerdictFinding members) := by
  unfold connectVerdictFinding
  dsimp only
  cases members.verdict with
  | aborted => exact remediable_of_unknown rfl
  | measured verdict =>
    cases verdict with
    | established => exact remediable_of_ok rfl
    | unclassified => exact remediable_of_unknown rfl
    | unreachable =>
      exact remediable_of_some rfl (isBlank_append (isBlank_ofList_cons (by decide)))
    | authRequired | rejected | dns | refused | timeout | reset =>
      apply remediable_of_some rfl
      simp only [String.append_assoc]
      exact isBlank_append (isBlank_ofList_cons (by decide))

lemma Tls.remediable_captureFailed (target : TlsTarget) (path : Via) (proxy : Option HostPort)
    (outcome : FailedCapture) : Remediable (captureFailed target path proxy outcome) := by
  unfold captureFailed
  split <;> exact remediable_of_unknown rfl

lemma Tls.remediable_rootFindings {target : ChainTarget} {capture : CapturedChain}
    {chain : List X509Certificate} {verdict : RootVerdict} {policy : TlsPolicy}
    {roots : CertificateIndex} {findings : List Finding}
    (h : rootFindings target capture chain verdict policy roots = some findings)
    (hm : finding ∈ findings) : Remediable finding := by
  unfold rootFindings at h
  cases hclass : verdict.rootClass with
  | «public» =>
    rw [hclass] at h
    cases h
    obtain ⟨matched, -, rfl⟩ := Option.map_eq_some_iff.mp (Option.mem_toList.mp hm)
    exact remediable_of_ok rfl
  | «private» =>
    rw [hclass] at h
    obtain ⟨found, hfound, rfl⟩ := Option.map_eq_some_iff.mp h
    obtain ⟨top, -, rfl⟩ := Option.map_eq_some_iff.mp hfound
    rw [List.mem_singleton.mp hm]
    apply remediable_of_some rfl
    split_ifs <;>
    · simp only [String.append_assoc]
      exact isBlank_append (isBlank_ofList_cons (by decide))
  | indeterminate =>
    rw [hclass] at h
    obtain ⟨found, hfound, rfl⟩ := Option.map_eq_some_iff.mp h
    obtain ⟨top, -, rfl⟩ := Option.map_eq_some_iff.mp hfound
    rw [List.mem_singleton.mp hm]
    exact remediable_of_unknown rfl

lemma Tls.remediable_protocolFindings {target : ChainTarget} {capture : CapturedChain}
    {policy : TlsPolicy} (hm : finding ∈ protocolFindings target capture policy) :
    Remediable finding := by
  unfold protocolFindings at hm
  split at hm
  · rw [List.mem_singleton.mp hm]
    exact remediable_of_unknown rfl
  · split at hm
    · rw [List.mem_singleton.mp hm]
      exact remediable_of_ok rfl
    · rw [List.mem_singleton.mp hm]
      apply remediable_of_some rfl
      simp only [String.append_assoc]
      exact isBlank_append (isBlank_ofList_cons (by decide))

lemma Tls.remediable_validityFindings {target : ChainTarget} {capture : CapturedChain}
    {chain : List X509Certificate} {now : ℤ}
    (hm : finding ∈ validityFindings target capture chain now) : Remediable finding := by
  rcases List.mem_append.mp hm with hm | hm
  · obtain ⟨window, -, rfl⟩ := Option.map_eq_some_iff.mp (Option.mem_toList.mp hm)
    apply remediable_of_some rfl
    simp only [String.append_assoc]
    exact isBlank_append (isBlank_ofList_cons (by decide))
  · obtain ⟨window, -, h⟩ := Option.bind_eq_some_iff.mp (Option.mem_toList.mp hm)
    dsimp only at h
    split_ifs at h
    · cases h
      apply remediable_of_some rfl
      simp only [String.append_assoc]
      exact isBlank_append (isBlank_ofList_cons (by decide))
    · cases h
      apply remediable_of_some rfl
      simp only [String.append_assoc]
      exact isBlank_append (isBlank_ofList_cons (by decide))

lemma Tls.remediable_nameFindings {target : ChainTarget} {capture : CapturedChain}
    {leaf : X509Certificate} (hm : finding ∈ nameFindings target capture ext leaf) :
    Remediable finding := by
  unfold nameFindings at hm
  split at hm
  · exact absurd hm List.not_mem_nil
  split at hm
  · rw [List.mem_singleton.mp hm]
    apply remediable_of_some rfl
    simp only [String.append_assoc]
    exact isBlank_append (isBlank_ofList_cons (by decide))
  · split at hm
    · exact absurd hm List.not_mem_nil
    · rw [List.mem_singleton.mp hm]
      apply remediable_of_some rfl
      simp only [String.append_assoc]
      exact isBlank_append (isBlank_ofList_cons (by decide))

lemma Tls.remediable_compareChains {direct viaProxy : Option CapturedChain} {name : String}
    (hm : finding ∈ compareChains ext direct viaProxy name) : Remediable finding := by
  unfold compareChains at hm
  split at hm
  · split at hm
    · split at hm
      · rw [List.mem_singleton.mp hm]
        exact remediable_of_ok rfl
      · rw [List.mem_singleton.mp hm]
        apply remediable_of_some rfl
        simp only [String.append_assoc]
        exact isBlank_append (isBlank_ofList_cons (by decide))
    · exact absurd hm List.not_mem_nil
  · exact absurd hm List.not_mem_nil

lemma Truststore.remediable_storeFinding {commands : List TrustStoreCommand} {keys : List String}
    {store : TrustStoreOutcome} (h : storeFinding ext commands keys store = some finding) :
    Remediable finding := by
  unfold storeFinding at h
  split at h
  · cases h
    exact remediable_of_ok rfl
  · cases h
    exact remediable_of_unknown rfl
  · cases h
    exact remediable_of_unknown rfl
  · obtain ⟨row, -, rfl⟩ := Option.map_eq_some_iff.mp h
    exact remediable_of_unknown rfl

lemma Truststore.remediable_outcomeFindings {runtime : Runtime} {outcome : RuntimeStoreOutcome}
    (hm : finding ∈ outcomeFindings runtime outcome) : Remediable finding := by
  rcases List.mem_append.mp hm with hm | hm
  · split_ifs at hm
    · unfold extraCaFindings at hm
      dsimp only at hm
      split at hm
      · exact absurd hm List.not_mem_nil
      · rw [List.mem_singleton.mp hm]
        exact remediable_of_ok rfl
      · rw [List.mem_singleton.mp hm]
        apply remediable_of_some rfl
        split_ifs <;>
        · simp only [String.append_assoc]
          exact isBlank_append (isBlank_ofList_cons (by decide))
    · exact absurd hm List.not_mem_nil
  · split_ifs at hm
    · rw [List.mem_singleton.mp hm]
      exact remediable_of_unknown rfl
    · exact absurd hm List.not_mem_nil

/-- Whatever was observed of it, a missing root is answered with an instruction. -/
lemma Truststore.remediable_missingRoot (set : TrustSet) (missing : List Anchor)
    (correlation : Option Correlation) :
    Remediable (missingRootFinding set missing correlation) := by
  apply remediable_of_some rfl
  unfold missingRootRemediation
  dsimp only
  apply isBlank_append_right
  cases set.runtime with
  | node | go | python | java =>
    dsimp only
    simp only [String.append_assoc]
    exact isBlank_append (isBlank_ofList_cons (by decide))

end Builders

/-- Every finding a builder makes keeps the remediation rule, whatever it is made of. -/
theorem Emitted.remediable {Code Protocol : Option String → Prop}
    (h : Emitted ext Code Protocol finding) : Remediable finding := by
  cases h with
  | lookup target outcome => exact Dns.remediable_verdict target outcome
  | doh host attempt => exact Dns.remediable_dohFinding host attempt
  | egress endpoint attempt => exact Egress.remediable_judge endpoint attempt
  | slow | noProxySyntax | pacFetchFailed =>
    apply remediable_of_some rfl
    simp only [String.append_assoc]
    exact isBlank_append (isBlank_ofList_cons (by decide))
  | noProxyBypass | pacDirect | noneConfigured | platformVerifier | rootsPresent =>
    exact remediable_of_ok rfl
  | pacInconclusive | wpadUnusable | chainEmpty | chainUnparseable | unsupportedPlatform
  | storeNotFound | indeterminate => exact remediable_of_unknown rfl
  | connect members => exact Proxy.remediable_connectVerdict members
  | captureFailed target path proxy outcome =>
    exact Tls.remediable_captureFailed target path proxy outcome
  | root target capture hroot hm => exact Tls.remediable_rootFindings hroot hm
  | protocol target capture policy hprotocol hm => exact Tls.remediable_protocolFindings hm
  | validity target capture hm => exact Tls.remediable_validityFindings hm
  | name target capture hm => exact Tls.remediable_nameFindings hm
  | compared hm => exact Tls.remediable_compareChains hm
  | osStore hstore => exact Truststore.remediable_storeFinding hstore
  | runtimeStore hm => exact Truststore.remediable_outcomeFindings hm
  | missingRoot set missing correlation =>
    exact Truststore.remediable_missingRoot set missing correlation

section Run

/-- What `truststore` meets: the stores as the two readers returned them, the bundled roots, the
anchors `tls` left behind in whatever order, and the platform's command table. -/
structure StoreReads where
  osStores : List TrustStoreOutcome
  runtimeStores : List RuntimeStoreOutcome
  publicRootPems : List String
  observedAnchors : List ObservedAnchor
  osCommands : List TrustStoreCommand
  deriving DecidableEq, Repr

/-- What the five registered probes come to over one run; a parser that throws throws this. -/
def fiveProbes (run : Run ext) (reads : StoreReads) (thrown : Thrown) : String → ProbeOutcome
  | "dns" => .returned (Dns.runDns run.profile run.dnsResolver run.dohProber)
  | "egress" => .returned (Egress.runEgress run.profile run.egressProber)
  | "proxy" => .returned (Proxy.runProxy ext run.proxyContext run.profile)
  | "tls" =>
    match Tls.runTls ext run.profile run.publicRootPems run.capturer run.env run.now with
    | none => .threw thrown.value
    | some (findings, _) => .returned findings
  | "truststore" =>
    match Truststore.runTruststore ext run.profile reads.osStores reads.runtimeStores
      reads.publicRootPems reads.observedAnchors reads.osCommands with
    | none => .threw thrown.value
    | some findings => .returned findings
  | _ => .returned []

variable (run : Run ext) (reads : StoreReads) (thrown : Thrown)

lemma emitted_of_returned {probe : String} {findings : List Finding}
    (hreturned : fiveProbes run reads thrown probe = .returned findings)
    (hm : finding ∈ findings) : Emitted ext (fun _ => True) (fun _ => True) finding := by
  unfold fiveProbes at hreturned
  split at hreturned
  · cases hreturned
    exact emitted_of_mem_runDns (fun _ _ _ => trivial) hm
  · cases hreturned
    exact emitted_of_mem_runEgress (fun _ _ _ => trivial) hm
  · cases hreturned
    exact emitted_of_mem_runProxy (fun _ _ _ => trivial) (fun _ _ _ _ => trivial) hm
  · split at hreturned
    · cases hreturned
    · rename_i htls
      cases hreturned
      exact emitted_of_mem_runTls (fun _ _ _ _ => trivial) (fun _ _ _ _ => trivial) htls hm
  · split at hreturned
    · cases hreturned
    · rename_i hcross
      cases hreturned
      exact emitted_of_mem_crossCheck (fun _ _ => trivial) (fun _ _ => trivial) hcross hm
  · cases hreturned
    exact absurd hm List.not_mem_nil

/-- What a parser throws is plain data. -/
lemma throwsReadable_fiveProbes : ThrowsReadable (fiveProbes run reads thrown) := by
  intro probe _ error hb
  unfold fiveProbes at hb
  split at hb
  · cases hb
  · cases hb
  · cases hb
  · split at hb <;> cases hb
    exact thrown.readable
  · split at hb <;> cases hb
    exact thrown.readable
  · cases hb

/-- Whatever the network, the proxies, the peers and the machine's stores answer, each finding of
the five probes that says something is broken says what to do about it; so a run over them comes
to a report, and its exit code is never that of a tool error. -/
theorem probes_remediable :
    (∀ probe ∈ probes, ∀ findings, fiveProbes run reads thrown probe = .returned findings →
      ∀ finding ∈ findings, finding.severity = .blocker ∨ finding.severity = .degraded →
        ∃ text, finding.remediation = some text ∧ isBlank text = false) ∧
      ∀ (localeCompare : String → String → ℤ) (header : RunHeader), ∃ report,
        Portcall.run localeCompare header run.loaded (fiveProbes run reads thrown) = some report ∧
          (exitCodeFor report.summary.severity).code ≠ ExitCode.toolError.code := by
  have hreturns : ReturnsRemediable (fiveProbes run reads thrown) :=
    fun _ _ _ hreturned _ hm => (emitted_of_returned run reads thrown hreturned hm).remediable
  refine ⟨hreturns, fun localeCompare header => ?_⟩
  obtain ⟨findings, hfindings⟩ := Option.isSome_iff_exists.mp
    (gatherFindings_isSome_iff.mpr (throwsReadable_fiveProbes run reads thrown))
  refine ⟨buildReport localeCompare header run.loaded findings, ?_, exitCode_ne_toolError _⟩
  rw [run_eq_some_iff]
  exact ⟨findings, hfindings, fun _ => remediable_of_mem_gatherFindings hreturns hfindings, rfl⟩

end Run
end Portcall
