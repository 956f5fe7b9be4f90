import Portcall.Run.Vocabulary

/-! When all text evidence is closed: whatever the seams return and the peers present, up to the
one table that is looked up with a name the peer chose. -/
namespace Portcall
variable {ext : Externals} {finding : Finding}

section Inputs

/-- One input to each entry point of the probes' evaluation. -/
structure TextInputs where
  profile : Profile
  dnsResolver : DnsResolver
  dohProber : EndpointProber
  egressProber : EndpointProber
  proxyContext : Proxy.ProxyContext
  tlsTarget : Tls.TlsTarget
  path : Via
  proxy : Option HostPort
  failedCapture : FailedCapture
  capture : Tls.CapturedChain
  chainTarget : Tls.ChainTarget
  policy : TlsPolicy
  options : Tls.ChainEvaluationOptions
  direct : Option Tls.CapturedChain
  viaProxy : Option Tls.CapturedChain
  name : String
  crossCheck : Truststore.CrossCheckInput

/-- Every seam hands over machine codes only. -/
structure SeamCodes (inputs : TextInputs) : Prop where
  dns : ∀ host failed, inputs.dnsResolver host = .failed failed → SeamCode failed.code
  egress : ∀ target failed, inputs.egressProber target = .failed failed → SeamCode failed.code
  fetch : ∀ url failed, inputs.proxyContext.fetcher url = .failed failed → SeamCode failed.code
  connect : ∀ proxy target failed,
    (inputs.proxyContext.connect proxy target).attempt = .failed failed → SeamCode failed.code
  capture : SeamCode inputs.failedCapture.code
  osStore : ∀ store ∈ inputs.crossCheck.osStores, SeamCode store.code
  runtimeStore : ∀ outcome ∈ inputs.crossCheck.runtimeStores, SeamCode outcome.code

/-- All text evidence is closed; a peer's protocol name is repeated only when it is one of the
five, and every other name is called unknown. -/
structure TextClosed (ext : Externals) (inputs : TextInputs) : Prop where
  dns : ∀ finding ∈ Dns.runDns inputs.profile inputs.dnsResolver inputs.dohProber,
    ClosedText finding
  egress : ∀ finding ∈ Egress.runEgress inputs.profile inputs.egressProber, ClosedText finding
  proxy : ∀ finding ∈ Proxy.runProxy ext inputs.proxyContext inputs.profile, ClosedText finding
  captureFailed : ClosedText
    (Tls.captureFailed inputs.tlsTarget inputs.path inputs.proxy inputs.failedCapture)
  evaluateChain : ∀ evaluation,
    Tls.evaluateChain ext inputs.capture inputs.chainTarget inputs.policy inputs.options =
      some evaluation → ∀ finding ∈ evaluation.findings, ClosedText finding
  compareChains : ∀ finding ∈ Tls.compareChains ext inputs.direct inputs.viaProxy inputs.name,
    ClosedText finding
  crossCheck : ∀ findings, Truststore.crossCheck ext inputs.crossCheck = some findings →
    ∀ finding ∈ findings, ClosedText finding
  repeated : ∀ finding ∈ Tls.protocolFindings inputs.chainTarget inputs.capture inputs.policy,
    ∀ value ∈ finding.values "protocol", value ∈ Egress.tlsProtocols
  unknown : ∀ name, inputs.capture.negotiatedProtocol = some name → name ∉ Egress.tlsProtocols →
    ∃ finding ∈ Tls.protocolFindings inputs.chainTarget inputs.capture inputs.policy,
      finding.id = "tls.protocol-unknown"

lemma Tls.protocolRank_inherited {name : String} (h : name ∈ objectMembers) :
    protocolRank name = some .inherited := by
  have hall : ∀ name ∈ objectMembers, protocolRank name = some .inherited := by decide
  exact hall name h

/-- The name of an inherited member is repeated, as that of a version below any minimum. -/
lemma Tls.protocolFindings_inherited {target : ChainTarget} {capture : CapturedChain}
    {policy : TlsPolicy} {name : String} (hname : capture.negotiatedProtocol = some name)
    (h : name ∈ objectMembers) :
    ∃ finding, protocolFindings target capture policy = [finding] ∧
      finding.id = "tls.protocol-below-minimum" ∧
      ⟨"protocol", name, .text⟩ ∈ finding.evidence ∧ name ∈ finding.values "protocol" := by
  unfold protocolFindings
  rw [hname, Option.bind_some, protocolRank_inherited h]
  refine ⟨_, rfl, rfl, ?_, ?_⟩
  · exact List.mem_cons_of_mem _ (List.mem_cons_of_mem _ List.mem_cons_self)
  · change name ∈ valuesOf "protocol" [host target.host, via capture,
      ⟨"protocol", name, .text⟩, ⟨"profile minimum", policy.minVersion.text, .text⟩]
    simp [host, via]

lemma Tls.protocolFindings_unknown {target : ChainTarget} {capture : CapturedChain}
    {policy : TlsPolicy} {name : String} (hname : capture.negotiatedProtocol = some name)
    (hprotocol : name ∉ Egress.tlsProtocols) (hinherited : name ∉ objectMembers) :
    ∃ finding ∈ protocolFindings target capture policy, finding.id = "tls.protocol-unknown" := by
  have hrank : protocolRank name = none := by
    cases hrank : protocolRank name with
    | none => rfl
    | some rank => exact absurd (mem_of_protocolRank hrank hinherited) hprotocol
  unfold protocolFindings
  rw [hname, Option.bind_some, hrank]
  exact ⟨_, List.mem_singleton_self _, rfl⟩

lemma Tls.values_protocolFindings {target : ChainTarget} {capture : CapturedChain}
    {policy : TlsPolicy} (h : NotInherited capture.negotiatedProtocol)
    (hm : finding ∈ protocolFindings target capture policy) :
    ∀ value ∈ finding.values "protocol", value ∈ Egress.tlsProtocols := by
  unfold protocolFindings at hm
  cases hrank : capture.negotiatedProtocol.bind protocolRank with
  | none =>
    rw [hrank] at hm
    rw [List.mem_singleton.mp hm]
    simp only [Finding.values]
    simp [host, via]
  | some rank =>
    obtain ⟨name, hname, hrank'⟩ := Option.bind_eq_some_iff.mp hrank
    have hmem := mem_of_protocolRank hrank' (h name hname)
    rw [hrank] at hm
    dsimp only at hm
    split at hm
    · rw [List.mem_singleton.mp hm]
      simp only [Finding.values]
      simp [host, via, hname, hmem]
    · rw [List.mem_singleton.mp hm]
      simp only [Finding.values]
      simp [host, via, hname, hmem]

/-- Given seams that hand over machine codes, all text is closed exactly when the protocol name the
peer chose is not one that every object has a member of: the rank table is an object too. -/
theorem textClosed_iff (ext : Externals) (inputs : TextInputs) (hcodes : SeamCodes inputs) :
    TextClosed ext inputs ↔
      ∀ name, inputs.capture.negotiatedProtocol = some name → name ∉ Tls.objectMembers := by
  constructor
  · intro hclosed name hname hinherited
    obtain ⟨finding, hfindings, -, -, hvalue⟩ := @Tls.protocolFindings_inherited
      inputs.chainTarget inputs.capture inputs.policy name hname hinherited
    have hprotocol := hclosed.repeated finding (hfindings ▸ List.mem_singleton_self _) name hvalue
    exact (Word.protocol hprotocol).not_mem_objectMembers hinherited
  · intro hname
    have hclosed : ∀ {finding : Finding}, Emitted ext SeamCode NotInherited finding →
        ClosedText finding := fun h => h.closedText
    exact
      { dns := fun _ hm => hclosed (emitted_of_mem_runDns hcodes.dns hm)
        egress := fun _ hm => hclosed (emitted_of_mem_runEgress hcodes.egress hm)
        proxy := fun _ hm => hclosed (emitted_of_mem_runProxy hcodes.fetch hcodes.connect hm)
        captureFailed := hclosed (.captureFailed _ _ _ _ hcodes.capture)
        evaluateChain := fun _ he _ hm => hclosed (emitted_of_mem_evaluateChain hname he hm)
        compareChains := fun _ hm => hclosed (.compared hm)
        crossCheck := fun _ he _ hm =>
          hclosed (emitted_of_mem_crossCheck hcodes.osStore hcodes.runtimeStore he hm)
        repeated := fun _ hm => Tls.values_protocolFindings hname hm
        unknown := fun name hsome hprotocol =>
          Tls.protocolFindings_unknown hsome hprotocol (hname name hsome) }

end Inputs

section Run
variable {run : Run ext}

/-- So it is over a whole run of the network probes, whatever chains it captures. -/
theorem closedText_of_mem_report
    (hdns : ∀ host failed, run.dnsResolver host = .failed failed → SeamCode failed.code)
    (hegress : ∀ target failed, run.egressProber target = .failed failed → SeamCode failed.code)
    (hfetch : ∀ url failed, run.pacFetcher url = .failed failed → SeamCode failed.code)
    (hconnect : ∀ proxy target failed, (run.connect proxy target).attempt = .failed failed →
      SeamCode failed.code)
    (hcapture : ∀ target via failed, run.capturer target via = .failed failed →
      SeamCode failed.code)
    (hprotocol : ∀ target via chain, run.capturer target via = .ok chain →
      NotInherited chain.negotiatedProtocol)
    (hm : finding ∈ run.report) : ClosedText finding := by
  apply @Emitted.closedText ext finding
  unfold Run.report at hm
  simp only [List.mem_append] at hm
  rcases hm with ((hm | hm) | hm) | hm
  · exact emitted_of_mem_runDns hdns hm
  · exact emitted_of_mem_runEgress hegress hm
  · exact emitted_of_mem_runProxy hfetch hconnect hm
  · unfold Run.tlsFindings at hm
    cases htls : Tls.runTls ext run.profile run.publicRootPems run.capturer run.env run.now with
    | none =>
      rw [htls] at hm
      exact absurd hm List.not_mem_nil
    | some result =>
      rw [htls] at hm
      exact emitted_of_mem_runTls hcapture hprotocol htls hm

end Run

section Constructor

/-- What is said of the protocol of a chain that parses is in its evaluation. -/
lemma Tls.mem_evaluateChain_of_protocol {chain : List X509Certificate} {capture : CapturedChain}
    {target : ChainTarget} {policy : TlsPolicy} {options : ChainEvaluationOptions}
    {evaluation : ChainEvaluation} (hparse : parseChain ext capture.chainDer = some chain)
    (hne : chain ≠ [])
    (he : evaluateChain ext capture target policy options = some evaluation)
    (hm : finding ∈ protocolFindings target capture policy) : finding ∈ evaluation.findings := by
  unfold evaluateChain at he
  split_ifs at he with hempty
  · rw [List.isEmpty_iff.mp hempty] at hparse
    cases hparse
    exact absurd rfl hne
  · rw [hparse] at he
    obtain ⟨leaf, rest, rfl⟩ := List.exists_cons_of_ne_nil hne
    obtain ⟨verdict, -, he⟩ := Option.bind_eq_some_iff.mp he
    obtain ⟨root, -, he⟩ := Option.bind_eq_some_iff.mp he
    cases he
    simp only [List.mem_append]
    exact Or.inl (Or.inl (Or.inr hm))

/-- A chain of one certificate, over a protocol its peer calls by this name. -/
def namedProtocol (name : String) : Tls.CapturedChain where
  chainDer := [fixtureRoot.rawData]
  negotiatedProtocol := some name
  negotiatedCipher := none
  requestedSni := "api.example.com"
  via := .direct

/-- That chain, on a machine where nothing else happens. -/
def namedProtocolInputs (name : String) : TextInputs where
  profile := { name := "one", endpoints := [], runtimes := [] }
  dnsResolver _ := .ok [] 0
  dohProber _ := .ok [] none none {}
  egressProber _ := .ok [] none none {}
  proxyContext :=
    { env := fun _ => none
      resolver := fun _ => .ok [] 0
      fetcher := fun _ => .ok "" 0
      connect := fun _ _ => ⟨.ok 200 {}, none⟩
      sandbox := fun _ => .direct
      myAddress := "127.0.0.1"
      now := fun _ => 0 }
  tlsTarget := ⟨"api.example.com", 443, true⟩
  path := .direct
  proxy := none
  failedCapture := ⟨.connect, some "ECONNREFUSED", none⟩
  capture := namedProtocol name
  chainTarget := ⟨"api.example.com", true⟩
  policy := {}
  options := ⟨fixtureIndex, 0⟩
  direct := none
  viaProxy := none
  name := "api.example.com"
  crossCheck := ⟨[], [], [], [], [], []⟩

lemma seamCodes_namedProtocolInputs (name : String) : SeamCodes (namedProtocolInputs name) where
  dns _ _ h := by cases h
  egress _ _ h := by cases h
  fetch _ _ h := by cases h
  connect _ _ _ h := by cases h
  capture found h := by
    cases h
    exact Or.inl (by decide)
  osStore _ hm := absurd hm List.not_mem_nil
  runtimeStore _ hm := absurd hm List.not_mem_nil

/-- A version of the protocol by its own name. -/
theorem textClosed_iff_tls13 :
    TextClosed fixtureExternals (namedProtocolInputs "TLSv1.3") ↔
      ∀ name, (namedProtocolInputs "TLSv1.3").capture.negotiatedProtocol = some name →
        name ∉ Tls.objectMembers :=
  textClosed_iff fixtureExternals _ (seamCodes_namedProtocolInputs "TLSv1.3")

/-- A peer that calls its protocol `constructor` is quoted word for word, and its protocol is not
called unknown. -/
theorem constructor_repeated :
    SeamCodes (namedProtocolInputs "constructor") ∧
      ¬TextClosed fixtureExternals (namedProtocolInputs "constructor") ∧
      (∃ evaluation, Tls.evaluateChain fixtureExternals (namedProtocol "constructor")
          ⟨"api.example.com", true⟩ {} ⟨fixtureIndex, 0⟩ = some evaluation ∧
        ∃ finding ∈ evaluation.findings, finding.id = "tls.protocol-below-minimum" ∧
          ⟨"protocol", "constructor", .text⟩ ∈ finding.evidence) ∧
      ∀ finding ∈ Tls.protocolFindings ⟨"api.example.com", true⟩ (namedProtocol "constructor") {},
        finding.id ≠ "tls.protocol-unknown" := by
  have hinherited : "constructor" ∈ Tls.objectMembers := by decide
  obtain ⟨finding, hfindings, hid, hevidence, hvalue⟩ := @Tls.protocolFindings_inherited
    ⟨"api.example.com", true⟩ (namedProtocol "constructor") {} "constructor" rfl hinherited
  have hm : finding ∈ Tls.protocolFindings ⟨"api.example.com", true⟩
      (namedProtocol "constructor") {} := hfindings ▸ List.mem_singleton_self _
  refine ⟨seamCodes_namedProtocolInputs _, fun hclosed => ?_, ?_, ?_⟩
  · exact absurd (hclosed.repeated finding hm _ hvalue) (by decide)
  · obtain ⟨evaluation, he⟩ := Option.isSome_iff_exists.mp (@Tls.evaluateChain_isSome
      fixtureExternals (namedProtocol "constructor") ⟨"api.example.com", true⟩ {} ⟨fixtureIndex, 0⟩)
    have hparse : Tls.parseChain fixtureExternals (namedProtocol "constructor").chainDer =
        some [fixtureRoot] := by
      simp [Tls.parseChain, namedProtocol, fixtureExternals]
    exact ⟨evaluation, he, finding,
      Tls.mem_evaluateChain_of_protocol hparse (by simp) he hm, hid, hevidence⟩
  · rw [hfindings]
    intro other hother
    rw [List.mem_singleton.mp hother, hid]
    decide

end Constructor
end Portcall
