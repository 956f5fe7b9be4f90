import Portcall.Net.Codes
import Portcall.Run.Emission

/-! What text evidence may say: it crosses redaction as it is, so every value of it is a word of
this program's own, or a machine code under the label `code`. -/
namespace Portcall
variable {ext : Externals} {finding : Finding}

section Words

/-- The words this program writes itself, one constructor for each union and for the literals. -/
inductive Word : String → Prop where
  | resolveFailure (failure : Dns.ResolveFailure) : Word failure.text
  | dohOutcome (outcome : Dns.DohOutcome) : Word outcome.text
  | privateAddress : Word "private"
  | attemptPhase (phase : AttemptPhase) : Word phase.text
  | capturePhase (phase : TlsCapturePhase) : Word phase.text
  | via (via : Via) : Word via.text
  | authScheme (scheme : AuthScheme) : Word scheme.text
  | noProxyIssue (issue : Proxy.NoProxyEntryIssue) : Word issue.text
  | inconclusive (kind : Proxy.InconclusiveKind) : Word kind.text
  | rootReason (reason : Tls.RootReason) : Word reason.text
  | protocol {name : String} (h : name ∈ Egress.tlsProtocols) : Word name
  | minVersion (version : TlsVersion) : Word version.text
  | storeKind (kind : TrustStoreKind) : Word kind.text
  | storeFailure (failure : TrustStoreFailure) : Word failure.text
  | runtimeStoreKind (kind : RuntimeStoreKind) : Word kind.text
  | runtimeStoreFailure (failure : RuntimeStoreFailure) : Word failure.text
  | format (format : KeystoreFormat) : Word format.text
  | strength (strength : Truststore.MatchStrength) : Word strength.text
  | noCode : Word Portcall.noCode
  | partialRead : Word "partial"
  | encryptedEntries : Word "encrypted-entries"

attribute [simp] Word.resolveFailure Word.dohOutcome Word.privateAddress Word.attemptPhase
  Word.capturePhase Word.via Word.authScheme Word.noProxyIssue Word.inconclusive Word.rootReason
  Word.minVersion Word.storeKind Word.storeFailure Word.runtimeStoreKind Word.runtimeStoreFailure
  Word.format Word.strength Word.noCode Word.partialRead Word.encryptedEntries

/-- `[A-Z][A-Z0-9]{1,14}` -/
def isSignalName (name : List Char) : Bool :=
  match name with
  | [] => false
  | first :: rest =>
    'A' ≤ first && first ≤ 'Z' &&
      rest.all (fun c => ('A' ≤ c && c ≤ 'Z') || Text.isDigit c) &&
      1 ≤ rest.length && rest.length ≤ 14

/-- The codes of a store's reader: how its child ended, or whose clock ran out. -/
def isStoreCode (code : String) : Bool :=
  (Text.startsWith code "exit:" &&
      let digits := code.toList.drop 5
      1 ≤ digits.length && digits.length ≤ 5 && digits.all Text.isDigit) ||
    (Text.startsWith code "signal:" && isSignalName (code.toList.drop 7)) ||
    code = "run-signal" || code = "budget-exhausted"

/-- A code that says nothing but which error it is. -/
def MachineText (code : String) : Prop :=
  isMachineCode code = true ∨ (∃ status : ℕ, code = "HTTP_" ++ toString status) ∨
    isStoreCode code = true

/-- The codes a seam may hand over: none, or one of those. -/
def SeamCode (code : Option String) : Prop := ∀ found, code = some found → MachineText found

/-- A peer's protocol name is not one that every object has a member of. -/
def NotInherited (name : Option String) : Prop :=
  ∀ found, name = some found → found ∉ Tls.objectMembers

/-- Evidence that gives nothing away as text. -/
def ClosedItem (item : Evidence) : Prop :=
  item.kind = .text → Word item.value ∨ item.label = "code" ∧ MachineText item.value

def ClosedText (finding : Finding) : Prop := ∀ item ∈ finding.evidence, ClosedItem item

/-- No word of the program is the name of an inherited member. -/
theorem Word.not_mem_objectMembers {word : String} (h : Word word) : word ∉ Tls.objectMembers := by
  cases h with
  | privateAddress | noCode | partialRead | encryptedEntries => decide
  | protocol h =>
    intro hm
    revert h
    have hall : ∀ name ∈ Tls.objectMembers, name ∉ Egress.tlsProtocols := by decide
    exact hall word hm
  | resolveFailure failure => cases failure <;> decide
  | dohOutcome outcome => cases outcome <;> decide
  | attemptPhase phase => cases phase <;> decide
  | capturePhase phase => cases phase <;> decide
  | via via => cases via <;> decide
  | authScheme scheme => cases scheme <;> decide
  | noProxyIssue issue => cases issue <;> decide
  | inconclusive kind => cases kind <;> decide
  | rootReason reason => cases reason <;> decide
  | minVersion version => cases version <;> decide
  | storeKind kind => cases kind <;> decide
  | storeFailure failure => cases failure <;> decide
  | runtimeStoreKind kind => cases kind <;> decide
  | runtimeStoreFailure failure => cases failure <;> decide
  | format format => cases format <;> decide
  | strength strength => cases strength <;> decide

lemma closedItem_code {code : Option String} (h : SeamCode code) :
    ClosedItem ⟨"code", code.getD noCode, .text⟩ := by
  intro _
  cases code with
  | none => exact Or.inl .noCode
  | some code => exact Or.inr ⟨rfl, h code rfl⟩

lemma closedItem_word {label word : String} (h : Word word) : ClosedItem ⟨label, word, .text⟩ :=
  fun _ => Or.inl h

/-- Evidence of any other kind says nothing as text. -/
lemma closedItem_of_kind {item : Evidence} (h : decide (item.kind = .text) = false) :
    ClosedItem item :=
  fun htext => absurd htext (of_decide_eq_false h)

end Words

section Builders

lemma Dns.closedText_resolveFailed (target : ProfileHost) (failure : ResolveFailure)
    {code : Option String} (h : SeamCode code) : ClosedText (resolveFailed target failure code) := by
  simp only [ClosedText, resolveFailed, List.forall_mem_cons]
  exact ⟨closedItem_of_kind rfl, closedItem_word (.resolveFailure failure), closedItem_code h,
    List.forall_mem_nil _⟩

lemma Dns.closedText_verdict (target : ProfileHost) (outcome : DnsOutcome)
    (h : ∀ failed, outcome = .failed failed → SeamCode failed.code) :
    ClosedText (verdict target outcome) := by
  cases outcome with
  | failed outcome =>
    rw [verdict]
    split_ifs
    · simp [ClosedText, ClosedItem, aborted, host]
    · exact closedText_resolveFailed target _ (h outcome rfl)
  | ok addresses elapsedMs =>
    rw [verdict]
    split
    · exact closedText_resolveFailed target _ nofun
    · split
      · simp [ClosedText, ClosedItem, sinkholed, host]
      · split <;> simp [ClosedText, ClosedItem, splitHorizon, host, addressEvidence, or_imp,
          forall_and]

lemma Dns.closedText_dohFinding (name : String) (attempt : EndpointAttempt) :
    ClosedText (dohFinding name attempt) := by
  unfold dohFinding ClosedText
  dsimp only
  intro item hm
  rcases List.mem_append.mp hm with hm | hm
  · rcases List.mem_cons.mp hm with rfl | hm
    · exact closedItem_of_kind rfl
    · rw [List.mem_singleton.mp hm]
      exact closedItem_word (.dohOutcome _)
  · split_ifs at hm
    · obtain ⟨tlsMs, -, rfl⟩ := Option.map_eq_some_iff.mp (Option.mem_toList.mp hm)
      exact closedItem_of_kind rfl
    · exact absurd hm List.not_mem_nil

lemma Egress.closedItem_whereEvidence (endpoint : Endpoint) :
    ∀ item ∈ whereEvidence endpoint, ClosedItem item := by
  simp [whereEvidence, ClosedItem]

lemma Egress.closedItem_statusEvidence (status : Option ℕ) :
    ∀ item ∈ statusEvidence status, ClosedItem item := by
  cases status <;> simp [statusEvidence, ClosedItem]

lemma Egress.closedText_httpError (endpoint : Endpoint) (status : Option ℕ) :
    ClosedText (httpError endpoint status) := by
  simp only [ClosedText, httpError, List.forall_mem_append]
  exact ⟨closedItem_whereEvidence endpoint, closedItem_statusEvidence status⟩

lemma Egress.closedText_succeeded (endpoint : Endpoint) (tlsProtocol : Option String)
    (status : Option ℕ) (timing : AttemptTiming) :
    ClosedText (succeeded endpoint tlsProtocol status timing) := by
  unfold succeeded
  split_ifs
  · exact closedText_httpError endpoint status
  · simp only [ClosedText, List.forall_mem_append]
    refine ⟨⟨⟨closedItem_whereEvidence endpoint, closedItem_statusEvidence status⟩, ?_⟩, ?_⟩
    · intro item hm
      obtain ⟨protocol, hprotocol, rfl⟩ := Option.map_eq_some_iff.mp (Option.mem_toList.mp hm)
      exact closedItem_word (.protocol (by simpa using (Option.filter_eq_some_iff.mp hprotocol).2))
    · simp [ClosedItem]

lemma Egress.closedText_failed (endpoint : Endpoint) {attempt : FailedAttempt}
    (h : SeamCode attempt.code) : ClosedText (failed endpoint attempt) := by
  unfold failed
  dsimp only
  have hcode : ∀ item ∈ [Evidence.mk "code" (attempt.code.getD noCode) .text],
      ClosedItem item := by
    simpa only [List.forall_mem_singleton] using closedItem_code h
  have hphase : ∀ item ∈ [Evidence.mk "phase" attempt.phase.text .text], ClosedItem item := by
    simpa only [List.forall_mem_singleton] using closedItem_word (.attemptPhase attempt.phase)
  cases classifyFailed attempt with
  | dns | refused | unreachable | tls | ok | unclassified =>
    exact List.forall_mem_append.mpr ⟨closedItem_whereEvidence endpoint, hcode⟩
  | reset => exact List.forall_mem_append.mpr ⟨closedItem_whereEvidence endpoint, hphase⟩
  | timeout =>
    refine List.forall_mem_append.mpr ⟨closedItem_whereEvidence endpoint, ?_⟩
    exact List.forall_mem_cons.mpr ⟨closedItem_word (.attemptPhase attempt.phase),
      by simp [ClosedItem]⟩
  | http => exact closedText_httpError endpoint attempt.status

lemma Egress.closedText_judge (endpoint : Endpoint) (attempt : EndpointAttempt)
    (h : ∀ failed, attempt = .failed failed → SeamCode failed.code) :
    ClosedText (judge endpoint attempt) := by
  cases attempt with
  | ok addresses tlsProtocol status timing =>
    exact closedText_succeeded endpoint tlsProtocol status timing
  | failed attempt =>
    rw [judge]
    split_ifs
    · exact closedItem_whereEvidence endpoint
    · exact closedText_failed endpoint (h attempt rfl)

lemma Proxy.closedItem_proxyEvidence (members : ProxyCluster) :
    ∀ item ∈ proxyEvidence members, ClosedItem item := by
  refine List.forall_mem_append.mpr ⟨by simp [ClosedItem], ?_⟩
  intro item hm
  obtain ⟨target, -, hm⟩ := List.mem_flatMap.mp hm
  revert hm
  simp +contextual [ClosedItem, or_imp]

lemma Proxy.closedText_connectVerdict (members : ProxyCluster)
    (h : members.code = noCode ∨ SeamCode (some members.code)) :
    ClosedText (connectVerdictFinding members) := by
  have hevidence := closedItem_proxyEvidence members
  have hcode : ∀ item ∈ [Evidence.mk "code" members.code .text], ClosedItem item := by
    rw [List.forall_mem_singleton]
    rcases h with h | h
    · rw [h]
      exact closedItem_word .noCode
    · exact closedItem_code h
  unfold connectVerdictFinding
  dsimp only
  cases members.verdict with
  | aborted => exact hevidence
  | measured verdict =>
    cases verdict with
    | established | timeout | reset => exact hevidence
    | authRequired =>
      refine List.forall_mem_append.mpr ⟨hevidence, ?_⟩
      exact List.forall_mem_singleton.mpr (closedItem_word (.authScheme _))
    | rejected | dns | refused | unreachable | unclassified =>
      exact List.forall_mem_append.mpr ⟨hevidence, hcode⟩

lemma Tls.closedItem_whereEvidence (target : TlsTarget) (path : Via) (proxy : Option HostPort) :
    ∀ item ∈ whereEvidence target path proxy, ClosedItem item := by
  cases path <;> cases proxy <;> simp [whereEvidence, ClosedItem]

lemma Tls.closedText_captureFailed (target : TlsTarget) (path : Via) (proxy : Option HostPort)
    {outcome : FailedCapture} (h : SeamCode outcome.code) :
    ClosedText (captureFailed target path proxy outcome) := by
  have hwhere := closedItem_whereEvidence target path proxy
  unfold captureFailed
  split
  · exact hwhere
  · refine List.forall_mem_append.mpr ⟨hwhere, ?_⟩
    exact List.forall_mem_singleton.mpr (closedItem_word (.capturePhase _))
  · exact List.forall_mem_append.mpr ⟨hwhere, List.forall_mem_singleton.mpr (closedItem_code h)⟩

lemma Tls.closedText_rootFindings {target : ChainTarget} {capture : CapturedChain}
    {chain : List X509Certificate} {verdict : RootVerdict} {policy : TlsPolicy}
    {roots : CertificateIndex} {findings : List Finding}
    (h : rootFindings target capture chain verdict policy roots = some findings)
    (hm : finding ∈ findings) : ClosedText finding := by
  unfold rootFindings at h
  cases hclass : verdict.rootClass with
  | «public» =>
    rw [hclass] at h
    cases h
    obtain ⟨matched, -, rfl⟩ := Option.map_eq_some_iff.mp (Option.mem_toList.mp hm)
    simp [ClosedText, ClosedItem, publicRoot, host, via, count]
  | «private» =>
    rw [hclass] at h
    obtain ⟨found, hfound, rfl⟩ := Option.map_eq_some_iff.mp h
    obtain ⟨top, -, rfl⟩ := Option.map_eq_some_iff.mp hfound
    rw [List.mem_singleton.mp hm]
    cases chain.head? <;>
      simp [ClosedText, ClosedItem, host, via, subject, issuer, serial, count]
  | indeterminate =>
    rw [hclass] at h
    obtain ⟨found, hfound, rfl⟩ := Option.map_eq_some_iff.mp h
    obtain ⟨top, -, rfl⟩ := Option.map_eq_some_iff.mp hfound
    rw [List.mem_singleton.mp hm]
    simp [ClosedText, ClosedItem, host, via, issuer, count]

lemma Tls.mem_of_protocolRank {name : String} {rank : Rank} (h : protocolRank name = some rank)
    (hname : name ∉ objectMembers) : name ∈ Egress.tlsProtocols := by
  by_contra hn
  simp only [Egress.tlsProtocols, List.mem_cons, List.not_mem_nil, or_false, not_or] at hn
  obtain ⟨h0, h1, h2, h3, h4⟩ := hn
  rw [protocolRank, if_neg hname] at h
  · cases h
  · exact h0
  · exact h1
  · exact h2
  · exact h3
  · exact h4

lemma Tls.closedText_protocolFindings {target : ChainTarget} {capture : CapturedChain}
    {policy : TlsPolicy} (hprotocol : NotInherited capture.negotiatedProtocol)
    (hm : finding ∈ protocolFindings target capture policy) : ClosedText finding := by
  unfold protocolFindings at hm
  cases hrank : capture.negotiatedProtocol.bind protocolRank with
  | none =>
    rw [hrank] at hm
    rw [List.mem_singleton.mp hm]
    simp [ClosedText, ClosedItem, host, via]
  | some rank =>
    obtain ⟨name, hname, hrank'⟩ := Option.bind_eq_some_iff.mp hrank
    have hword := Word.protocol (mem_of_protocolRank hrank' (hprotocol name hname))
    rw [hrank] at hm
    dsimp only at hm
    split at hm
    · rw [List.mem_singleton.mp hm]
      simp [ClosedText, ClosedItem, host, via, hname, hword]
    · rw [List.mem_singleton.mp hm]
      simp [ClosedText, ClosedItem, host, via, hname, hword]

lemma Tls.closedText_chainNotYetValid (target : ChainTarget) (capture : CapturedChain)
    (early : ValidityWindow) (now : ℤ) :
    ClosedText (chainNotYetValid target capture early now) := by
  simp only [ClosedText, chainNotYetValid, List.forall_mem_cons]
  exact ⟨closedItem_of_kind rfl, closedItem_word (.via _), closedItem_of_kind rfl,
    closedItem_of_kind rfl, closedItem_of_kind rfl, List.forall_mem_nil _⟩

lemma Tls.closedText_chainExpired (target : ChainTarget) (capture : CapturedChain)
    (earliest : ValidityWindow) (remaining : ℤ) :
    ClosedText (chainExpired target capture earliest remaining) := by
  simp only [ClosedText, chainExpired, List.forall_mem_cons]
  exact ⟨closedItem_of_kind rfl, closedItem_word (.via _), closedItem_of_kind rfl,
    closedItem_of_kind rfl, closedItem_of_kind rfl, List.forall_mem_nil _⟩

lemma Tls.closedText_chainExpiringSoon (target : ChainTarget) (capture : CapturedChain)
    (earliest : ValidityWindow) (remaining : ℤ) :
    ClosedText (chainExpiringSoon target capture earliest remaining) := by
  simp only [ClosedText, chainExpiringSoon, List.forall_mem_cons]
  exact ⟨closedItem_of_kind rfl, closedItem_word (.via _), closedItem_of_kind rfl,
    closedItem_of_kind rfl, closedItem_of_kind rfl, closedItem_of_kind rfl, List.forall_mem_nil _⟩

lemma Tls.closedText_validityFindings {target : ChainTarget} {capture : CapturedChain}
    {chain : List X509Certificate} {now : ℤ}
    (hm : finding ∈ validityFindings target capture chain now) : ClosedText finding := by
  rcases List.mem_append.mp hm with hm | hm
  · obtain ⟨window, -, rfl⟩ := Option.map_eq_some_iff.mp (Option.mem_toList.mp hm)
    exact closedText_chainNotYetValid target capture window now
  · obtain ⟨window, -, h⟩ := Option.bind_eq_some_iff.mp (Option.mem_toList.mp hm)
    dsimp only at h
    split_ifs at h
    · cases h
      exact closedText_chainExpired target capture window _
    · cases h
      exact closedText_chainExpiringSoon target capture window _

lemma Tls.closedText_nameFindings {target : ChainTarget} {capture : CapturedChain}
    {leaf : X509Certificate} (hm : finding ∈ nameFindings target capture ext leaf) :
    ClosedText finding := by
  unfold nameFindings at hm
  split at hm
  · exact absurd hm List.not_mem_nil
  split at hm
  · rw [List.mem_singleton.mp hm]
    simp [ClosedText, ClosedItem, leafNoSan, host, via, subject, issuer]
  · split at hm
    · exact absurd hm List.not_mem_nil
    · rw [List.mem_singleton.mp hm]
      refine List.forall_mem_append.mpr ⟨List.forall_mem_append.mpr ⟨?_, ?_⟩, ?_⟩
      · simp [ClosedItem, host, via]
      · intro item hm
        obtain ⟨name, -, rfl⟩ := List.mem_map.mp hm
        exact closedItem_of_kind rfl
      · simp [ClosedItem, subject, count]

lemma Tls.closedItem_interceptionEvidence (label : String) (capture : CapturedChain) :
    ∀ item ∈ interceptionEvidence ext label capture, ClosedItem item := by
  unfold interceptionEvidence
  cases parseOne ext capture.chainDer.head? <;> simp [ClosedItem, count]

lemma Tls.closedText_compareChains {direct viaProxy : Option CapturedChain} {name : String}
    (hm : finding ∈ compareChains ext direct viaProxy name) : ClosedText finding := by
  unfold compareChains at hm
  split at hm
  · split at hm
    · have hhost : ClosedItem (host name) := closedItem_of_kind rfl
      split at hm
      · rw [List.mem_singleton.mp hm]
        exact List.forall_mem_cons.mpr ⟨hhost, closedItem_interceptionEvidence _ _⟩
      · rw [List.mem_singleton.mp hm]
        exact List.forall_mem_append.mpr ⟨List.forall_mem_cons.mpr ⟨hhost,
          closedItem_interceptionEvidence _ _⟩, closedItem_interceptionEvidence _ _⟩
    · exact absurd hm List.not_mem_nil
  · exact absurd hm List.not_mem_nil

lemma closedItem_map_toList {label : String} {kind : EvidenceKind} {value : Option String}
    (h : kind ≠ .text) :
    ∀ item ∈ (value.map fun value => Evidence.mk label value kind).toList, ClosedItem item := by
  intro item hm
  obtain ⟨value, -, rfl⟩ := Option.map_eq_some_iff.mp (Option.mem_toList.mp hm)
  exact closedItem_of_kind (decide_eq_false h)

lemma Truststore.closedText_readTimeout {store : TrustStoreOutcome} (h : SeamCode store.code)
    (ceiling : Option ℕ) : ClosedText (readTimeoutFinding store ceiling) := by
  simp only [ClosedText, readTimeoutFinding, List.forall_mem_append, List.forall_mem_singleton]
  refine ⟨⟨⟨?_, ?_⟩, ?_⟩, closedItem_code h⟩
  · simp [ClosedItem]
  · split <;> simp [ClosedItem]
  · cases store.readMs <;> simp [ClosedItem]

lemma Truststore.closedText_read {store : TrustStoreOutcome} {parsed : StoreAnchors}
    {keys : List String} : ClosedText (readFinding store parsed keys) := by
  simp only [ClosedText, readFinding, List.forall_mem_append]
  refine ⟨⟨⟨?_, ?_⟩, ?_⟩, ?_⟩
  · simp [ClosedItem]
  · cases store.readMs <;> simp [ClosedItem]
  · simp [ClosedItem]
  · split_ifs <;> simp [ClosedItem]

lemma Truststore.closedText_storeFinding {commands : List TrustStoreCommand} {keys : List String}
    {store : TrustStoreOutcome} (hcode : SeamCode store.code)
    (h : storeFinding ext commands keys store = some finding) : ClosedText finding := by
  unfold storeFinding at h
  split at h
  · cases h
    exact closedText_read
  · cases h
    exact closedText_readTimeout hcode _
  · cases h
    simp [ClosedText, ClosedItem, abortedFinding]
  · obtain ⟨row, -, rfl⟩ := Option.map_eq_some_iff.mp h
    simp only [ClosedText, unreadableFinding, List.forall_mem_cons]
    exact ⟨closedItem_word (.storeKind _), closedItem_of_kind (by simp),
      closedItem_word (.storeFailure _), closedItem_code hcode, List.forall_mem_nil _⟩

lemma Truststore.closedText_extraCa {runtime : Runtime} {outcome : RuntimeStoreOutcome}
    (hcode : SeamCode outcome.code) (hm : finding ∈ extraCaFindings runtime outcome) :
    ClosedText finding := by
  unfold extraCaFindings at hm
  dsimp only at hm
  have hstore : ∀ item ∈ (⟨"store", outcome.kind.text, .text⟩ : Evidence) ::
      (outcome.locator.map fun locator => Evidence.mk "runtime store" locator .path).toList,
      ClosedItem item :=
    List.forall_mem_cons.mpr
      ⟨closedItem_word (.runtimeStoreKind _), closedItem_map_toList (by decide)⟩
  split at hm
  · exact absurd hm List.not_mem_nil
  · rw [List.mem_singleton.mp hm]
    exact List.forall_mem_append.mpr ⟨hstore, by simp [ClosedItem]⟩
  · rw [List.mem_singleton.mp hm]
    refine List.forall_mem_append.mpr ⟨List.forall_mem_append.mpr ⟨hstore, ?_⟩, ?_⟩
    · exact List.forall_mem_singleton.mpr (closedItem_word (.runtimeStoreFailure _))
    · intro item hm
      obtain ⟨code, hc, rfl⟩ := Option.map_eq_some_iff.mp (Option.mem_toList.mp hm)
      exact fun _ => Or.inr ⟨rfl, hcode code hc⟩

lemma Truststore.closedText_javaStoreUnreadable (outcome : RuntimeStoreOutcome) :
    ClosedText (javaStoreUnreadableFinding outcome) := by
  unfold javaStoreUnreadableFinding ClosedText
  dsimp only
  simp only [List.forall_mem_append, List.forall_mem_cons]
  refine ⟨⟨closedItem_map_toList (by decide), closedItem_word ?_, closedItem_word ?_,
    List.forall_mem_nil _⟩, ?_⟩
  · cases outcome.format with
    | none => exact .noCode
    | some format => exact .format format
  · cases outcome.failure with
    | some failure => exact .runtimeStoreFailure failure
    | none =>
      rw [Option.map_none, Option.getD_none]
      split_ifs
      · exact .encryptedEntries
      · exact .runtimeStoreFailure .noCertificates
  · split_ifs <;> simp [ClosedItem]

lemma Truststore.closedText_outcomeFindings {runtime : Runtime} {outcome : RuntimeStoreOutcome}
    (hcode : SeamCode outcome.code) (hm : finding ∈ outcomeFindings runtime outcome) :
    ClosedText finding := by
  rcases List.mem_append.mp hm with hm | hm
  · split_ifs at hm
    · exact closedText_extraCa hcode hm
    · exact absurd hm List.not_mem_nil
  · split_ifs at hm
    · rw [List.mem_singleton.mp hm]
      exact closedText_javaStoreUnreadable outcome
    · exact absurd hm List.not_mem_nil

lemma Truststore.closedText_missingRoot (set : TrustSet) (missing : List Anchor)
    (correlation : Option Correlation) :
    ClosedText (missingRootFinding set missing correlation) := by
  simp only [ClosedText, missingRootFinding, List.forall_mem_append]
  refine ⟨⟨⟨⟨?_, ?_⟩, closedItem_map_toList (by decide)⟩, ?_⟩, ?_⟩
  · simp [ClosedItem]
  · intro item hm
    obtain ⟨anchor, -, rfl⟩ := List.mem_map.mp hm
    exact closedItem_of_kind rfl
  · split_ifs <;> simp [ClosedItem]
  · cases correlation <;> simp [ClosedItem]

lemma Truststore.closedText_rootsPresent (set : TrustSet) (coverage : OsCoverage) :
    ClosedText (rootsPresentFinding set coverage) := by
  simp only [ClosedText, rootsPresentFinding, List.forall_mem_append]
  refine ⟨⟨⟨closedItem_map_toList (by decide), by simp [ClosedItem]⟩, ?_⟩, ?_⟩
  · split_ifs <;> simp [ClosedItem]
  · split_ifs <;> simp [ClosedItem]

end Builders

/-- Every builder's text is closed, given codes from the seams and no inherited member's name. -/
theorem Emitted.closedText (h : Emitted ext SeamCode NotInherited finding) : ClosedText finding := by
  cases h with
  | lookup target outcome hcode => exact Dns.closedText_verdict target outcome hcode
  | slow =>
    simp only [ClosedText, Dns.slowResolution]
    simp [ClosedItem, Dns.host]
  | doh host attempt => exact Dns.closedText_dohFinding host attempt
  | egress endpoint attempt hcode => exact Egress.closedText_judge endpoint attempt hcode
  | noProxySyntax =>
    simp only [ClosedText, Proxy.noProxySyntaxFinding]
    simp [ClosedItem]
  | noProxyBypass =>
    simp only [ClosedText, Proxy.noProxyBypassFinding]
    simp [ClosedItem]
  | pacDirect =>
    simp only [ClosedText, Proxy.pacDirectFinding]
    simp [ClosedItem]
  | pacInconclusive =>
    simp only [ClosedText, Proxy.pacInconclusiveFinding]
    simp [ClosedItem]
  | noneConfigured => simp [ClosedText, Proxy.noneConfiguredFinding]
  | pacFetchFailed url outcome hcode =>
    exact List.forall_mem_cons.mpr ⟨closedItem_of_kind (by simp), List.forall_mem_cons.mpr
      ⟨closedItem_word (.attemptPhase _), List.forall_mem_singleton.mpr (closedItem_code hcode)⟩⟩
  | wpadUnusable outcome hcode =>
    exact List.forall_mem_cons.mpr ⟨closedItem_of_kind (by simp), List.forall_mem_cons.mpr
      ⟨closedItem_word (.attemptPhase _), List.forall_mem_singleton.mpr (closedItem_code hcode)⟩⟩
  | connect members hcode => exact Proxy.closedText_connectVerdict members hcode
  | captureFailed target path proxy outcome hcode =>
    exact Tls.closedText_captureFailed target path proxy hcode
  | chainEmpty =>
    simp only [ClosedText, Tls.chainEmpty]
    simp [ClosedItem, Tls.host, Tls.via]
  | chainUnparseable =>
    simp only [ClosedText, Tls.chainUnparseable]
    simp [ClosedItem, Tls.host, Tls.via, Tls.count]
  | root target capture hroot hm => exact Tls.closedText_rootFindings hroot hm
  | protocol target capture policy hprotocol hm =>
    exact Tls.closedText_protocolFindings hprotocol hm
  | validity target capture hm => exact Tls.closedText_validityFindings hm
  | name target capture hm => exact Tls.closedText_nameFindings hm
  | compared hm => exact Tls.closedText_compareChains hm
  | osStore hstore hcode => exact Truststore.closedText_storeFinding hcode hstore
  | unsupportedPlatform =>
    exact List.forall_mem_singleton.mpr (closedItem_word (.storeFailure .unsupportedPlatform))
  | runtimeStore hm hcode => exact Truststore.closedText_outcomeFindings hcode hm
  | platformVerifier =>
    exact List.forall_mem_singleton.mpr (closedItem_word (.runtimeStoreKind .platformVerifier))
  | storeNotFound runtime searched =>
    intro item hm
    obtain ⟨path, -, rfl⟩ := List.mem_map.mp hm
    exact closedItem_of_kind (by simp)
  | missingRoot set missing correlation =>
    exact Truststore.closedText_missingRoot set missing correlation
  | rootsPresent set coverage => exact Truststore.closedText_rootsPresent set coverage
  | indeterminate =>
    simp only [ClosedText, Truststore.indeterminateFinding]
    simp [ClosedItem]

end Portcall
