import Portcall.Library.Walk
import Portcall.Net.Tunnel

/-! Capturing the chain a peer presents, directly or through a proxy, with verification off: the
handshake is the last thing that happens on the connection. -/
namespace Portcall.Net
open Threads

section Chain
variable (certificates : List PeerCertificate)

/-- The bytes of the certificate at a place, if the object there is one. -/
def rawAt (place : ℕ) : Option (List UInt8) := (certificates[place]?).bind PeerCertificate.raw

def fingerprintAt (place : ℕ) : Option String :=
  (certificates[place]?).map PeerCertificate.fingerprint256

/-- The issuer of a certificate, when it is a certificate itself with a fingerprint not seen yet. -/
def nextIssuer (visited : List ℕ) (place : ℕ) : Option ℕ :=
  ((certificates[place]?).bind PeerCertificate.issuerCertificate).filter fun issuer =>
    (rawAt certificates issuer).isSome &&
      !(visited.map (fingerprintAt certificates)).contains (fingerprintAt certificates issuer)

/-- The places of the presented chain, from the peer's own certificate on. -/
def chainPlaces (peer : Option ℕ) : List ℕ :=
  match peer.filter fun place => (rawAt certificates place).isSome with
  | none => []
  | some place => Walk.walk (nextIssuer certificates) (certificates.length + 1) [] place

end Chain

/-- The presented chain, leaf first. -/
def chainDerOf (session : TlsSession) : List (List UInt8) :=
  (chainPlaces session.certificates session.peer).filterMap (rawAt session.certificates)

structure CaptureOptions where
  connectTimeoutMs : ℕ
  tlsTimeoutMs : ℕ
  deriving DecidableEq, Repr

section Programs
variable (ext : NetExternals) (options : CaptureOptions) (target : HostPort)

def failedCapture (phase : TlsCapturePhase) (error : Thrown) (signal : ℕ) :
    Prog NetOp TlsChainOutcome := do
  let (code, abortedBy) ← failure error signal
  return .failed { phase, code, abortedBy }

/-- What a handshake agreed on, as it is reported. -/
def capturedChain (session : TlsSession) : TlsChain where
  chainDer := chainDerOf session
  negotiatedProtocol := session.protocol
  negotiatedCipher := session.cipherStandardName.orElse fun _ => session.cipherName
  requestedSni := (servername ext target.host).getD ""

def handshake (socket : ℕ) : Prog NetOp TlsChainOutcome := do
  let signal ← Prog.call (.phaseSignal options.tlsTimeoutMs)
  let secure ← Prog.call (.tlsConnect socket (servername ext target.host) false)
  overSocket secure do
    let settled ← Prog.call (.secured secure signal)
    match settled with
    | .threw error => failedCapture .tls error signal
    | .done _ =>
      let session ← Prog.call (.session secure)
      return .ok (capturedChain ext target session)

def dialTarget (address : String) : Prog NetOp TlsChainOutcome := do
  let signal ← Prog.call (.phaseSignal options.connectTimeoutMs)
  let socket ← Prog.call (.netConnect address target.port)
  overSocket socket do
    let settled ← Prog.call (.connected socket signal)
    match settled with
    | .threw error => failedCapture .connect error signal
    | .done _ => handshake ext options target socket

def TunnelPhase.capture : TunnelPhase → TlsCapturePhase
  | .dns => .dns
  | .connect => .connect
  | .tunnel => .tunnel

/-- The tunnel's phases are the capture's; a tunnel that opened is closed here. -/
def captureVia (proxy : HostPort) : NetM TlsChainOutcome := do
  let tunnel ← openTunnel ext proxy target options.connectTimeoutMs
  match tunnel with
  | .failed failed =>
    return .failed { phase := failed.phase.capture, code := failed.code, abortedBy := failed.abortedBy }
  | .ok socket => Throws.lift (overSocket socket (handshake ext options target socket))

def captureDirect : NetM TlsChainOutcome := do
  let resolved ← resolveWithin ext options.connectTimeoutMs target.host
  match resolved with
  | .failed outcome =>
    let abortedBy ← Throws.lift (lookupSource outcome)
    return .failed { phase := .dns, code := outcome.code, abortedBy }
  | .ok [] _ => return .failed { phase := .dns, code := some "ENODATA", abortedBy := none }
  | .ok (address :: _) _ => Throws.lift (dialTarget ext options target address)

def capture (viaProxy : Option HostPort) : NetM TlsChainOutcome := do
  assertAllowed target.host target.port
  match viaProxy with
  | some proxy => captureVia ext options target proxy
  | none => captureDirect ext options target

end Programs

/-- What a capture may come back with: a chain some session presented, asked for by name, or a
phase it may have died in. -/
def Captured (ext : NetExternals) (target : HostPort) (viaProxy : Option HostPort)
    (outcome : TlsChainOutcome) (s : NetState) : Prop :=
  match outcome with
  | .ok chain => ∃ session, chain = capturedChain ext target session
  | .failed failed => Blames failed.code failed.abortedBy s ∧
    (failed.phase = .tunnel → viaProxy ≠ none)

section Rules
variable {ext : NetExternals} {options : CaptureOptions} {target : HostPort}
  {viaProxy : Option HostPort} {admits : NetState → HostPort → Prop} {halted : Prop}
  {s s' : NetState}

lemma Captured.mono {outcome : TlsChainOutcome} (h : Captured ext target viaProxy outcome s)
    (hle : s ≤ s') : Captured ext target viaProxy outcome s' := by
  cases outcome with
  | ok chain => exact h
  | failed failed => exact ⟨Blames.mono h.1 hle, h.2⟩

lemma safe_failedCapture {phase : TlsCapturePhase} {error : Thrown} {signal : ℕ}
    (hphase : phase ≠ .tunnel) :
    Safe (network ext) (Conduct ext admits halted) (failedCapture phase error signal)
      (Captured ext target viaProxy) s :=
  Safe.bind network_grows safe_failure fun _ _ _ hblame => safe_done fun t ht =>
    ⟨hblame t ht, fun htunnel => absurd htunnel hphase⟩

lemma safe_handshake {socket : ℕ} :
    Safe (network ext) (Conduct ext admits halted) (handshake ext options target socket)
      (Captured ext target viaProxy) s := by
  refine safe_call_bind fun s₁ _ => ⟨trivial, fun signal s₂ _ => ?_⟩
  refine safe_call_bind fun s₃ _ => ⟨trivial, fun secure s₄ _ => safe_overSocket ?_⟩
  refine safe_call_bind fun s₅ _ => ⟨trivial, fun settled s₆ _ => ?_⟩
  cases settled with
  | threw error => exact safe_failedCapture (by decide)
  | done value =>
    refine safe_call_bind fun s₇ _ => ⟨trivial, fun session s₈ _ => ?_⟩
    exact safe_done fun _ _ => ⟨session, rfl⟩

lemma safe_dialTarget {elapsedMs : ℕ} {address : String} {rest : List String} (hhalted : ¬halted)
    (hallowed : s.guard.isAllowed ext.toExternals target.host target.port = true)
    (hlooked : Looked ext target.host (.ok (address :: rest) elapsedMs) s) :
    Safe (network ext) (Conduct ext admits halted) (dialTarget ext options target address)
      (Captured ext target viaProxy) s := by
  obtain ⟨hip, hanswered⟩ := hlooked address List.mem_cons_self
  refine safe_call_bind fun s₁ h₁ => ⟨trivial, fun signal s₂ hreply => ?_⟩
  have h₂ := h₁.trans (network_grows.step hreply)
  refine safe_call_bind fun s₃ h₃ => ⟨⟨hhalted, hip, target.host, ?_, ?_⟩, fun socket s₄ _ =>
    safe_overSocket ?_⟩
  · exact NetState.answered_mono (h₂.trans h₃) hanswered
  · exact NetworkGuard.isAllowed_of_le (h₂.trans h₃).1 hallowed
  · refine safe_call_bind fun s₅ _ => ⟨trivial, fun settled s₆ _ => ?_⟩
    cases settled with
    | threw error => exact safe_failedCapture (by decide)
    | done value => exact safe_handshake

lemma holds_captureDirect (hhalted : halted → s.stopped = true)
    (hallowed : s.guard.isAllowed ext.toExternals target.host target.port = true) :
    Holds (network ext) (Conduct ext admits halted) (captureDirect ext options target)
      (fun outcome s' => Captured ext target viaProxy outcome s' ∧ (s.stopped = true →
        ∃ failed, outcome = .failed failed ∧ failed.phase = .dns ∧
          failed.abortedBy = some .runSignal)) s := by
  refine (holds_resolveWithin (NetworkGuard.isHostAllowed_of_isAllowed hallowed)).bind network_grows
    fun resolved s₁ h₁ hresolved => ?_
  obtain ⟨hlooked, hstopped⟩ := hresolved s₁ le_rfl
  match resolved with
  | .failed outcome =>
    refine Holds.bind network_grows (holds_lift network_grows (safe_lookupSource hlooked))
      fun abortedBy s₂ _ habortedBy => holds_pure fun t ht =>
        ⟨⟨(habortedBy t ht).1, fun htunnel => by cases htunnel⟩, fun hstop => ?_⟩
    obtain ⟨elapsedMs, houtcome⟩ := hstopped hstop
    cases houtcome
    exact ⟨_, rfl, rfl, (habortedBy t ht).2.2 (h₁.2.1 hstop) (by simp)⟩
  | .ok [] elapsedMs =>
    refine holds_pure fun t _ => ⟨⟨blames_code fun _ => isMachineCode_of_eq_enodata,
      fun htunnel => by cases htunnel⟩, fun hstop => ?_⟩
    obtain ⟨_, houtcome⟩ := hstopped hstop
    cases houtcome
  | .ok (address :: rest) elapsedMs =>
    have hrunning : ¬s.stopped = true := fun hstop => by
      obtain ⟨_, houtcome⟩ := hstopped hstop
      cases houtcome
    refine Holds.weaken network_grows (holds_lift network_grows (safe_dialTarget
      (fun hhalt => hrunning (hhalted hhalt)) (NetworkGuard.isAllowed_of_le h₁.1 hallowed)
      hlooked)) fun outcome t _ houtcome => ⟨houtcome, fun hstop => absurd hstop hrunning⟩

lemma holds_captureVia {proxy : HostPort} (hhalted : halted → s.stopped = true)
    (hadmits : ∀ s', s ≤ s' → admits s' proxy) :
    Holds (network ext) (Conduct ext admits halted) (captureVia ext options target proxy)
      (fun outcome s' => Captured ext target (some proxy) outcome s' ∧ (s.stopped = true →
        ∃ failed, outcome = .failed failed ∧ failed.phase = .dns ∧
          failed.abortedBy = some .runSignal)) s := by
  refine (holds_openTunnel hhalted hadmits).bind network_grows fun tunnel s₁ _ htunnel => ?_
  obtain ⟨-, hended⟩ := htunnel s₁ le_rfl
  cases tunnel with
  | failed failed =>
    refine holds_pure fun t ht => ⟨⟨(htunnel t ht).1, fun _ => by simp⟩, fun hstop => ?_⟩
    obtain ⟨found, hfound, hphase, hby⟩ := hended hstop
    cases hfound
    exact ⟨_, rfl, congrArg TunnelPhase.capture hphase, hby⟩
  | ok socket =>
    refine Holds.weaken network_grows (holds_lift network_grows
      (safe_overSocket safe_handshake)) fun outcome t _ houtcome => ⟨houtcome, fun hstop => ?_⟩
    obtain ⟨found, hfound, -⟩ := hended hstop
    cases hfound

/-- A capture of an admitted target, whatever path it takes. -/
theorem holds_capture (hhalted : halted → s.stopped = true)
    (hallowed : s.guard.isAllowed ext.toExternals target.host target.port = true)
    (hadmits : ∀ proxy, viaProxy = some proxy → ∀ s', s ≤ s' → admits s' proxy) :
    Holds (network ext) (Conduct ext admits halted) (capture ext options target viaProxy)
      (fun outcome s' => Captured ext target viaProxy outcome s' ∧ (s.stopped = true →
        ∃ failed, outcome = .failed failed ∧ failed.phase = .dns ∧
          failed.abortedBy = some .runSignal)) s := by
  refine (holds_assertAllowed hallowed).bind network_grows fun _ s₁ h₁ _ => ?_
  have hhalted₁ := fun hhalt => h₁.2.1 (hhalted hhalt)
  cases viaProxy with
  | none =>
    refine Holds.weaken network_grows (@holds_captureDirect ext options target none admits halted s₁
      hhalted₁ (NetworkGuard.isAllowed_of_le h₁.1 hallowed)) fun outcome t _ houtcome => ?_
    exact ⟨houtcome.1, fun hstop => houtcome.2 (h₁.2.1 hstop)⟩
  | some proxy =>
    refine Holds.weaken network_grows (holds_captureVia hhalted₁ fun s' hle =>
      hadmits proxy rfl s' (h₁.trans hle)) fun outcome t _ houtcome => ?_
    exact ⟨houtcome.1, fun hstop => houtcome.2 (h₁.2.1 hstop)⟩

end Rules

section Sockets
variable {ext : NetExternals} {options : CaptureOptions} {target : HostPort} {held : Set ℕ}

lemma owns_handshake {socket : ℕ} (h : socket ∈ held) :
    Owns socketLedger (handshake ext options target socket) held fun _ left => left = held := by
  refine owns_idle (fun _ => rfl) rfl (Set.empty_subset _) fun signal => ?_
  refine owns_opening (fun _ => rfl) rfl (Set.singleton_subset_iff.mpr h) fun secure hsecure => ?_
  refine owns_overSocket hsecure ?_
  refine owns_idle (fun _ => rfl) rfl
    (Set.singleton_subset_iff.mpr (Set.mem_insert _ _)) fun settled => ?_
  cases settled with
  | threw error => exact owns_failure.bind fun _ _ hleft => hleft
  | done value =>
    exact owns_idle (fun _ => rfl) rfl
      (Set.singleton_subset_iff.mpr (Set.mem_insert _ _)) fun session => rfl

lemma owns_dialTarget {address : String} :
    Owns socketLedger (dialTarget ext options target address) ∅ fun _ left => left = ∅ := by
  refine owns_idle (fun _ => rfl) rfl (Set.empty_subset _) fun signal => ?_
  refine owns_opening (fun _ => rfl) rfl (Set.empty_subset _) fun socket hsocket => ?_
  refine owns_overSocket hsocket ?_
  refine owns_idle (fun _ => rfl) rfl
    (Set.singleton_subset_iff.mpr (Set.mem_insert _ _)) fun settled => ?_
  cases settled with
  | threw error => exact owns_failure.bind fun _ _ hleft => hleft
  | done value => exact owns_handshake (Set.mem_insert _ _)

/-- A capture closes its sockets, the tunnel it was handed among them. -/
theorem closes_capture {viaProxy : Option HostPort} :
    Closes socketLedger (capture ext options target viaProxy) := by
  refine closes_assertAllowed.bind fun _ => ?_
  cases viaProxy with
  | none =>
    refine closes_resolveWithin.bind fun resolved => ?_
    match resolved with
    | .failed outcome =>
      exact Closes.bind (closes_lift owns_lookupSource) fun abortedBy => closes_pure _
    | .ok [] elapsedMs => exact closes_pure _
    | .ok (address :: rest) elapsedMs => exact closes_lift owns_dialTarget
  | some proxy =>
    refine Owns.bind owns_openTunnel fun result left hleft => ?_
    match result with
    | .error error =>
      obtain rfl : left = ∅ := hleft
      exact closes_throw error
    | .ok (.failed failed) =>
      obtain rfl : left = ∅ := hleft
      exact closes_pure _
    | .ok (.ok socket) =>
      obtain rfl : left = {socket} := hleft
      have hover := @owns_overSocket _ ∅ socket _ (Set.notMem_empty _)
        (@owns_handshake ext options target _ socket (Set.mem_insert _ _))
      rw [insert_empty_eq] at hover
      exact Owns.bind hover fun outcome left hleft => hleft

end Sockets

section Chain
variable {certificates : List PeerCertificate}

lemma nextIssuer_eq_some {visited : List ℕ} {place issuer : ℕ}
    (h : nextIssuer certificates visited place = some issuer) :
    (certificates[place]?).bind PeerCertificate.issuerCertificate = some issuer ∧
      (rawAt certificates issuer).isSome = true ∧
      ∀ other ∈ visited, fingerprintAt certificates other ≠ fingerprintAt certificates issuer := by
  obtain ⟨hissuer, hfilter⟩ := Option.filter_eq_some_iff.mp h
  simp only [Bool.and_eq_true, Bool.not_eq_true', List.contains_eq_mem, decide_eq_false_iff_not,
    List.mem_map, not_exists, not_and] at hfilter
  exact ⟨hissuer, hfilter⟩

lemma fresh_nextIssuer : Walk.Fresh (nextIssuer certificates) :=
  fun _ _ _ h hm => (nextIssuer_eq_some h).2.2 _ hm rfl

/-- `issuer` is the object that a certificate's own object points at. -/
def Issued (certificates : List PeerCertificate) (place issuer : ℕ) : Prop :=
  (certificates[place]?).bind PeerCertificate.issuerCertificate = some issuer

/-- The places of a whole chain as a peer presents it: from its own certificate on each is issued by
the next, none comes twice, and the last names no issuer that could be added. -/
structure Presents (certificates : List PeerCertificate) (peer : Option ℕ) (places : List ℕ) :
    Prop where
  leaf : places.head? = peer.filter fun place => (rawAt certificates place).isSome
  issued : places.IsChain (Issued certificates)
  raw : ∀ place ∈ places, (rawAt certificates place).isSome = true
  once : (places.map (fingerprintAt certificates)).Nodup
  ended : ∀ last issuer, places.getLast? = some last → Issued certificates last issuer →
    (rawAt certificates issuer).isSome = true →
    fingerprintAt certificates issuer ∈ places.map (fingerprintAt certificates)

lemma lt_of_raw {place : ℕ} (h : (rawAt certificates place).isSome = true) :
    place < certificates.length := by
  by_contra hge
  rw [rawAt, List.getElem?_eq_none (Nat.not_lt.mp hge)] at h
  cases h

section Walked
variable {place : ℕ} (h : (rawAt certificates place).isSome = true)
include h

lemma raw_of_mem_walk {fuel : ℕ} {visited : List ℕ} :
    ∀ other ∈ Walk.walk (nextIssuer certificates) fuel visited place,
      (rawAt certificates other).isSome = true :=
  Walk.forall_mem_walk (fun _ _ _ _ hnext => (nextIssuer_eq_some hnext).2.1) fuel visited place h

/-- There are fewer certificates than the walk has steps. -/
lemma length_walk_lt :
    (Walk.walk (nextIssuer certificates) (certificates.length + 1) [] place).length <
      certificates.length + 1 := by
  have hnodup := (Walk.walk_fresh (@fresh_nextIssuer certificates) (certificates.length + 1) []
    place List.not_mem_nil).1
  have hsub : Walk.walk (nextIssuer certificates) (certificates.length + 1) [] place ⊆
      List.range certificates.length := fun other hm =>
    List.mem_range.mpr (lt_of_raw (raw_of_mem_walk h other hm))
  have hle := (List.subperm_of_subset hnodup hsub).length_le
  rw [List.length_range] at hle
  omega

end Walked

/-- The fingerprints of a walk are as distinct as the choices make them. -/
lemma once_walk : ∀ (fuel : ℕ) (visited : List ℕ) (place : ℕ),
    (∀ other ∈ visited, fingerprintAt certificates other ≠ fingerprintAt certificates place) →
    ((Walk.walk (nextIssuer certificates) fuel visited place).map
        (fingerprintAt certificates)).Nodup ∧
      ∀ later ∈ Walk.walk (nextIssuer certificates) fuel visited place, ∀ other ∈ visited,
        fingerprintAt certificates other ≠ fingerprintAt certificates later := by
  intro fuel
  induction fuel with
  | zero => intro visited place _; simp [Walk.walk]
  | succ fuel ih =>
    intro visited place hplace
    cases hnext : nextIssuer certificates (place :: visited) place with
    | none =>
      rw [Walk.walk_stop hnext]
      simpa using hplace
    | some issuer =>
      obtain ⟨hnodup, hout⟩ := ih (place :: visited) issuer (nextIssuer_eq_some hnext).2.2
      rw [Walk.walk_go hnext]
      refine ⟨?_, fun later hlater other hother => ?_⟩
      · rw [List.map_cons, List.nodup_cons]
        refine ⟨fun hm => ?_, hnodup⟩
        obtain ⟨later, hlater, heq⟩ := List.mem_map.mp hm
        exact hout later hlater place List.mem_cons_self heq.symm
      · rcases List.mem_cons.mp hlater with rfl | hlater
        · exact hplace other hother
        · exact hout later hlater other (List.mem_cons_of_mem _ hother)

lemma presents_chainPlaces (peer : Option ℕ) :
    Presents certificates peer (chainPlaces certificates peer) := by
  unfold chainPlaces
  cases hpeer : peer.filter fun place => (rawAt certificates place).isSome with
  | none =>
    exact ⟨by rw [hpeer]; rfl, .nil, by simp, List.nodup_nil, fun _ _ h => by cases h⟩
  | some place =>
    have hraw := (Option.filter_eq_some_iff.mp hpeer).2
    refine ⟨by rw [hpeer]; rfl, ?_, raw_of_mem_walk hraw, (once_walk _ _ _ (by simp)).1, ?_⟩
    · refine Walk.isChain_walk (fun visited before issuer hnext => ?_) _ _ _
      exact (nextIssuer_eq_some hnext).1
    · intro last issuer hlast hissued hissuer
      obtain ⟨last', hlast', hnone⟩ := Walk.walk_ended _ _ _ (length_walk_lt hraw)
      obtain rfl : last = last' := Option.some.inj (hlast.symm.trans hlast')
      by_contra hmem
      refine absurd hnone (Option.ne_none_iff_exists'.mpr ⟨issuer, ?_⟩)
      refine Option.filter_eq_some_iff.mpr ⟨hissued, ?_⟩
      simp only [hissuer, List.append_nil, List.map_reverse, Bool.true_and, Bool.not_eq_true',
        List.contains_eq_mem, decide_eq_false_iff_not, List.mem_reverse]
      exact hmem

/-- Nothing can follow the last place of a whole chain. -/
lemma eq_of_initial {peer : Option ℕ} {places more : List ℕ} (h : Presents certificates peer places)
    (h' : Presents certificates peer more) (hinitial : places <+: more) : places = more := by
  obtain ⟨rest, rfl⟩ := hinitial
  cases rest with
  | nil => exact (List.append_nil places).symm
  | cons issuer rest =>
    have hhead := h.leaf.trans h'.leaf.symm
    have hne : places ≠ [] := by
      rintro rfl
      cases hhead
    have hlast := List.getLast?_eq_some_getLast hne
    have hissued : Issued certificates (places.getLast hne) issuer := by
      have hchain := (List.isChain_append.mp h'.issued).2.2
      exact hchain _ hlast _ rfl
    have hraw := h'.raw issuer (List.mem_append_right _ List.mem_cons_self)
    have honce := h'.once
    rw [List.map_append, List.map_cons, List.nodup_append] at honce
    exact absurd rfl (honce.2.2 _ (h.ended _ _ hlast hissued hraw) _ List.mem_cons_self)

/-- However the objects of a session point at each other, in loops too, the walk ends and what it
visits is the whole chain that the peer presented; there is only one. -/
theorem presents_iff_eq_chainPlaces (certificates : List PeerCertificate) (peer : Option ℕ)
    (places : List ℕ) :
    Presents certificates peer places ↔ places = chainPlaces certificates peer := by
  constructor
  · intro h
    have h' := @presents_chainPlaces certificates peer
    have hunique : ∀ a b c, Issued certificates a b → Issued certificates a c → b = c :=
      fun _ _ _ hb hc => Option.some.inj (hb.symm.trans hc)
    rcases Walk.prefix_or_prefix hunique h.issued h'.issued (h.leaf.trans h'.leaf.symm) with
      hinitial | hinitial
    · exact eq_of_initial h h' hinitial
    · exact (eq_of_initial h' h hinitial).symm
  · rintro rfl
    exact presents_chainPlaces peer

end Chain
end Portcall.Net
