import Portcall.Library.Ownership
import Portcall.Net.FetchBody
import Portcall.Net.Guard
import Portcall.Net.ProxyConnect
import Portcall.Proxy.Pac

/-! What the probes do to the network and to what one run shares, and what can come back: the
replies of a network that may do anything, and of a run that may be stopped at any moment. -/
namespace Portcall.Net
open Threads

/-- What the network code calls besides. -/
structure NetExternals extends Externals where
  /-- `isIP(text) !== 0` -/
  isIp : String → Bool
  /-- The path and the query of `new URL(text)`. -/
  urlPath : String → String
  /-- `buffer.toString('utf8')` -/
  utf8 : List UInt8 → String

structure HttpRequest where
  method : String
  path : String
  headers : List (String × String)
  deriving DecidableEq, Repr

/-- A certificate the peer presented, and where the object of its issuer is. -/
structure PeerCertificate where
  /-- `none` when it is not a byte array. -/
  raw : Option (List UInt8)
  fingerprint256 : String
  issuerCertificate : Option ℕ
  deriving DecidableEq, Repr

/-- What a handshake agreed on. The peer's certificates are objects that point at each other; the
one it is known by, if any, is at `peer`. -/
structure TlsSession where
  protocol : Option String
  cipherStandardName : Option String
  cipherName : Option String
  certificates : List PeerCertificate
  peer : Option ℕ
  deriving DecidableEq, Repr

/-- What a probe does, with the type of the reply. A signal and a socket are known by when they
were made. -/
inductive NetOp : Type → Type
  | permit (host : String) (port : ℕ) (reason : String) : NetOp Unit
  | isAllowed (host : String) (port : ℕ) : NetOp Bool
  | isHostAllowed (host : String) : NetOp Bool
  /-- `AbortSignal.any([options.signal, AbortSignal.timeout(budgetMs)])` -/
  | phaseSignal (budgetMs : ℕ) : NetOp ℕ
  /-- Whether a phase's signal has fired, and by which of its two clocks. -/
  | aborted (signal : ℕ) : NetOp (Option AbortedBy)
  /-- Whether the run's own signal has fired. -/
  | runAborted : NetOp Bool
  | elapsed : NetOp ℕ
  | now : NetOp ℤ
  | lookup (host : String) (signal : ℕ) : NetOp (Settled (List String))
  | netConnect (address : String) (port : ℕ) : NetOp ℕ
  | connected (socket signal : ℕ) : NetOp (Settled Unit)
  | tlsConnect (socket : ℕ) (servername : Option String) (rejectUnauthorized : Bool) : NetOp ℕ
  | secured (secure signal : ℕ) : NetOp (Settled Unit)
  | session (secure : ℕ) : NetOp TlsSession
  | request (stream : ℕ) (request : HttpRequest) (signal : ℕ) : NetOp (Settled TunnelReply)
  | fetchBody (stream : ℕ) (request : HttpRequest) (maxBytes signal : ℕ) : NetOp (Settled Fetched)
  | destroy (stream : ℕ) : NetOp Unit
  | runScript (call : Proxy.PacCall) : NetOp (Option (Option String))

/-- A socket there has been. -/
structure Connection where
  isOpen : Bool := true
  /-- The handshake over it takes any certificate. -/
  unverified : Bool := false
  deriving DecidableEq, Repr

/-- What one run shares between its probes, and what its network has said. -/
structure NetState where
  guard : NetworkGuard
  /-- The run's own signal has fired. -/
  stopped : Bool := false
  /-- The phases' signals, each with the clock that fired it. -/
  signals : List (Option AbortedBy) := []
  /-- The run's signal fires those of all phases, and nothing else does in its name. -/
  honest : ∀ fired ∈ signals,
    (fired = some .runSignal → stopped = true) ∧ (stopped = true → fired ≠ none)
  /-- The addresses that were answered, each for a host. -/
  answered : List (String × String) := []
  /-- The proxies that a script named. -/
  named : List HostPort := []
  sockets : List Connection := []

namespace NetState

/-- By which clock a signal was fired, if it was. -/
def firedBy (s : NetState) (signal : ℕ) : Option AbortedBy := s.signals[signal]?.join

lemma honest_firedBy {s : NetState} {signal : ℕ} (h : s.firedBy signal = some .runSignal) :
    s.stopped = true := by
  rw [firedBy, Option.join_eq_some_iff] at h
  exact (s.honest _ (List.mem_of_getElem? h)).1 rfl

/-- A phase begins, at once out of time when the run is. -/
def begin (s : NetState) : NetState :=
  { s with
    signals := s.signals ++ [if s.stopped then some .runSignal else none]
    honest := by
      intro fired hm
      rcases List.mem_append.mp hm with hm | hm
      · exact s.honest fired hm
      · rw [List.mem_singleton.mp hm]
        cases s.stopped <;> simp }

/-- A phase runs out of time. -/
def timeout (s : NetState) (signal : ℕ) : NetState :=
  { s with
    signals := s.signals.set signal (some .phaseTimeout)
    honest := by
      intro fired hm
      rcases List.mem_or_eq_of_mem_set hm with hm | rfl
      · exact s.honest fired hm
      · simp }

/-- The run is out of time, or interrupted, and with it every phase. -/
def stop (s : NetState) : NetState :=
  { s with
    stopped := true
    signals := s.signals.map fun fired => fired.or (some .runSignal)
    honest := by
      intro fired hm
      obtain ⟨before, -, rfl⟩ := List.mem_map.mp hm
      cases before <;> simp }

def live (s : NetState) : Set ℕ := {socket | (s.sockets[socket]?).map Connection.isOpen = some true}

/-- Whether what is sent over a socket may be read by whoever presented a certificate. -/
def unverified (s : NetState) (socket : ℕ) : Option Bool :=
  (s.sockets[socket]?).map Connection.unverified

/-- Nothing is taken back: what was admitted, fired, answered or named stays so, and a handshake is
what it was begun as. -/
instance : Preorder NetState where
  le s s' := s.guard ≤ s'.guard ∧ (s.stopped = true → s'.stopped = true) ∧
    (∀ signal source, s.firedBy signal = some source → s'.firedBy signal = some source) ∧
    s.answered ⊆ s'.answered ∧ s.named ⊆ s'.named ∧
    ∀ socket known, s.unverified socket = some known → s'.unverified socket = some known
  le_refl s := ⟨le_rfl, id, fun _ _ => id, List.Subset.refl _, List.Subset.refl _, fun _ _ => id⟩
  le_trans _ _ _ h h' := ⟨h.1.trans h'.1, h'.2.1 ∘ h.2.1,
    fun signal source hs => h'.2.2.1 signal source (h.2.2.1 signal source hs),
    List.Subset.trans h.2.2.2.1 h'.2.2.2.1, List.Subset.trans h.2.2.2.2.1 h'.2.2.2.2.1,
    fun socket known hs => h'.2.2.2.2.2 socket known (h.2.2.2.2.2 socket known hs)⟩

section Mono
variable {s s' : NetState} (h : s ≤ s')
include h

lemma answered_mono {answer : String × String} (ha : answer ∈ s.answered) : answer ∈ s'.answered :=
  h.2.2.2.1 ha

lemma named_mono {proxy : HostPort} (hp : proxy ∈ s.named) : proxy ∈ s'.named := h.2.2.2.2.1 hp

lemma unverified_mono {socket : ℕ} {known : Bool} (hs : s.unverified socket = some known) :
    s'.unverified socket = some known := h.2.2.2.2.2 socket known hs

end Mono

end NetState

section World
variable (ext : NetExternals)

/-- The proxy a script's answer names, if it names one. -/
def namedProxy (call : Proxy.PacCall) (answer : Option (Option String)) : Option HostPort :=
  match Proxy.evaluatePac (fun _ => answer) call with
  | .proxy via => some via
  | _ => none

/-- How a state answers, and what it turns into. What is awaited fails once its signal has fired;
short of that the network may answer anything. -/
def Replies : {β : Type} → NetState → NetOp β → β → NetState → Prop
  | _, s, .permit host port reason, _, s' =>
    s' = { s with guard := s.guard.permit ext.toExternals host port reason }
  | _, s, .isAllowed host port, reply, s' =>
    reply = s.guard.isAllowed ext.toExternals host port ∧ s' = s
  | _, s, .isHostAllowed host, reply, s' =>
    reply = s.guard.isHostAllowed ext.toExternals host ∧ s' = s
  | _, s, .phaseSignal _, reply, s' => reply = s.signals.length ∧ s' = s.begin
  | _, s, .aborted signal, reply, s' => reply = s.firedBy signal ∧ s' = s
  | _, s, .runAborted, reply, s' => reply = s.stopped ∧ s' = s
  | _, s, .elapsed, _, s' | _, s, .now, _, s' | _, s, .session _, _, s' => s' = s
  | _, s, .lookup host signal, .done addresses, s' => s.firedBy signal = none ∧
    s' = { s with answered := s.answered ++ addresses.map fun address => (host, address) }
  | _, s, .netConnect .., reply, s' =>
    reply = s.sockets.length ∧ s' = { s with sockets := s.sockets ++ [{}] }
  | _, s, .tlsConnect _ _ rejectUnauthorized, reply, s' => reply = s.sockets.length ∧
    s' = { s with sockets := s.sockets ++ [{ unverified := !rejectUnauthorized }] }
  | _, s, .connected _ signal, .done _, s' | _, s, .secured _ signal, .done _, s'
  | _, s, .request _ _ signal, .done _, s' => s.firedBy signal = none ∧ s' = s
  | _, s, .lookup .., .threw _, s' | _, s, .connected .., .threw _, s'
  | _, s, .secured .., .threw _, s' | _, s, .request .., .threw _, s' => s' = s
  | _, s, .fetchBody _ _ maxBytes signal, reply, s' => s' = s ∧ ∃ events,
    Net.fetchBody ext.utf8 maxBytes (s.firedBy signal).isSome events = some reply
  | _, s, .destroy stream, _, s' =>
    s' = { s with sockets := s.sockets.modify stream fun socket => { socket with isOpen := false } }
  | _, s, .runScript call, answer, s' =>
    s' = { s with named := s.named ++ (namedProxy call answer).toList }

/-- What happens by itself. -/
inductive Drifts : NetState → NetState → Prop
  | timeout {s : NetState} (signal : ℕ) (h : s.firedBy signal = none) : Drifts s (s.timeout signal)
  | stop {s : NetState} : Drifts s s.stop

def network : World NetState NetOp where
  step := Replies ext
  drift := Drifts

/-- Sockets are opened by a connection and by a handshake over one. -/
def socketLedger : Ledger NetOp ℕ where
  opened op reply := match op with
    | .netConnect .. | .tlsConnect .. => some reply
    | _ => none
  closed op := match op with
    | .destroy stream => some stream
    | _ => none
  used op := match op with
    | .connected socket _ | .tlsConnect socket _ _ | .secured socket _ | .session socket
    | .request socket _ _ | .fetchBody socket _ _ _ | .destroy socket => {socket}
    | _ => ∅
  closed_used {β op r} h := by
    cases op <;> cases h
    exact rfl

end World

section Growth
variable {ext : NetExternals}

lemma firedBy_begin {s : NetState} {signal : ℕ} {source : AbortedBy}
    (h : s.firedBy signal = some source) : s.begin.firedBy signal = some source := by
  have hlt : signal < s.signals.length := by
    by_contra hge
    rw [NetState.firedBy, List.getElem?_eq_none (Nat.not_lt.mp hge)] at h
    cases h
  rw [NetState.firedBy, NetState.begin, List.getElem?_append_left hlt]
  exact h

/-- The signal of a phase that begins once the run has stopped has fired. -/
lemma firedBy_begin_self {s : NetState} (h : s.stopped = true) :
    s.begin.firedBy s.signals.length = some .runSignal := by
  rw [NetState.firedBy, NetState.begin, List.getElem?_concat_length, h]
  rfl

lemma drifts_le {s s' : NetState} (h : Drifts s s') : s ≤ s' := by
  cases h with
  | timeout signal hnone =>
    refine ⟨le_rfl, id, fun other source hother => ?_, List.Subset.refl _, List.Subset.refl _,
      fun _ _ => id⟩
    have hne : signal ≠ other := by
      rintro rfl
      rw [hnone] at hother
      cases hother
    rw [NetState.firedBy, NetState.timeout, List.getElem?_set_ne hne]
    exact hother
  | stop =>
    refine ⟨le_rfl, fun _ => rfl, fun signal source hsource => ?_, List.Subset.refl _,
      List.Subset.refl _, fun _ _ => id⟩
    rw [NetState.firedBy, Option.join_eq_some_iff] at hsource
    rw [NetState.firedBy, NetState.stop, List.getElem?_map, hsource]
    rfl

lemma le_of_guard {s : NetState} {guard : NetworkGuard} (h : s.guard ≤ guard) :
    s ≤ { s with guard } :=
  ⟨h, id, fun _ _ => id, List.Subset.refl _, List.Subset.refl _, fun _ _ => id⟩

lemma le_of_answered {s : NetState} (more : List (String × String)) :
    s ≤ { s with answered := s.answered ++ more } :=
  ⟨le_rfl, id, fun _ _ => id, List.subset_append_left _ _, List.Subset.refl _, fun _ _ => id⟩

lemma le_of_named {s : NetState} (more : List HostPort) :
    s ≤ { s with named := s.named ++ more } :=
  ⟨le_rfl, id, fun _ _ => id, List.Subset.refl _, List.subset_append_left _ _, fun _ _ => id⟩

lemma le_of_opened {s : NetState} (socket : Connection) :
    s ≤ { s with sockets := s.sockets ++ [socket] } := by
  refine ⟨le_rfl, id, fun _ _ => id, List.Subset.refl _, List.Subset.refl _, fun other known h => ?_⟩
  obtain ⟨found, hfound, rfl⟩ := Option.map_eq_some_iff.mp h
  rw [NetState.unverified, List.getElem?_append_left (List.getElem?_eq_some_iff.mp hfound).1,
    hfound]
  rfl

lemma le_of_destroyed {s : NetState} (stream : ℕ) : s ≤ { s with
    sockets := s.sockets.modify stream fun socket => { socket with isOpen := false } } := by
  refine ⟨le_rfl, id, fun _ _ => id, List.Subset.refl _, List.Subset.refl _, fun other known h => ?_⟩
  obtain ⟨found, hfound, rfl⟩ := Option.map_eq_some_iff.mp h
  rw [NetState.unverified, List.getElem?_modify, hfound]
  split_ifs <;> rfl

lemma le_begin {s : NetState} : s ≤ s.begin :=
  ⟨le_rfl, id, fun _ _ => firedBy_begin, List.Subset.refl _, List.Subset.refl _, fun _ _ => id⟩

lemma replies_le {β : Type} {s s' : NetState} {op : NetOp β} {reply : β}
    (h : Replies ext s op reply s') : s ≤ s' := by
  cases op with
  | permit => exact (show s' = _ from h) ▸ le_of_guard NetworkGuard.le_permit
  | elapsed | now | session => exact (show s' = s from h) ▸ le_rfl
  | isAllowed | isHostAllowed | aborted | runAborted => exact h.2 ▸ le_rfl
  | phaseSignal => exact h.2 ▸ le_begin
  | netConnect | tlsConnect => exact h.2 ▸ le_of_opened _
  | lookup => cases reply with
    | done addresses => exact h.2 ▸ le_of_answered _
    | threw error => exact (show s' = s from h) ▸ le_rfl
  | connected | secured | request => cases reply with
    | done value => exact h.2 ▸ le_rfl
    | threw error => exact (show s' = s from h) ▸ le_rfl
  | fetchBody => exact h.1 ▸ le_rfl
  | destroy => exact (show s' = _ from h) ▸ le_of_destroyed _
  | runScript => exact (show s' = _ from h) ▸ le_of_named _

theorem network_grows : (network ext).Grows where
  step := replies_le
  drift := drifts_le

/-- What is known of a socket that was just opened. -/
lemma unverified_opened (s : NetState) (socket : Connection) :
    NetState.unverified { s with sockets := s.sockets ++ [socket] } s.sockets.length =
      some socket.unverified := by
  rw [NetState.unverified, List.getElem?_concat_length]
  rfl

/-- Every action is answered. -/
lemma exists_answer {β : Type} (s : NetState) (op : NetOp β) :
    ∃ reply s', (network ext).step s op reply s' := by
  cases op with
  | permit | destroy => exact ⟨(), _, rfl⟩
  | elapsed => exact ⟨(0 : ℕ), s, rfl⟩
  | now => exact ⟨(0 : ℤ), s, rfl⟩
  | session => exact ⟨⟨none, none, none, [], none⟩, s, rfl⟩
  | runScript => exact ⟨none, _, rfl⟩
  | isAllowed | isHostAllowed | phaseSignal | aborted | runAborted | netConnect | tlsConnect =>
    exact ⟨_, _, rfl, rfl⟩
  | lookup | connected | secured | request => exact ⟨.threw phaseAborted, s, rfl⟩
  | fetchBody stream request maxBytes signal =>
    refine ⟨.threw phaseAborted, s, rfl, [.abort], ?_⟩
    cases (s.firedBy signal).isSome <;> rfl

end Growth

section Sockets
variable {ext : NetExternals}

lemma mem_live_append {s : NetState} {socket : ℕ} {known : Bool} :
    socket ∈ NetState.live { s with sockets := s.sockets ++ [{ unverified := known }] } ↔
      socket ∈ s.live ∨ socket = s.sockets.length := by
  rw [NetState.live, Set.mem_ofPred_eq]
  rcases lt_trichotomy socket s.sockets.length with hlt | rfl | hgt
  · rw [List.getElem?_append_left hlt, NetState.live, Set.mem_ofPred_eq]
    exact (or_iff_left (Nat.ne_of_lt hlt)).symm
  · simp
  · rw [List.getElem?_eq_none (by simp; omega), NetState.live, Set.mem_ofPred_eq,
      List.getElem?_eq_none (by omega)]
    simp
    omega

lemma live_opened {s : NetState} {β : Type} {op : NetOp β} {reply : β} {known : Bool}
    (hopened : socketLedger.opened op reply = some s.sockets.length)
    (hclosed : socketLedger.closed op = none) :
    NetState.live { s with sockets := s.sockets ++ [{ unverified := known }] } =
      socketLedger.after op reply s.live := by
  ext socket
  rw [mem_live_append]
  simp [Ledger.after, hopened, hclosed, eq_comm]

lemma live_destroyed {s : NetState} {stream : ℕ} :
    NetState.live { s with
        sockets := s.sockets.modify stream fun socket => { socket with isOpen := false } } =
      socketLedger.after (.destroy stream) () s.live := by
  ext socket
  simp only [Ledger.after, socketLedger, Set.mem_ofPred_eq, NetState.live, List.getElem?_modify]
  by_cases h : stream = socket
  · subst h
    cases s.sockets[stream]? <;> simp
  · simp [h]

lemma live_kept {s : NetState} {β : Type} {op : NetOp β} {reply : β}
    (hopened : socketLedger.opened op reply = none) (hclosed : socketLedger.closed op = none) :
    s.live = socketLedger.after op reply s.live := by
  ext socket
  simp [Ledger.after, hopened, hclosed]

/-- A socket is open from when it was opened to when it is destroyed. -/
theorem network_accounts : (network ext).Accounts socketLedger NetState.live where
  fresh {β s s' op reply} h socket hopened := by
    have hnone : s.sockets.length ∉ s.live := by simp [NetState.live]
    cases op with
    | netConnect | tlsConnect =>
      obtain ⟨rfl, -⟩ := h
      cases hopened
      exact hnone
    | _ => cases hopened
  step {β s s' op reply} h := by
    cases op with
    | netConnect | tlsConnect =>
      obtain ⟨rfl, rfl⟩ := h
      exact live_opened rfl rfl
    | destroy => exact (show s' = _ from h) ▸ live_destroyed
    | permit | elapsed | now | session | runScript =>
      exact (show s' = _ from h) ▸ live_kept rfl rfl
    | isAllowed | isHostAllowed | aborted | runAborted | phaseSignal =>
      exact h.2 ▸ live_kept rfl rfl
    | fetchBody => exact h.1 ▸ live_kept rfl rfl
    | lookup | connected | secured | request => cases reply with
      | done value => exact h.2 ▸ live_kept rfl rfl
      | threw error => exact (show s' = _ from h) ▸ live_kept rfl rfl
  drift h := by cases h <;> rfl

end Sockets
end Portcall.Net
