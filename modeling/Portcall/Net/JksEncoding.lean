import Portcall.Net.JavaKeystore

/-! The JKS record stream as it is written, and what the reader makes of it: whole, it gives the
trusted certificates back; cut before its last entry ends, it gives nothing. -/
namespace Portcall.Net
open Segment

/-- A certificate of the chain that rides along a private key. -/
structure ChainLink where
  certType : Field 2
  cert : Field 4

inductive JksEntry where
  | trustedCert (entryAlias : Field 2) (timestamp : UInt64) (certType : Field 2) (cert : Field 4)
  | privateKey (entryAlias : Field 2) (timestamp : UInt64) (keyBlob : Field 4)
      (chain : List ChainLink) (fits : chain.length < 256 ^ 4)

structure JksStore where
  version : UInt32
  entries : List JksEntry
  fits : entries.length < 256 ^ 4

def ChainLink.bytes (link : ChainLink) : List UInt8 := link.certType.bytes ++ link.cert.bytes

namespace JksEntry

def bytes : JksEntry → List UInt8
  | trustedCert entryAlias timestamp certType cert =>
    bigEndian 4 jksTrustedCertTag ++ (entryAlias.bytes ++ (bigEndian 8 timestamp.toNat ++
      (certType.bytes ++ cert.bytes)))
  | privateKey entryAlias timestamp keyBlob chain _ =>
    bigEndian 4 jksPrivateKeyTag ++ (entryAlias.bytes ++ (bigEndian 8 timestamp.toNat ++
      (keyBlob.bytes ++ (bigEndian 4 chain.length ++ chain.flatMap ChainLink.bytes))))

/-- Only a trusted entry has a certificate to give. -/
def trusted? : JksEntry → Option (List UInt8)
  | trustedCert _ _ _ cert => some cert.octets
  | privateKey .. => none

end JksEntry

/-- The magic, the version, the count and the entries. -/
def buildJks (store : JksStore) : List UInt8 :=
  bigEndian 4 jksMagic ++ (bigEndian 4 store.version.toNat ++
    (bigEndian 4 store.entries.length ++ store.entries.flatMap JksEntry.bytes))

def trustedCerts (entries : List JksEntry) : List (List UInt8) :=
  entries.filterMap JksEntry.trusted?

lemma trustedCerts_cons (entry : JksEntry) (entries : List JksEntry) :
    trustedCerts (entry :: entries) = entry.trusted?.toList ++ trustedCerts entries := by
  unfold trustedCerts
  rw [List.filterMap_cons]
  cases entry.trusted? <;> rfl

section Pieces
variable {bytes piece : List UInt8} {offset : ℕ}

lemma byteAt_at (h : At bytes offset piece) {index : ℕ} (hindex : index < piece.length) :
    byteAt bytes (offset + index) = byteAt piece index := by
  unfold byteAt
  rw [h.getD hindex]

lemma slice_at (h : At bytes offset piece) : slice bytes offset (offset + piece.length) = piece :=
  h.drop_take

lemma readUint32_at (h : At bytes offset piece) (hlength : piece.length = 4) :
    readUint32 bytes offset = .ok (ofBigEndian piece) := by
  have hle := h.le
  have hbyte : ∀ index, index < 4 → byteAt bytes (offset + index) = byteAt piece index :=
    fun index hindex => byteAt_at h (by omega)
  have h0 := hbyte 0 (by decide)
  rw [Nat.add_zero] at h0
  rw [readUint32, if_neg (by omega), h0, hbyte 1 (by decide), hbyte 2 (by decide),
    hbyte 3 (by decide)]
  match piece, hlength with
  | [b0, b1, b2, b3], _ => simp [byteAt, ofBigEndian]

lemma readUint16_at (h : At bytes offset piece) (hlength : piece.length = 2) :
    readUint16 bytes offset = .ok (ofBigEndian piece) := by
  have hle := h.le
  have h0 := @byteAt_at _ _ _ h 0 (by omega)
  have h1 := @byteAt_at _ _ _ h 1 (by omega)
  rw [Nat.add_zero] at h0
  rw [readUint16, if_neg (by omega), h0, h1]
  match piece, hlength with
  | [b0, b1], _ => simp [byteAt, ofBigEndian]

lemma readUint32_bigEndian {n : ℕ} (h : At bytes offset (bigEndian 4 n)) (hn : n < 256 ^ 4) :
    readUint32 bytes offset = .ok n := by
  rw [readUint32_at h (length_bigEndian 4 n), ofBigEndian_bigEndian hn]

lemma readUint16_bigEndian {n : ℕ} (h : At bytes offset (bigEndian 2 n)) (hn : n < 256 ^ 2) :
    readUint16 bytes offset = .ok n := by
  rw [readUint16_at h (length_bigEndian 2 n), ofBigEndian_bigEndian hn]

/-- To the end of a piece there are bytes enough. -/
lemma advance_at (h : At bytes offset piece) :
    advance bytes offset piece.length = .ok (offset + piece.length) := by
  have hle := h.le
  rw [advance, if_neg (by omega)]

lemma advance_bigEndian {width n : ℕ} (h : At bytes offset (bigEndian width n)) :
    advance bytes offset width = .ok (offset + width) := by
  have hadvance := advance_at h
  rwa [length_bigEndian] at hadvance

lemma advance_field {width : ℕ} {field : Field width} (h : At bytes offset field.bytes) :
    advance bytes (offset + width) field.octets.length = .ok (offset + field.bytes.length) := by
  have hoctets := h.right
  rw [length_bigEndian] at hoctets
  rw [advance_at hoctets, field.length_bytes, Nat.add_assoc]

lemma slice_field {width : ℕ} {field : Field width} (h : At bytes offset field.bytes) :
    slice bytes (offset + width) (offset + width + field.octets.length) = field.octets := by
  have hoctets := h.right
  rw [length_bigEndian] at hoctets
  exact slice_at hoctets

end Pieces

section Entries
variable {bytes : List UInt8} {offset : ℕ}

/-- A chain is skipped to its end. -/
lemma skipChain_at (chain : List ChainLink) (h : At bytes offset (chain.flatMap ChainLink.bytes)) :
    skipChain bytes chain.length offset =
      .ok (offset + (chain.flatMap ChainLink.bytes).length) := by
  induction chain generalizing offset with
  | nil => rfl
  | cons link chain ih =>
    rw [List.flatMap_cons] at h
    have htype := h.left.left
    have hcert := h.left.right
    have hchain := ih h.right
    rw [List.length_cons, skipChain]
    refine bind_eq_ok.mpr ⟨_, readUint16_bigEndian htype.left link.certType.fits, ?_⟩
    refine bind_eq_ok.mpr ⟨_, advance_field htype, ?_⟩
    refine bind_eq_ok.mpr ⟨_, readUint32_bigEndian hcert.left link.cert.fits, ?_⟩
    refine bind_eq_ok.mpr ⟨_, advance_field hcert, ?_⟩
    rw [ChainLink.bytes, List.length_append, ← Nat.add_assoc] at hchain
    rw [hchain, List.flatMap_cons, ChainLink.bytes, List.length_append, List.length_append]
    congr 1
    omega

/-- An entry is read to its end, and gives its certificate if it is a trusted one. -/
theorem jksEntry_at (entry : JksEntry) (h : At bytes offset entry.bytes) :
    jksEntry bytes offset = .ok (entry.trusted?, offset + entry.bytes.length) := by
  cases entry with
  | trustedCert entryAlias timestamp certType cert =>
    have halias := h.right.left
    have htimestamp := h.right.right.left
    have htype := h.right.right.right.left
    have hcert := h.right.right.right.right
    rw [length_bigEndian] at halias htimestamp htype hcert
    rw [length_bigEndian] at htype hcert
    unfold jksEntry
    refine bind_eq_ok.mpr ⟨_, readUint32_bigEndian h.left (by decide), ?_⟩
    refine bind_eq_ok.mpr ⟨_, readUint16_bigEndian halias.left entryAlias.fits, ?_⟩
    refine bind_eq_ok.mpr ⟨_, advance_field halias, ?_⟩
    refine bind_eq_ok.mpr ⟨_, advance_bigEndian htimestamp, ?_⟩
    rw [if_neg (by decide), if_pos rfl]
    refine bind_eq_ok.mpr ⟨_, readUint16_bigEndian htype.left certType.fits, ?_⟩
    refine bind_eq_ok.mpr ⟨_, advance_field htype, ?_⟩
    refine bind_eq_ok.mpr ⟨_, readUint32_bigEndian hcert.left cert.fits, ?_⟩
    refine bind_eq_ok.mpr ⟨_, advance_field hcert, ?_⟩
    rw [slice_field hcert]
    simp only [JksEntry.bytes, JksEntry.trusted?, List.length_append, length_bigEndian]
    exact congrArg (fun next => Except.ok (some cert.octets, next)) (by omega)
  | privateKey entryAlias timestamp keyBlob chain fits =>
    have halias := h.right.left
    have htimestamp := h.right.right.left
    have hkey := h.right.right.right.left
    have hcount := h.right.right.right.right.left
    have hchain := h.right.right.right.right.right
    rw [length_bigEndian] at halias htimestamp hkey hcount hchain
    rw [length_bigEndian] at hkey hcount hchain
    rw [length_bigEndian] at hchain
    unfold jksEntry
    refine bind_eq_ok.mpr ⟨_, readUint32_bigEndian h.left (by decide), ?_⟩
    refine bind_eq_ok.mpr ⟨_, readUint16_bigEndian halias.left entryAlias.fits, ?_⟩
    refine bind_eq_ok.mpr ⟨_, advance_field halias, ?_⟩
    refine bind_eq_ok.mpr ⟨_, advance_bigEndian htimestamp, ?_⟩
    rw [if_pos rfl]
    refine bind_eq_ok.mpr ⟨_, readUint32_bigEndian hkey.left keyBlob.fits, ?_⟩
    refine bind_eq_ok.mpr ⟨_, advance_field hkey, ?_⟩
    refine bind_eq_ok.mpr ⟨_, readUint32_bigEndian hcount fits, ?_⟩
    refine bind_eq_ok.mpr ⟨_, skipChain_at chain hchain, ?_⟩
    simp only [JksEntry.bytes, JksEntry.trusted?, List.length_append, length_bigEndian]
    exact congrArg (fun next => Except.ok (none, next)) (by omega)

/-- The loop reads on to the last entry or to the cap. -/
theorem jksEntries_at (entries : List JksEntry) (certificates : List (List UInt8))
    (hcap : certificates.length ≤ maxKeystoreCertificates)
    (h : At bytes offset (entries.flatMap JksEntry.bytes)) :
    jksEntries bytes entries.length offset certificates =
      .ok ((certificates ++ trustedCerts entries).take maxKeystoreCertificates) := by
  induction entries generalizing offset certificates with
  | nil =>
    change Except.ok certificates = _
    rw [trustedCerts, List.filterMap_nil, List.append_nil, List.take_of_length_le hcap]
  | cons entry entries ih =>
    rw [List.flatMap_cons] at h
    rw [List.length_cons, jksEntries, trustedCerts_cons, ← List.append_assoc]
    by_cases hroom : certificates.length < maxKeystoreCertificates
    · have hcap' : (certificates ++ entry.trusted?.toList).length ≤ maxKeystoreCertificates := by
        rw [List.length_append]
        cases entry.trusted? with
        | none => exact hcap
        | some der => exact hroom
      rw [if_pos hroom, jksEntry_at entry h.left]
      exact ih _ hcap' h.right
    · have hfull : certificates.length = maxKeystoreCertificates := by omega
      rw [if_neg hroom, List.append_assoc, ← hfull, List.take_left]

end Entries

section Cut
variable (offset length : ℕ)

lemma byteAt_append {bytes : List UInt8} (more : List UInt8) {index : ℕ}
    (h : index < bytes.length) : byteAt (bytes ++ more) index = byteAt bytes index := by
  unfold byteAt
  rw [List.getD_append _ _ _ _ h]

lemma stable_readUint32 : Stable fun bytes => readUint32 bytes offset := by
  intro bytes more n h
  dsimp only [readUint32] at h ⊢
  split_ifs at h with hlength
  rw [if_neg (by rw [List.length_append]; omega), byteAt_append more (by omega),
    byteAt_append more (by omega), byteAt_append more (by omega), byteAt_append more (by omega)]
  exact h

lemma stable_readUint16 : Stable fun bytes => readUint16 bytes offset := by
  intro bytes more n h
  dsimp only [readUint16] at h ⊢
  split_ifs at h with hlength
  rw [if_neg (by rw [List.length_append]; omega), byteAt_append more (by omega),
    byteAt_append more (by omega)]
  exact h

lemma stable_advance : Stable fun bytes => advance bytes offset length := by
  intro bytes more next h
  dsimp only [advance] at h ⊢
  split_ifs at h with hlength
  rw [if_neg (by rw [List.length_append]; omega)]
  exact h

lemma failsWith_readUint32 : FailsWith .truncated fun bytes => readUint32 bytes offset := by
  intro bytes reason h
  dsimp only [readUint32] at h
  split_ifs at h
  cases h
  rfl

lemma failsWith_readUint16 : FailsWith .truncated fun bytes => readUint16 bytes offset := by
  intro bytes reason h
  dsimp only [readUint16] at h
  split_ifs at h
  cases h
  rfl

lemma failsWith_advance : FailsWith .truncated fun bytes => advance bytes offset length := by
  intro bytes reason h
  dsimp only [advance] at h
  split_ifs at h
  cases h
  rfl

lemma stable_skipChain (links : ℕ) : Stable fun bytes => skipChain bytes links offset := by
  induction links generalizing offset with
  | zero => exact stable_const _
  | succ links ih =>
    refine (stable_readUint16 _).bind fun typeLen => (stable_advance _ _).bind fun offset => ?_
    exact (stable_readUint32 _).bind fun certLen => (stable_advance _ _).bind fun offset =>
      ih offset

lemma failsWith_skipChain (links : ℕ) :
    FailsWith .truncated fun bytes => skipChain bytes links offset := by
  induction links generalizing offset with
  | zero => exact failsWith_ok _
  | succ links ih =>
    refine (failsWith_readUint16 _).bind fun typeLen => (failsWith_advance _ _).bind fun offset => ?_
    exact (failsWith_readUint32 _).bind fun certLen => (failsWith_advance _ _).bind fun offset =>
      ih offset

/-- A certificate is cut out where its bytes are known to be there. -/
lemma stable_certificate : Stable fun bytes => advance bytes offset length >>= fun next =>
    (return (some (slice bytes offset (offset + length)), next) :
      Except KeystoreFailure (Option (List UInt8) × ℕ)) := by
  intro bytes more entry h
  obtain ⟨next, hnext, h⟩ := bind_eq_ok.mp h
  refine bind_eq_ok.mpr ⟨next, stable_advance offset length bytes more next hnext, ?_⟩
  rw [advance] at hnext
  split_ifs at hnext with hlength
  rw [slice, List.take_append_of_le_length (by omega)]
  exact h

lemma stable_jksEntry : Stable fun bytes => jksEntry bytes offset := by
  unfold jksEntry
  refine (stable_readUint32 _).bind fun tag => (stable_readUint16 _).bind fun aliasLen => ?_
  refine (stable_advance _ _).bind fun offset => (stable_advance _ _).bind fun offset => ?_
  apply Stable.ite
  · refine (stable_readUint32 _).bind fun keyLen => (stable_advance _ _).bind fun offset => ?_
    refine (stable_readUint32 _).bind fun chainLen => (stable_skipChain _ _).bind fun offset => ?_
    exact stable_const _
  · apply Stable.ite
    · refine (stable_readUint16 _).bind fun typeLen => (stable_advance _ _).bind fun offset => ?_
      exact (stable_readUint32 _).bind fun certLen => stable_certificate _ _
    · exact stable_const _

/-- The record stream fails for one reason only: it ends too early. -/
lemma failsWith_jksEntry : FailsWith .truncated fun bytes => jksEntry bytes offset := by
  unfold jksEntry
  refine (failsWith_readUint32 _).bind fun tag => (failsWith_readUint16 _).bind fun aliasLen => ?_
  refine (failsWith_advance _ _).bind fun offset => (failsWith_advance _ _).bind fun offset => ?_
  apply FailsWith.ite
  · refine (failsWith_readUint32 _).bind fun keyLen => (failsWith_advance _ _).bind fun offset => ?_
    refine (failsWith_readUint32 _).bind fun chainLen => ?_
    exact (failsWith_skipChain _ _).bind fun offset => failsWith_ok _
  · apply FailsWith.ite
    · refine (failsWith_readUint16 _).bind fun typeLen => ?_
      refine (failsWith_advance _ _).bind fun offset => ?_
      refine (failsWith_readUint32 _).bind fun certLen => ?_
      intro bytes reason h
      rcases bind_eq_error.mp h with h | ⟨next, -, h⟩
      · exact failsWith_advance _ _ bytes reason h
      · cases h
    · exact failsWith_error

end Cut

section Truncation
variable {bytes : List UInt8} {offset : ℕ}

lemma le_of_readUint32 {n : ℕ} (h : readUint32 bytes offset = .ok n) :
    offset + 4 ≤ bytes.length := by
  rw [readUint32] at h
  split_ifs at h with hlength
  omega

lemma le_of_advance {length next : ℕ} (h : advance bytes offset length = .ok next) :
    next ≤ bytes.length := by
  rw [advance] at h
  split_ifs at h with hlength
  cases h
  omega

lemma le_of_skipChain {links next : ℕ} (hoffset : offset ≤ bytes.length)
    (h : skipChain bytes links offset = .ok next) : next ≤ bytes.length := by
  induction links generalizing offset with
  | zero =>
    cases h
    exact hoffset
  | succ links ih =>
    obtain ⟨typeLen, -, h⟩ := bind_eq_ok.mp h
    obtain ⟨afterType, -, h⟩ := bind_eq_ok.mp h
    obtain ⟨certLen, -, h⟩ := bind_eq_ok.mp h
    obtain ⟨afterCert, hcert, h⟩ := bind_eq_ok.mp h
    exact ih (le_of_advance hcert) h

/-- An entry that was read ends within the bytes. -/
lemma le_of_jksEntry {certificate : Option (List UInt8)} {next : ℕ}
    (h : jksEntry bytes offset = .ok (certificate, next)) : next ≤ bytes.length := by
  obtain ⟨tag, -, h⟩ := bind_eq_ok.mp h
  obtain ⟨aliasLen, -, h⟩ := bind_eq_ok.mp h
  obtain ⟨afterAlias, -, h⟩ := bind_eq_ok.mp h
  obtain ⟨afterTimestamp, -, h⟩ := bind_eq_ok.mp h
  split_ifs at h
  · obtain ⟨keyLen, -, h⟩ := bind_eq_ok.mp h
    obtain ⟨afterKey, -, h⟩ := bind_eq_ok.mp h
    obtain ⟨chainLen, hchainLen, h⟩ := bind_eq_ok.mp h
    obtain ⟨afterChain, hchain, h⟩ := bind_eq_ok.mp h
    cases h
    exact le_of_skipChain (le_of_readUint32 hchainLen) hchain
  · obtain ⟨typeLen, -, h⟩ := bind_eq_ok.mp h
    obtain ⟨afterType, -, h⟩ := bind_eq_ok.mp h
    obtain ⟨certLen, -, h⟩ := bind_eq_ok.mp h
    obtain ⟨afterCert, hcert, h⟩ := bind_eq_ok.mp h
    cases h
    exact le_of_advance hcert

/-- An entry that the bytes end within is not read; one that they hold is. -/
lemma jksEntry_cut {more : List UInt8} (entry : JksEntry)
    (h : At (bytes ++ more) offset entry.bytes) :
    jksEntry bytes offset = .error .truncated ∨
      jksEntry bytes offset = .ok (entry.trusted?, offset + entry.bytes.length) ∧
        offset + entry.bytes.length ≤ bytes.length := by
  cases hentry : jksEntry bytes offset with
  | error reason =>
    rw [failsWith_jksEntry offset bytes reason hentry]
    exact Or.inl rfl
  | ok result =>
    have hwhole : jksEntry (bytes ++ more) offset = .ok result :=
      stable_jksEntry offset bytes more result hentry
    rw [jksEntry_at entry h, Except.ok.injEq] at hwhole
    subst hwhole
    exact Or.inr ⟨rfl, le_of_jksEntry hentry⟩

/-- Bytes that end within the entries are not read to the last of them, wherever the cap does not
come first. -/
theorem jksEntries_cut {more : List UInt8} (entries : List JksEntry)
    (certificates : List (List UInt8)) (hoffset : offset ≤ bytes.length)
    (hcap : certificates.length + (trustedCerts entries).length < maxKeystoreCertificates)
    (h : At (bytes ++ more) offset (entries.flatMap JksEntry.bytes))
    (hcut : bytes.length < offset + (entries.flatMap JksEntry.bytes).length) :
    jksEntries bytes entries.length offset certificates = .error .truncated := by
  induction entries generalizing offset certificates with
  | nil =>
    rw [List.flatMap_nil, List.length_nil] at hcut
    omega
  | cons entry entries ih =>
    rw [List.flatMap_cons] at h
    rw [List.flatMap_cons, List.length_append] at hcut
    rw [trustedCerts_cons, List.length_append] at hcap
    rw [List.length_cons, jksEntries, if_pos (by omega)]
    rcases jksEntry_cut entry h.left with herror | ⟨hentry, hle⟩
    · rw [herror]
    · rw [hentry]
      apply ih _ hle
      · rw [List.length_append]
        omega
      · exact h.right
      · omega

end Truncation

section RoundTrip
variable (store : JksStore)

def JksStore.header : List UInt8 :=
  bigEndian 4 jksMagic ++ (bigEndian 4 store.version.toNat ++ bigEndian 4 store.entries.length)

lemma buildJks_eq : buildJks store = store.header ++ store.entries.flatMap JksEntry.bytes := by
  simp only [buildJks, JksStore.header, List.append_assoc]

lemma length_header : store.header.length = 12 := by
  simp [JksStore.header]

variable {store} {bytes more : List UInt8}

lemma jksHeader_of_at {version count : ℕ} (h : At bytes 0
    (bigEndian 4 jksMagic ++ (bigEndian 4 version ++ bigEndian 4 count))) (hfits : count < 256 ^ 4) :
    jksHeader bytes = .ok (count, 12) := by
  have hversion := h.right.left
  have hcount := h.right.right
  rw [length_bigEndian] at hversion hcount
  rw [length_bigEndian] at hcount
  unfold jksHeader
  refine bind_eq_ok.mpr ⟨_, advance_bigEndian hversion, ?_⟩
  exact bind_eq_ok.mpr ⟨_, readUint32_bigEndian hcount hfits, rfl⟩

lemma jksHeader_at (h : At bytes 0 store.header) :
    jksHeader bytes = .ok (store.entries.length, 12) := jksHeader_of_at h store.fits

lemma stable_jksHeader : Stable jksHeader := by
  change Stable fun bytes => jksHeader bytes
  unfold jksHeader
  refine (stable_advance _ _).bind fun offset => (stable_readUint32 _).bind fun count => ?_
  exact stable_const _

lemma failsWith_jksHeader : FailsWith .truncated jksHeader := by
  change FailsWith .truncated fun bytes => jksHeader bytes
  unfold jksHeader
  refine (failsWith_advance _ _).bind fun offset => (failsWith_readUint32 _).bind fun count => ?_
  exact failsWith_ok _

/-- The header is read, unless the bytes end within it. -/
lemma jksHeader_cut (h : At (bytes ++ more) 0 store.header) :
    jksHeader bytes = .error .truncated ∨
      jksHeader bytes = .ok (store.entries.length, 12) ∧ 12 ≤ bytes.length := by
  cases hheader : jksHeader bytes with
  | error reason =>
    rw [failsWith_jksHeader bytes reason hheader]
    exact Or.inl rfl
  | ok header =>
    have hwhole := stable_jksHeader bytes more header hheader
    rw [jksHeader_at h, Except.ok.injEq] at hwhole
    subst hwhole
    obtain ⟨offset, hoffset, hheader⟩ := bind_eq_ok.mp hheader
    obtain ⟨count, hcount, hheader⟩ := bind_eq_ok.mp hheader
    have hle := le_of_readUint32 hcount
    cases hheader
    exact Or.inr ⟨rfl, hle⟩

/-- The magic decides for this parser. -/
lemma readKeystore_of_magic (h : At (bytes ++ more) 0 (buildJks store))
    (hlength : 4 ≤ bytes.length) : readKeystore bytes = tryParse .jks (parseJks bytes) := by
  have hmagic : readUint32 (bytes ++ more) 0 = .ok jksMagic :=
    readUint32_bigEndian h.left (by decide)
  cases hread : readUint32 bytes 0 with
  | error reason =>
    rw [readUint32] at hread
    split_ifs at hread
    omega
  | ok magic =>
    have hwhole : readUint32 (bytes ++ more) 0 = .ok magic :=
      stable_readUint32 0 bytes more magic hread
    rw [hmagic, Except.ok.injEq] at hwhole
    rw [readKeystore, hread]
    exact if_pos hwhole.symm

/-- A whole store is read to its last entry or to the cap. -/
lemma parseJks_at (h : At bytes 0 (buildJks store)) : parseJks bytes = .ok {
    format := some .jks
    certificates := (trustedCerts store.entries).take maxKeystoreCertificates
    isPartial := false
    failure := if trustedCerts store.entries = [] then some .noCertificates else none } := by
  rw [buildJks_eq] at h
  have hentries := h.right
  rw [length_header, Nat.zero_add] at hentries
  refine bind_eq_ok.mpr ⟨_, jksHeader_at h.left, ?_⟩
  refine bind_eq_ok.mpr ⟨_, jksEntries_at store.entries [] (Nat.zero_le _) hentries, ?_⟩
  rw [List.nil_append]
  cases htrusted : trustedCerts store.entries with
  | nil => rfl
  | cons der rest => rfl

/-- A store cut before its last entry ends is read to no end. -/
lemma parseJks_cut (h : At (bytes ++ more) 0 (buildJks store))
    (hcap : (trustedCerts store.entries).length < maxKeystoreCertificates)
    (hcut : bytes.length < (buildJks store).length) : parseJks bytes = .error .truncated := by
  rw [buildJks_eq] at h hcut
  have hentries := h.right
  rw [length_header, Nat.zero_add] at hentries
  rw [List.length_append, length_header] at hcut
  rcases jksHeader_cut h.left with herror | ⟨hheader, hle⟩
  · exact bind_eq_error.mpr (Or.inl herror)
  · refine bind_eq_error.mpr (Or.inr ⟨_, hheader, ?_⟩)
    refine bind_eq_error.mpr (Or.inl (jksEntries_cut store.entries [] hle ?_ hentries hcut))
    rwa [List.length_nil, Nat.zero_add]

variable (store) (trailing : List UInt8)

/-- Reading undoes writing: a JKS store gives back its trusted certificates, as many as the cap
admits, and one cut before its last entry ends gives back that it is truncated. -/
theorem readKeystore_buildJks :
    readKeystore (buildJks store ++ trailing) = {
      format := some .jks
      certificates := (trustedCerts store.entries).take maxKeystoreCertificates
      isPartial := false
      failure := if trustedCerts store.entries = [] then some .noCertificates else none } ∧
    ((trustedCerts store.entries).length < maxKeystoreCertificates → ∀ length, 4 ≤ length →
      length < (buildJks store).length →
      readKeystore ((buildJks store ++ trailing).take length) =
        failureResult (some .jks) .truncated) := by
  have hwhole : At (buildJks store ++ trailing) 0 (buildJks store) := at_zero trailing
  constructor
  · have hat := hwhole
    rw [← List.append_nil (buildJks store ++ trailing)] at hat
    have hlength : 4 ≤ (buildJks store ++ trailing).length := by
      rw [List.length_append, buildJks_eq, List.length_append, length_header]
      omega
    rw [readKeystore_of_magic hat hlength, parseJks_at hwhole]
    rfl
  · intro hcap length hfour hcut
    have htake : ((buildJks store ++ trailing).take length).length = length := by
      rw [List.length_take, List.length_append]
      omega
    rw [← List.take_append_drop length (buildJks store ++ trailing)] at hwhole
    rw [readKeystore_of_magic hwhole (by omega), parseJks_cut hwhole hcap (by omega)]
    rfl

/-- `X.509` -/
def x509Type : Field 2 := ⟨[0x58, 0x2e, 0x35, 0x30, 0x39], by decide⟩

/-- A private key with a chain of two, and a trusted certificate after it. -/
def keyAndTrusted : JksStore where
  version := 2
  entries := [
    .privateKey ⟨[0x6b], by decide⟩ 0 ⟨[0x01, 0x02, 0x03], by decide⟩
      [⟨x509Type, ⟨[0x30, 0x01, 0x00], by decide⟩⟩, ⟨x509Type, ⟨[0x30, 0x01, 0x01], by decide⟩⟩]
      (by decide),
    .trustedCert ⟨[0x61], by decide⟩ 0 x509Type ⟨[0x30, 0x00], by decide⟩]
  fits := by decide

/-- Cut within the chain, within the trusted certificate, and not at all. -/
theorem readKeystore_buildJks_keyAndTrusted :
    readKeystore ((buildJks keyAndTrusted ++ [0x00]).take 50) =
        failureResult (some .jks) .truncated ∧
      readKeystore ((buildJks keyAndTrusted ++ [0x00]).take 80) =
        failureResult (some .jks) .truncated ∧
      (readKeystore (buildJks keyAndTrusted ++ [0x00])).certificates = [[0x30, 0x00]] := by
  have hread := readKeystore_buildJks keyAndTrusted [0x00]
  exact ⟨hread.2 (by decide) 50 (by decide) (by decide),
    hread.2 (by decide) 80 (by decide) (by decide), by rw [hread.1]; rfl⟩

end RoundTrip
end Portcall.Net
