import Portcall.Library.Segment
import Portcall.Truststore.Stores

/-! The reader of Java's `cacerts` container, JKS and PKCS#12: bytes in, DER out. Nothing is
decrypted; keys are skipped by their length. -/
namespace Portcall.Net
open Segment

inductive KeystoreFailure where
  | unsupportedFormat
  | unsupportedEncoding
  | truncated
  | encrypted
  | noCertificates
  deriving DecidableEq, Repr

structure KeystoreRead where
  format : Option KeystoreFormat
  /-- DER, in file order. -/
  certificates : List (List UInt8)
  isPartial : Bool
  failure : Option KeystoreFailure
  deriving DecidableEq, Repr

def maxDerDepth : ℕ := 16
def maxKeystoreCertificates : ℕ := 4096

def jksMagic : ℕ := 0xfeedfeed
def jceksMagic : ℕ := 0xcececece

def jksPrivateKeyTag : ℕ := 1
def jksTrustedCertTag : ℕ := 2

def failureResult (format : Option KeystoreFormat) (reason : KeystoreFailure) : KeystoreRead where
  format
  certificates := []
  isPartial := false
  failure := some reason

variable (bytes : List UInt8)

/-- `bytes[index]` of an index in range. -/
def byteAt (index : ℕ) : ℕ := (bytes.getD index 0).toNat

/-- `bytes.slice(start, stop)` -/
def slice (start stop : ℕ) : List UInt8 := (bytes.take stop).drop start

def readUint32 (offset : ℕ) : Except KeystoreFailure ℕ :=
  if bytes.length < offset + 4 then .error .truncated
  else .ok (((byteAt bytes offset * 256 + byteAt bytes (offset + 1)) * 256 +
    byteAt bytes (offset + 2)) * 256 + byteAt bytes (offset + 3))

def readUint16 (offset : ℕ) : Except KeystoreFailure ℕ :=
  if bytes.length < offset + 2 then .error .truncated
  else .ok (byteAt bytes offset * 256 + byteAt bytes (offset + 1))

/-- `offset + length`, as far as there are bytes. -/
def advance (offset length : ℕ) : Except KeystoreFailure ℕ :=
  if bytes.length < offset + length then .error .truncated else .ok (offset + length)

section Jks

/-- The certificates that ride along a private key, skipped by their lengths. -/
def skipChain : ℕ → ℕ → Except KeystoreFailure ℕ
  | 0, offset => .ok offset
  | links + 1, offset => do
    let typeLen ← readUint16 bytes offset
    let offset ← advance bytes (offset + 2) typeLen
    let certLen ← readUint32 bytes offset
    let offset ← advance bytes (offset + 4) certLen
    skipChain links offset

/-- One entry of the record stream: the certificate it holds, if it is a trusted one, and the
offset after it. -/
def jksEntry (offset : ℕ) : Except KeystoreFailure (Option (List UInt8) × ℕ) := do
  let tag ← readUint32 bytes offset
  let aliasLen ← readUint16 bytes (offset + 4)
  let offset ← advance bytes (offset + 6) aliasLen
  let offset ← advance bytes offset 8
  if tag = jksPrivateKeyTag then
    let keyLen ← readUint32 bytes offset
    let offset ← advance bytes (offset + 4) keyLen
    let chainLen ← readUint32 bytes offset
    let offset ← skipChain bytes chainLen (offset + 4)
    return (none, offset)
  else if tag = jksTrustedCertTag then
    let typeLen ← readUint16 bytes offset
    let offset ← advance bytes (offset + 2) typeLen
    let certLen ← readUint32 bytes offset
    let certStart := offset + 4
    let offset ← advance bytes certStart certLen
    return (some (slice bytes certStart (certStart + certLen)), offset)
  else .error .truncated

/-- The loop over the entries the count announces; `left` of them are to come. -/
def jksEntries : ℕ → ℕ → List (List UInt8) → Except KeystoreFailure (List (List UInt8))
  | 0, _, certificates => .ok certificates
  | left + 1, offset, certificates =>
    if certificates.length < maxKeystoreCertificates then
      match jksEntry bytes offset with
      | .error reason => .error reason
      | .ok (certificate, next) => jksEntries left next (certificates ++ certificate.toList)
    else .ok certificates

/-- The count, and the offset of the first entry. -/
def jksHeader : Except KeystoreFailure (ℕ × ℕ) := do
  let offset ← advance bytes 4 4
  let count ← readUint32 bytes offset
  return (count, offset + 4)

def parseJks : Except KeystoreFailure KeystoreRead := do
  let (count, offset) ← jksHeader bytes
  let certificates ← jksEntries bytes count offset []
  return {
    format := some .jks
    certificates
    isPartial := false
    failure := if certificates.isEmpty then some .noCertificates else none }

end Jks

section Pkcs12

def tagSequence : ℕ := 0x30
def tagInteger : ℕ := 0x02
def tagObjectIdentifier : ℕ := 0x06
def tagOctetString : ℕ := 0x04
def tagContext0 : ℕ := 0xa0

/-- 1.2.840.113549.1.7.1 -/
def oidData : List UInt8 := [0x2a, 0x86, 0x48, 0x86, 0xf7, 0x0d, 0x01, 0x07, 0x01]
/-- 1.2.840.113549.1.7.6 -/
def oidEncryptedData : List UInt8 := [0x2a, 0x86, 0x48, 0x86, 0xf7, 0x0d, 0x01, 0x07, 0x06]
/-- 1.2.840.113549.1.12.10.1.3 -/
def oidCertBag : List UInt8 :=
  [0x2a, 0x86, 0x48, 0x86, 0xf7, 0x0d, 0x01, 0x0c, 0x0a, 0x01, 0x03]
/-- 1.2.840.113549.1.9.22.1 -/
def oidX509Certificate : List UInt8 :=
  [0x2a, 0x86, 0x48, 0x86, 0xf7, 0x0d, 0x01, 0x09, 0x16, 0x01]

/-- The tag of a value and the bounds of its content. -/
structure Tlv where
  tag : ℕ
  start : ℕ
  «end» : ℕ
  deriving DecidableEq, Repr

/-- A length, and the offset after it: definite, and written in at most four bytes. -/
def readLength (offset : ℕ) : Except KeystoreFailure (ℕ × ℕ) :=
  if bytes.length ≤ offset then .error .truncated
  else
    let first := byteAt bytes offset
    if first < 0x80 then .ok (first, offset + 1)
    else if first = 0x80 then .error .unsupportedEncoding
    else
      let lengthBytes := first - 0x80
      if 4 < lengthBytes then .error .unsupportedEncoding
      else if bytes.length < offset + 1 + lengthBytes then .error .truncated
      else .ok
        ((List.range lengthBytes).foldl
          (fun length index => length * 256 + byteAt bytes (offset + 1 + index)) 0,
          offset + 1 + lengthBytes)

/-- The value at an offset, at a depth of nesting. -/
def readTlv (offset depth : ℕ) : Except KeystoreFailure Tlv :=
  if maxDerDepth < depth then .error .unsupportedEncoding
  else if bytes.length ≤ offset then .error .truncated
  else match readLength bytes (offset + 1) with
    | .error reason => .error reason
    | .ok (length, next) =>
      if bytes.length < next + length then .error .truncated
      else .ok ⟨byteAt bytes offset, next, next + length⟩

/-- The value at an offset, when it has this tag. -/
def readTagged (offset depth tag : ℕ) (reason : KeystoreFailure) : Except KeystoreFailure Tlv := do
  let tlv ← readTlv bytes offset depth
  if tlv.tag = tag then .ok tlv else .error reason

/-- The octets a `ContentInfo` wraps in the clear. -/
def readContentInfoOctets (ci : Tlv) (depth : ℕ) : Except KeystoreFailure (List UInt8) := do
  let oid ← readTagged bytes ci.start depth tagObjectIdentifier .unsupportedFormat
  let oidBytes := slice bytes oid.start oid.end
  if oidBytes = oidEncryptedData then .error .encrypted
  else if oidBytes ≠ oidData then .error .unsupportedFormat
  else
    let wrapper ← readTagged bytes oid.end depth tagContext0 .unsupportedFormat
    let octet ← readTagged bytes wrapper.start (depth + 1) tagOctetString .unsupportedFormat
    return slice bytes octet.start octet.end

/-- The certificate in a bag, if it is a bag of one. -/
def extractCertFromBag (bag : Tlv) (depth : ℕ) : Except KeystoreFailure (Option (List UInt8)) := do
  let bagId ← readTagged bytes bag.start depth tagObjectIdentifier .truncated
  let bagValueWrapper ← readTagged bytes bagId.end depth tagContext0 .truncated
  if slice bytes bagId.start bagId.end ≠ oidCertBag then return none
  else
    let certBag ← readTagged bytes bagValueWrapper.start (depth + 1) tagSequence .truncated
    let certId ← readTagged bytes certBag.start (depth + 2) tagObjectIdentifier .truncated
    if slice bytes certId.start certId.end ≠ oidX509Certificate then return none
    else
      let certValueWrapper ← readTagged bytes certId.end (depth + 2) tagContext0 .truncated
      let certOctet ← readTagged bytes certValueWrapper.start (depth + 3) tagOctetString .truncated
      return some (slice bytes certOctet.start certOctet.end)

/-- The bag at a position: its certificate, if it holds one, and the position after it. -/
def bagAt (bagPos : ℕ) : Except KeystoreFailure (Option (List UInt8) × ℕ) := do
  let bag ← readTagged bytes bagPos 7 tagSequence .truncated
  let certificate ← extractCertFromBag bytes bag 8
  return (certificate, bag.end)

/-- The `ContentInfo` at a position: its safe contents and their bags, unless they are encrypted,
and the position after it. -/
def contentInfoAt (pos : ℕ) : Except KeystoreFailure (Option (List UInt8 × Tlv) × ℕ) := do
  let ci ← readTagged bytes pos 4 tagSequence .truncated
  match readContentInfoOctets bytes ci 5 with
  | .error .encrypted => return (none, ci.end)
  | .error reason => .error reason
  | .ok safeContents =>
    let bagsSeq ← readTagged safeContents 0 6 tagSequence .truncated
    return (some (safeContents, bagsSeq), ci.end)

end Pkcs12

section Progress
variable {bytes} {depth tag bagPos pos next : ℕ} {reason : KeystoreFailure}

lemma lt_of_readLength {offset length : ℕ} (h : readLength bytes offset = .ok (length, next)) :
    offset < next := by
  unfold readLength at h
  split_ifs at h
  dsimp only at h
  split_ifs at h
  · rw [Except.ok.injEq, Prod.mk.injEq] at h
    omega
  · rw [Except.ok.injEq, Prod.mk.injEq] at h
    omega

lemma lt_end_of_readTlv {offset : ℕ} {tlv : Tlv} (h : readTlv bytes offset depth = .ok tlv) :
    offset < tlv.end := by
  unfold readTlv at h
  split_ifs at h
  split at h
  · cases h
  · rename_i length next hlength
    split_ifs at h
    have hnext := lt_of_readLength hlength
    rw [Except.ok.injEq] at h
    subst h
    dsimp only
    omega

lemma readTagged_eq_ok {offset : ℕ} {tlv : Tlv} :
    readTagged bytes offset depth tag reason = .ok tlv ↔
      readTlv bytes offset depth = .ok tlv ∧ tlv.tag = tag := by
  unfold readTagged
  rw [bind_eq_ok]
  constructor
  · rintro ⟨found, hfound, h⟩
    split_ifs at h with htag
    cases h
    exact ⟨hfound, htag⟩
  · rintro ⟨hfound, htag⟩
    exact ⟨tlv, hfound, if_pos htag⟩

/-- A bag ends after it starts. -/
lemma lt_of_bagAt {certificate : Option (List UInt8)}
    (h : bagAt bytes bagPos = .ok (certificate, next)) : bagPos < next := by
  obtain ⟨bag, hbag, h⟩ := bind_eq_ok.mp h
  obtain ⟨found, -, h⟩ := bind_eq_ok.mp h
  cases h
  exact lt_end_of_readTlv (readTagged_eq_ok.mp hbag).1

/-- So does a `ContentInfo`. -/
lemma lt_of_contentInfoAt {contents : Option (List UInt8 × Tlv)}
    (h : contentInfoAt bytes pos = .ok (contents, next)) : pos < next := by
  obtain ⟨ci, hci, h⟩ := bind_eq_ok.mp h
  have hlt := lt_end_of_readTlv (readTagged_eq_ok.mp hci).1
  split at h
  · cases h
    exact hlt
  · cases h
  · obtain ⟨bagsSeq, -, h⟩ := bind_eq_ok.mp h
    cases h
    exact hlt

end Progress

section Loops

/-- The loop over the bags of one safe contents. -/
def bagsLoop (safeContents : List UInt8) (bagsEnd bagPos : ℕ) (certificates : List (List UInt8)) :
    Except KeystoreFailure (List (List UInt8)) :=
  if bagPos < bagsEnd ∧ certificates.length < maxKeystoreCertificates then
    match h : bagAt safeContents bagPos with
    | .error reason => .error reason
    | .ok (certificate, next) =>
      have := lt_of_bagAt h
      bagsLoop safeContents bagsEnd next (certificates ++ certificate.toList)
  else .ok certificates
termination_by bagsEnd - bagPos

/-- The loop over the `ContentInfo`s of the authenticated safe; an encrypted one is passed over and
remembered. -/
def safeLoop (authSafe : List UInt8) (safeEnd pos : ℕ) (certificates : List (List UInt8))
    (sawEncrypted : Bool) : Except KeystoreFailure (List (List UInt8) × Bool) :=
  if pos < safeEnd ∧ certificates.length < maxKeystoreCertificates then
    match h : contentInfoAt authSafe pos with
    | .error reason => .error reason
    | .ok (none, next) =>
      have := lt_of_contentInfoAt h
      safeLoop authSafe safeEnd next certificates true
    | .ok (some (safeContents, bagsSeq), next) =>
      have := lt_of_contentInfoAt h
      match bagsLoop safeContents bagsSeq.end bagsSeq.start certificates with
      | .error reason => .error reason
      | .ok certificates => safeLoop authSafe safeEnd next certificates sawEncrypted
  else .ok (certificates, sawEncrypted)
termination_by safeEnd - pos

/-- The authenticated safe of a container, and the sequence in it. -/
def openPkcs12 : Except KeystoreFailure (List UInt8 × Tlv) := do
  let pfx ← readTagged bytes 0 0 tagSequence .unsupportedFormat
  let version ← readTagged bytes pfx.start 1 tagInteger .unsupportedFormat
  let authSafeCi ← readTagged bytes version.end 1 tagSequence .unsupportedFormat
  let authSafe ← readContentInfoOctets bytes authSafeCi 2
  let safeSeq ← readTagged authSafe 0 3 tagSequence .truncated
  return (authSafe, safeSeq)

def parsePkcs12 : Except KeystoreFailure KeystoreRead := do
  let (authSafe, safeSeq) ← openPkcs12 bytes
  let (certificates, sawEncrypted) ← safeLoop authSafe safeSeq.end safeSeq.start [] false
  if certificates.isEmpty && sawEncrypted then .error .encrypted
  else return {
    format := some .pkcs12
    certificates
    isPartial := sawEncrypted && !certificates.isEmpty
    failure := if certificates.isEmpty then some .noCertificates else none }

end Loops

/-- Run one format's parser; whatever it stops on is a failure of the read. -/
def tryParse (format : KeystoreFormat) (result : Except KeystoreFailure KeystoreRead) :
    KeystoreRead :=
  match result with
  | .ok read => read
  | .error reason => failureResult (some format) reason

def readKeystore : KeystoreRead :=
  match readUint32 bytes 0 with
  | .error _ => failureResult none .unsupportedFormat
  | .ok magic =>
    if magic = jksMagic then tryParse .jks (parseJks bytes)
    else if magic = jceksMagic then failureResult none .unsupportedFormat
    else if byteAt bytes 0 = tagSequence then tryParse .pkcs12 (parsePkcs12 bytes)
    else failureResult none .unsupportedFormat

end Portcall.Net
