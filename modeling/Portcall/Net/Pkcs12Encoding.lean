import Mathlib.Data.List.Induction
import Portcall.Net.JksEncoding
import Portcall.Net.KeystoreContents

/-! The PKCS#12 container as its grammar has it, every element in any definite encoding of at most
four length bytes, and that reading it gives back the certificates in the clear. -/
namespace Portcall.Net
open Segment

section Grammar

/-- The definite encodings of a length, minimal or not. -/
inductive LengthOctets : ℕ → List UInt8 → Prop where
  | short {n : ℕ} (h : n < 0x80) : LengthOctets n [UInt8.ofNat n]
  | long (digits : List UInt8) (hne : digits ≠ []) (hfour : digits.length ≤ 4) :
      LengthOctets (ofBigEndian digits) (UInt8.ofNat (0x80 + digits.length) :: digits)

/-- An element with this tag and content. -/
def Element (tag : ℕ) (content element : List UInt8) : Prop :=
  ∃ octets, LengthOctets content.length octets ∧ element = UInt8.ofNat tag :: (octets ++ content)

/-- `ContentInfo { contentType: id-data, content: [0] OCTET STRING }` -/
def DataInfo (payload element : List UInt8) : Prop :=
  ∃ oid octet wrapper, Element tagObjectIdentifier oidData oid ∧
    Element tagOctetString payload octet ∧ Element tagContext0 octet wrapper ∧
    Element tagSequence (oid ++ wrapper) element

/-- `ContentInfo { contentType: id-encryptedData, .. }` -/
def EncryptedInfo (payload element : List UInt8) : Prop :=
  ∃ oid, Element tagObjectIdentifier oidEncryptedData oid ∧
    Element tagSequence (oid ++ payload) element

inductive SafeBag where
  | x509Certificate (der : List UInt8)
  | otherCertificate (certId certValue : List UInt8) (h : certId ≠ oidX509Certificate)
  | otherBag (bagId value : List UInt8) (h : bagId ≠ oidCertBag)

/-- `SafeBag { bagId, bagValue: [0], bagAttributes }`; what comes after the value may be empty. -/
def BagElement (bagId value element : List UInt8) : Prop :=
  ∃ oid wrapper attributes, Element tagObjectIdentifier bagId oid ∧
    Element tagContext0 value wrapper ∧ Element tagSequence (oid ++ (wrapper ++ attributes)) element

/-- `CertBag { certId, .. }` in its safe bag. -/
def CertBagElement (certId certValue element : List UInt8) : Prop :=
  ∃ oid certBag, Element tagObjectIdentifier certId oid ∧
    Element tagSequence (oid ++ certValue) certBag ∧ BagElement oidCertBag certBag element

def SafeBag.Encodes : SafeBag → List UInt8 → Prop
  | x509Certificate der, element => ∃ octet wrapper, Element tagOctetString der octet ∧
      Element tagContext0 octet wrapper ∧ CertBagElement oidX509Certificate wrapper element
  | otherCertificate certId certValue _, element => CertBagElement certId certValue element
  | otherBag bagId value _, element => BagElement bagId value element

inductive ContentInfo where
  | encrypted (payload : List UInt8)
  | data (bags : List SafeBag)

/-- The payload of an `id-data` is a sequence, one element after the other. -/
def SequenceInfo {α : Type} (Encodes : α → List UInt8 → Prop) (items : List α)
    (element : List UInt8) : Prop :=
  ∃ elements sequence, List.Forall₂ Encodes items elements ∧
    Element tagSequence elements.flatten sequence ∧ DataInfo sequence element

def ContentInfo.Encodes : ContentInfo → List UInt8 → Prop
  | encrypted payload, element => EncryptedInfo payload element
  | data bags, element => SequenceInfo SafeBag.Encodes bags element

/-- `PFX { version: INTEGER, authSafe, macData }`; the last may be empty. -/
def Pfx (authSafe bytes : List UInt8) : Prop :=
  ∃ number version macData, Element tagInteger number version ∧
    Element tagSequence (version ++ (authSafe ++ macData)) bytes

/-- A container of these contents. -/
def Pkcs12 (contents : List ContentInfo) (bytes : List UInt8) : Prop :=
  ∃ authSafe, SequenceInfo ContentInfo.Encodes contents authSafe ∧ Pfx authSafe bytes

/-- A container that is encrypted as a whole. -/
def EncryptedPkcs12 (payload bytes : List UInt8) : Prop :=
  ∃ authSafe, EncryptedInfo payload authSafe ∧ Pfx authSafe bytes

def SafeBag.der? : SafeBag → Option (List UInt8)
  | x509Certificate der => some der
  | otherCertificate .. | otherBag .. => none

def ContentInfo.certificates : ContentInfo → List (List UInt8)
  | encrypted _ => []
  | data bags => bags.filterMap SafeBag.der?

def ContentInfo.isEncrypted : ContentInfo → Bool
  | encrypted _ => true
  | data _ => false

end Grammar

section Elements
variable {bytes content element octets : List UInt8} {offset depth tag n : ℕ}
  {reason : KeystoreFailure}

lemma toNat_ofNat_of_lt (h : n < 256) : (UInt8.ofNat n).toNat = n :=
  Nat.mod_eq_of_lt h

lemma byteAt_head {head : UInt8} {rest : List UInt8} (h : At bytes offset (head :: rest)) :
    byteAt bytes offset = head.toNat := by
  have hbyte := @byteAt_at _ _ _ h 0 (Nat.succ_pos _)
  rwa [Nat.add_zero] at hbyte

lemma at_tail {head : UInt8} {rest : List UInt8} (h : At bytes offset (head :: rest)) :
    At bytes (offset + 1) rest := by
  rw [← List.singleton_append] at h
  exact h.right

/-- The loop over the length bytes reads the number they stand for. -/
lemma foldl_range_at {digits : List UInt8} (h : At bytes offset digits) :
    (List.range digits.length).foldl
      (fun length index => length * 256 + byteAt bytes (offset + index)) 0 =
      ofBigEndian digits := by
  induction digits using List.reverseRecOn with
  | nil => rfl
  | append_singleton digits digit ih =>
    rw [List.length_append, List.length_singleton, List.range_succ, List.foldl_append,
      ih h.left, ofBigEndian_concat]
    change ofBigEndian digits * 256 + byteAt bytes (offset + digits.length) = _
    rw [byteAt_head h.right]

lemma readLength_at (hlength : LengthOctets n octets) (h : At bytes offset octets) :
    readLength bytes offset = .ok (n, offset + octets.length) := by
  have hle := h.le
  cases hlength with
  | short hn =>
    have hfirst := byteAt_head h
    rw [toNat_ofNat_of_lt (by omega)] at hfirst
    rw [List.length_singleton] at hle
    rw [readLength, if_neg (by omega)]
    dsimp only
    rw [hfirst, if_pos hn]
    rfl
  | long digits hne hfour =>
    have hfirst := byteAt_head h
    have hpositive := List.length_pos_iff.mpr hne
    rw [toNat_ofNat_of_lt (by omega)] at hfirst
    rw [List.length_cons] at hle
    rw [readLength, if_neg (by omega)]
    dsimp only
    rw [hfirst, if_neg (by omega), if_neg (by omega), Nat.add_sub_cancel_left, if_neg (by omega),
      if_neg (by omega), foldl_range_at (at_tail h), List.length_cons]
    congr 2
    omega

/-- An element is read where it is, and its content is where it says. -/
theorem readTagged_at (helement : Element tag content element) (htag : tag < 256)
    (hdepth : depth ≤ maxDerDepth) (h : At bytes offset element) : ∃ start,
    readTagged bytes offset depth tag reason = .ok ⟨tag, start, start + content.length⟩ ∧
      At bytes start content ∧ start + content.length = offset + element.length := by
  obtain ⟨octets, hoctets, rfl⟩ := helement
  have hle := h.le
  have htail := at_tail h
  have hcontent := htail.right
  have hstart := hcontent.le
  have hread := readLength_at hoctets htail.left
  have hhead := byteAt_head h
  rw [toNat_ofNat_of_lt htag] at hhead
  rw [List.length_cons, List.length_append] at hle
  refine ⟨offset + 1 + octets.length, ?_, hcontent, ?_⟩
  · refine readTagged_eq_ok.mpr ⟨?_, rfl⟩
    rw [readTlv, if_neg (by omega), if_neg (by omega), hread]
    dsimp only
    rw [if_neg (by omega), hhead]
  · rw [List.length_cons, List.length_append]
    omega

end Elements

section Infos
variable {bytes payload element : List UInt8} {offset depth inner : ℕ} {reason : KeystoreFailure}

/-- What an `id-data` wraps is unwrapped. -/
lemma dataInfo_at (hinfo : DataInfo payload element) (h : At bytes offset element)
    (hdepth : depth ≤ maxDerDepth) (hinner : inner + 1 ≤ maxDerDepth) : ∃ ci,
    readTagged bytes offset depth tagSequence reason = .ok ci ∧
      ci.end = offset + element.length ∧ readContentInfoOctets bytes ci inner = .ok payload := by
  obtain ⟨oid, octet, wrapper, hoid, hoctet, hwrapper, hsequence⟩ := hinfo
  obtain ⟨start, hread, hcontent, hend⟩ := readTagged_at hsequence (by decide) hdepth h
  obtain ⟨oidStart, hreadOid, hoidBytes, hoidEnd⟩ :=
    readTagged_at hoid (by decide) (Nat.le_of_succ_le hinner) hcontent.left
  have hat := hcontent.right
  rw [← hoidEnd] at hat
  obtain ⟨wrapperStart, hreadWrapper, hinside, -⟩ :=
    readTagged_at hwrapper (by decide) (Nat.le_of_succ_le hinner) hat
  obtain ⟨octetStart, hreadOctet, hoctets, -⟩ := readTagged_at hoctet (by decide) hinner hinside
  refine ⟨_, hread, hend, ?_⟩
  refine bind_eq_ok.mpr ⟨_, hreadOid, ?_⟩
  dsimp only
  rw [slice_at hoidBytes, if_neg (by decide), if_neg (by simp)]
  refine bind_eq_ok.mpr ⟨_, hreadWrapper, bind_eq_ok.mpr ⟨_, hreadOctet, ?_⟩⟩
  dsimp only
  rw [slice_at hoctets]
  rfl

/-- An `id-encryptedData` is not. -/
lemma encryptedInfo_at (hinfo : EncryptedInfo payload element) (h : At bytes offset element)
    (hdepth : depth ≤ maxDerDepth) (hinner : inner ≤ maxDerDepth) : ∃ ci,
    readTagged bytes offset depth tagSequence reason = .ok ci ∧
      ci.end = offset + element.length ∧ readContentInfoOctets bytes ci inner = .error .encrypted := by
  obtain ⟨oid, hoid, hsequence⟩ := hinfo
  obtain ⟨start, hread, hcontent, hend⟩ := readTagged_at hsequence (by decide) hdepth h
  obtain ⟨oidStart, hreadOid, hoidBytes, -⟩ :=
    readTagged_at hoid (by decide) hinner hcontent.left
  refine ⟨_, hread, hend, bind_eq_error.mpr (Or.inr ⟨_, hreadOid, ?_⟩)⟩
  dsimp only
  rw [slice_at hoidBytes, if_pos rfl]

end Infos

section Bags
variable {bytes value certValue element : List UInt8} {bagId certId : List UInt8} {offset : ℕ}

/-- The parts of a safe bag that are read before its value is. -/
lemma bagElement_at (hbag : BagElement bagId value element) (h : At bytes offset element) :
    ∃ bag oid wrapper, readTagged bytes offset 7 tagSequence .truncated = .ok bag ∧
      bag.end = offset + element.length ∧
      readTagged bytes bag.start 8 tagObjectIdentifier .truncated = .ok oid ∧
      slice bytes oid.start oid.end = bagId ∧
      readTagged bytes oid.end 8 tagContext0 .truncated = .ok wrapper ∧
      At bytes wrapper.start value := by
  obtain ⟨oid, wrapper, attributes, hoid, hwrapper, hsequence⟩ := hbag
  obtain ⟨start, hread, hcontent, hend⟩ :=
    readTagged_at hsequence (by decide) (by decide : 7 ≤ maxDerDepth) h
  obtain ⟨oidStart, hreadOid, hoidBytes, hoidEnd⟩ :=
    readTagged_at hoid (by decide) (by decide : 8 ≤ maxDerDepth) hcontent.left
  have hat := hcontent.right.left
  rw [← hoidEnd] at hat
  obtain ⟨wrapperStart, hreadWrapper, hinside, -⟩ :=
    readTagged_at hwrapper (by decide) (by decide : 8 ≤ maxDerDepth) hat
  exact ⟨_, _, _, hread, hend, hreadOid, slice_at hoidBytes, hreadWrapper, hinside⟩

/-- A bag of another kind is recognised by its identifier and passed over. -/
lemma bagAt_otherBag (hbag : BagElement bagId value element) (h : At bytes offset element)
    (hother : bagId ≠ oidCertBag) : bagAt bytes offset = .ok (none, offset + element.length) := by
  obtain ⟨bag, oid, wrapper, hread, hend, hreadOid, hoid, hreadWrapper, -⟩ := bagElement_at hbag h
  refine bind_eq_ok.mpr ⟨_, hread, bind_eq_ok.mpr ⟨none, ?_, ?_⟩⟩
  · refine bind_eq_ok.mpr ⟨_, hreadOid, bind_eq_ok.mpr ⟨_, hreadWrapper, ?_⟩⟩
    rw [hoid, if_pos hother]
    rfl
  · rw [hend]
    rfl

/-- The parts of a bag of one certificate that are read before the certificate is. -/
lemma certBagElement_at (hbag : CertBagElement certId certValue element)
    (h : At bytes offset element) : ∃ bag oid wrapper certBag certOid,
    readTagged bytes offset 7 tagSequence .truncated = .ok bag ∧
      bag.end = offset + element.length ∧
      readTagged bytes bag.start 8 tagObjectIdentifier .truncated = .ok oid ∧
      slice bytes oid.start oid.end = oidCertBag ∧
      readTagged bytes oid.end 8 tagContext0 .truncated = .ok wrapper ∧
      readTagged bytes wrapper.start 9 tagSequence .truncated = .ok certBag ∧
      readTagged bytes certBag.start 10 tagObjectIdentifier .truncated = .ok certOid ∧
      slice bytes certOid.start certOid.end = certId ∧ At bytes certOid.end certValue := by
  obtain ⟨certOid, certBag, hcertOid, hcertBag, hbag⟩ := hbag
  obtain ⟨bag, oid, wrapper, hread, hend, hreadOid, hoid, hreadWrapper, hinside⟩ :=
    bagElement_at hbag h
  obtain ⟨start, hreadCertBag, hcontent, -⟩ :=
    readTagged_at hcertBag (by decide) (by decide : 9 ≤ maxDerDepth) hinside
  obtain ⟨certOidStart, hreadCertOid, hcertOidBytes, hcertOidEnd⟩ :=
    readTagged_at hcertOid (by decide) (by decide : 10 ≤ maxDerDepth) hcontent.left
  have hat := hcontent.right
  rw [← hcertOidEnd] at hat
  exact ⟨_, _, _, _, _, hread, hend, hreadOid, hoid, hreadWrapper, hreadCertBag, hreadCertOid,
    slice_at hcertOidBytes, hat⟩

/-- So is a certificate of another kind. -/
lemma bagAt_otherCertificate (hbag : CertBagElement certId certValue element)
    (h : At bytes offset element) (hother : certId ≠ oidX509Certificate) :
    bagAt bytes offset = .ok (none, offset + element.length) := by
  obtain ⟨bag, oid, wrapper, certBag, certOid, hread, hend, hreadOid, hoid, hreadWrapper,
    hreadCertBag, hreadCertOid, hcertOid, -⟩ := certBagElement_at hbag h
  refine bind_eq_ok.mpr ⟨_, hread, bind_eq_ok.mpr ⟨none, ?_, ?_⟩⟩
  · refine bind_eq_ok.mpr ⟨_, hreadOid, bind_eq_ok.mpr ⟨_, hreadWrapper, ?_⟩⟩
    rw [hoid, if_neg (by simp)]
    refine bind_eq_ok.mpr ⟨_, hreadCertBag, bind_eq_ok.mpr ⟨_, hreadCertOid, ?_⟩⟩
    rw [hcertOid, if_pos hother]
    rfl
  · rw [hend]
    rfl

/-- A bag is read to its end, and gives its certificate if it is an X.509 one. -/
theorem bagAt_of_encodes {bag : SafeBag} (hbag : bag.Encodes element)
    (h : At bytes offset element) :
    bagAt bytes offset = .ok (bag.der?, offset + element.length) := by
  cases bag with
  | otherBag bagId value hother => exact bagAt_otherBag hbag h hother
  | otherCertificate certId certValue hother => exact bagAt_otherCertificate hbag h hother
  | x509Certificate der =>
    obtain ⟨octet, certWrapper, hoctet, hcertWrapper, hbag⟩ := hbag
    obtain ⟨bag, oid, wrapper, certBag, certOid, hread, hend, hreadOid, hoid, hreadWrapper,
      hreadCertBag, hreadCertOid, hcertOid, hat⟩ := certBagElement_at hbag h
    obtain ⟨certStart, hreadCertWrapper, hinside, -⟩ :=
      readTagged_at hcertWrapper (by decide) (by decide : 10 ≤ maxDerDepth) hat
    obtain ⟨octetStart, hreadOctet, hder, -⟩ :=
      readTagged_at hoctet (by decide) (by decide : 11 ≤ maxDerDepth) hinside
    refine bind_eq_ok.mpr ⟨_, hread, bind_eq_ok.mpr ⟨some der, ?_, ?_⟩⟩
    · refine bind_eq_ok.mpr ⟨_, hreadOid, bind_eq_ok.mpr ⟨_, hreadWrapper, ?_⟩⟩
      rw [hoid, if_neg (by simp)]
      refine bind_eq_ok.mpr ⟨_, hreadCertBag, bind_eq_ok.mpr ⟨_, hreadCertOid, ?_⟩⟩
      rw [hcertOid, if_neg (by simp)]
      refine bind_eq_ok.mpr ⟨_, hreadCertWrapper, bind_eq_ok.mpr ⟨_, hreadOctet, ?_⟩⟩
      dsimp only
      rw [slice_at hder]
      rfl
    · rw [hend]
      rfl

end Bags

section Loops
variable {safeContents authSafe : List UInt8} {bagsEnd bagPos safeEnd pos next : ℕ}
  {certificates : List (List UInt8)} {sawEncrypted : Bool}

lemma bagsLoop_next {certificate : Option (List UInt8)} (hpos : bagPos < bagsEnd)
    (hcap : certificates.length < maxKeystoreCertificates)
    (hbag : bagAt safeContents bagPos = .ok (certificate, next)) :
    bagsLoop safeContents bagsEnd bagPos certificates =
      bagsLoop safeContents bagsEnd next (certificates ++ certificate.toList) := by
  rw [bagsLoop, if_pos ⟨hpos, hcap⟩]
  split
  · rename_i reason herror
    rw [hbag] at herror
    cases herror
  · rename_i certificate' next' hok
    rw [hbag] at hok
    cases hok
    rfl

lemma bagsLoop_end : bagsLoop safeContents bagsEnd bagsEnd certificates = .ok certificates := by
  rw [bagsLoop, if_neg (by omega)]

lemma safeLoop_encrypted (hpos : pos < safeEnd)
    (hcap : certificates.length < maxKeystoreCertificates)
    (hinfo : contentInfoAt authSafe pos = .ok (none, next)) :
    safeLoop authSafe safeEnd pos certificates sawEncrypted =
      safeLoop authSafe safeEnd next certificates true := by
  rw [safeLoop, if_pos ⟨hpos, hcap⟩]
  split
  · rename_i reason herror
    rw [hinfo] at herror
    cases herror
  · rename_i next' hok
    rw [hinfo] at hok
    cases hok
    rfl
  · rename_i contents bagsSeq next' hok
    rw [hinfo] at hok
    cases hok

lemma safeLoop_data {bagsSeq : Tlv} {found : List (List UInt8)} (hpos : pos < safeEnd)
    (hcap : certificates.length < maxKeystoreCertificates)
    (hinfo : contentInfoAt authSafe pos = .ok (some (safeContents, bagsSeq), next))
    (hbags : bagsLoop safeContents bagsSeq.end bagsSeq.start certificates = .ok found) :
    safeLoop authSafe safeEnd pos certificates sawEncrypted =
      safeLoop authSafe safeEnd next found sawEncrypted := by
  rw [safeLoop, if_pos ⟨hpos, hcap⟩]
  split
  · rename_i reason herror
    rw [hinfo] at herror
    cases herror
  · rename_i next' hok
    rw [hinfo] at hok
    cases hok
  · rename_i contents bagsSeq' next' hok
    rw [hinfo] at hok
    cases hok
    simp only [hbags]

lemma safeLoop_end : safeLoop authSafe safeEnd safeEnd certificates sawEncrypted =
    .ok (certificates, sawEncrypted) := by
  rw [safeLoop, if_neg (by omega)]

/-- The bags of one safe contents are read to the last. -/
theorem bagsLoop_at {bags : List SafeBag} {elements : List (List UInt8)}
    (hbags : List.Forall₂ SafeBag.Encodes bags elements)
    (hcap : certificates.length + (bags.filterMap SafeBag.der?).length < maxKeystoreCertificates)
    (h : At safeContents bagPos elements.flatten)
    (hend : bagPos + elements.flatten.length = bagsEnd) :
    bagsLoop safeContents bagsEnd bagPos certificates =
      .ok (certificates ++ bags.filterMap SafeBag.der?) := by
  induction hbags generalizing bagPos certificates with
  | nil =>
    rw [List.flatten_nil, List.length_nil, Nat.add_zero] at hend
    rw [hend, bagsLoop_end, List.filterMap_nil, List.append_nil]
  | @cons bag element bags elements hbag _ ih =>
    rw [List.flatten_cons] at h
    rw [List.flatten_cons, List.length_append, ← Nat.add_assoc] at hend
    have hread := bagAt_of_encodes hbag h.left
    have hlt := lt_of_bagAt hread
    have hcertificates : certificates ++ (bag :: bags).filterMap SafeBag.der? =
        certificates ++ bag.der?.toList ++ bags.filterMap SafeBag.der? := by
      rw [List.filterMap_cons, List.append_assoc]
      cases bag.der? <;> rfl
    have hlength := congrArg List.length hcertificates
    rw [List.length_append, List.length_append] at hlength
    rw [bagsLoop_next (by omega) (by omega) hread, hcertificates]
    exact ih (by omega) h.right hend

end Loops

section Contents
variable {bytes element : List UInt8} {offset : ℕ}

lemma contentInfoAt_encrypted {payload : List UInt8} (hinfo : EncryptedInfo payload element)
    (h : At bytes offset element) :
    contentInfoAt bytes offset = .ok (none, offset + element.length) := by
  obtain ⟨ci, hread, hend, hoctets⟩ :=
    encryptedInfo_at hinfo h (by decide : 4 ≤ maxDerDepth) (by decide : 5 ≤ maxDerDepth)
  refine bind_eq_ok.mpr ⟨_, hread, ?_⟩
  rw [hoctets, ← hend]
  rfl

lemma contentInfoAt_data {content sequence : List UInt8}
    (hsequence : Element tagSequence content sequence) (hdata : DataInfo sequence element)
    (h : At bytes offset element) : ∃ safeContents bagsSeq,
      contentInfoAt bytes offset = .ok (some (safeContents, bagsSeq), offset + element.length) ∧
        At safeContents bagsSeq.start content ∧
        bagsSeq.start + content.length = bagsSeq.end := by
  obtain ⟨ci, hread, hend, hoctets⟩ :=
    dataInfo_at hdata h (by decide : 4 ≤ maxDerDepth) (by decide : 5 + 1 ≤ maxDerDepth)
  obtain ⟨start, hreadSeq, hcontent, -⟩ :=
    readTagged_at hsequence (by decide) (by decide : 6 ≤ maxDerDepth) (at_self sequence)
  refine ⟨sequence, ⟨tagSequence, start, start + content.length⟩,
    bind_eq_ok.mpr ⟨_, hread, ?_⟩, hcontent, rfl⟩
  rw [hoctets, ← hend]
  exact bind_eq_ok.mpr ⟨_, hreadSeq, rfl⟩

/-- The contents of a container, each to its last bag. -/
theorem safeLoop_at {authSafe : List UInt8} {safeEnd pos : ℕ} {certificates : List (List UInt8)}
    {sawEncrypted : Bool} {contents : List ContentInfo} {elements : List (List UInt8)}
    (hcontents : List.Forall₂ ContentInfo.Encodes contents elements)
    (hcap : certificates.length + (contents.flatMap ContentInfo.certificates).length <
      maxKeystoreCertificates)
    (h : At authSafe pos elements.flatten) (hend : pos + elements.flatten.length = safeEnd) :
    safeLoop authSafe safeEnd pos certificates sawEncrypted =
      .ok (certificates ++ contents.flatMap ContentInfo.certificates,
        sawEncrypted || contents.any ContentInfo.isEncrypted) := by
  induction hcontents generalizing pos certificates sawEncrypted with
  | nil =>
    rw [List.flatten_nil, List.length_nil, Nat.add_zero] at hend
    rw [hend, safeLoop_end, List.flatMap_nil, List.append_nil, List.any_nil, Bool.or_false]
  | @cons info element contents elements hinfo _ ih =>
    rw [List.flatten_cons] at h
    rw [List.flatten_cons, List.length_append, ← Nat.add_assoc] at hend
    rw [List.flatMap_cons, List.length_append] at hcap
    rw [List.flatMap_cons, List.any_cons]
    cases info with
    | encrypted payload =>
      have hread := contentInfoAt_encrypted hinfo h.left
      have hlt := lt_of_contentInfoAt hread
      rw [safeLoop_encrypted (by omega) (by omega) hread, ih (by omega) h.right hend]
      simp [ContentInfo.certificates, ContentInfo.isEncrypted]
    | data bags =>
      obtain ⟨bagElements, sequence, hbags, hsequence, hdata⟩ := hinfo
      obtain ⟨safeContents, bagsSeq, hread, hat, hbagsEnd⟩ :=
        contentInfoAt_data hsequence hdata h.left
      have hlt := lt_of_contentInfoAt hread
      rw [ContentInfo.certificates] at hcap
      have hloop := @bagsLoop_at _ _ _ certificates _ _ hbags (by omega) hat hbagsEnd
      rw [safeLoop_data (by omega) (by omega) hread hloop, ih ?_ h.right hend]
      · simp [ContentInfo.certificates, ContentInfo.isEncrypted]
      · rw [List.length_append]
        omega

end Contents

section RoundTrip
variable {bytes container payload element : List UInt8}

/-- The parts of a container that are read before its authenticated safe is. -/
lemma pfx_at (hpfx : Pfx element container) (h : At bytes 0 container) : ∃ pfx version,
    readTagged bytes 0 0 tagSequence .unsupportedFormat = .ok pfx ∧
      readTagged bytes pfx.start 1 tagInteger .unsupportedFormat = .ok version ∧
      At bytes version.end element := by
  obtain ⟨number, version, macData, hversion, hsequence⟩ := hpfx
  obtain ⟨start, hread, hcontent, -⟩ :=
    readTagged_at hsequence (by decide) (by decide : 0 ≤ maxDerDepth) h
  obtain ⟨versionStart, hreadVersion, -, hversionEnd⟩ :=
    readTagged_at hversion (by decide) (by decide : 1 ≤ maxDerDepth) hcontent.left
  have hat := hcontent.right.left
  rw [← hversionEnd] at hat
  exact ⟨_, _, hread, hreadVersion, hat⟩

lemma openPkcs12_of_encrypted (hpfx : Pfx element bytes) (hinfo : EncryptedInfo payload element) :
    openPkcs12 bytes = .error .encrypted := by
  obtain ⟨pfx, version, hread, hreadVersion, hat⟩ := pfx_at hpfx (at_self bytes)
  obtain ⟨ci, hreadInfo, -, hoctets⟩ :=
    encryptedInfo_at hinfo hat (by decide : 1 ≤ maxDerDepth) (by decide : 2 ≤ maxDerDepth)
  refine bind_eq_error.mpr (Or.inr ⟨_, hread, bind_eq_error.mpr (Or.inr ⟨_, hreadVersion, ?_⟩)⟩)
  exact bind_eq_error.mpr (Or.inr ⟨_, hreadInfo, bind_eq_error.mpr (Or.inl hoctets)⟩)

lemma openPkcs12_of_sequence {content sequence : List UInt8} (hpfx : Pfx element container)
    (hsequence : Element tagSequence content sequence) (hdata : DataInfo sequence element)
    (h : At bytes 0 container) :
    ∃ authSafe safeSeq, openPkcs12 bytes = .ok (authSafe, safeSeq) ∧
      At authSafe safeSeq.start content ∧ safeSeq.start + content.length = safeSeq.end := by
  obtain ⟨pfx, version, hread, hreadVersion, hat⟩ := pfx_at hpfx h
  obtain ⟨ci, hreadInfo, -, hoctets⟩ :=
    dataInfo_at hdata hat (by decide : 1 ≤ maxDerDepth) (by decide : 2 + 1 ≤ maxDerDepth)
  obtain ⟨start, hreadSeq, hcontent, -⟩ :=
    readTagged_at hsequence (by decide) (by decide : 3 ≤ maxDerDepth) (at_self sequence)
  refine ⟨sequence, ⟨tagSequence, start, start + content.length⟩, ?_, hcontent, rfl⟩
  refine bind_eq_ok.mpr ⟨_, hread, bind_eq_ok.mpr ⟨_, hreadVersion, ?_⟩⟩
  refine bind_eq_ok.mpr ⟨_, hreadInfo, bind_eq_ok.mpr ⟨_, hoctets, ?_⟩⟩
  exact bind_eq_ok.mpr ⟨_, hreadSeq, rfl⟩

lemma LengthOctets.pos {n : ℕ} {octets : List UInt8} (h : LengthOctets n octets) :
    0 < octets.length := by
  cases h with
  | short _ => exact Nat.succ_pos _
  | long digits _ _ => exact Nat.succ_pos _

lemma Element.two_le {tag : ℕ} {content : List UInt8} (h : Element tag content element) :
    2 ≤ element.length := by
  obtain ⟨octets, hoctets, rfl⟩ := h
  have hpos := hoctets.pos
  rw [List.length_cons, List.length_append]
  omega

/-- A sequence is told from the other formats by its first byte. -/
lemma readUint32_of_sequence (hlength : 4 ≤ bytes.length) (hhead : byteAt bytes 0 = tagSequence) :
    ∃ magic, readUint32 bytes 0 = .ok magic ∧ magic ≠ jksMagic ∧ magic ≠ jceksMagic := by
  have hlt : ∀ index, byteAt bytes index < 256 := fun index => UInt8.toNat_lt _
  have h1 := hlt (0 + 1)
  have h2 := hlt (0 + 2)
  have h3 := hlt (0 + 3)
  refine ⟨_, if_neg (by omega), ?_, ?_⟩
  · rw [hhead]
    unfold jksMagic tagSequence
    omega
  · rw [hhead]
    unfold jceksMagic tagSequence
    omega

/-- The first byte decides for this parser. -/
lemma readKeystore_of_sequence (hlength : 4 ≤ bytes.length) (hhead : byteAt bytes 0 = tagSequence) :
    readKeystore bytes = tryParse .pkcs12 (parsePkcs12 bytes) := by
  obtain ⟨magic, hmagic, hjks, hjceks⟩ := readUint32_of_sequence hlength hhead
  rw [readKeystore, hmagic]
  dsimp only
  rw [if_neg hjks, if_neg hjceks, if_pos hhead]

lemma Pfx.head (hpfx : Pfx element container) (helement : 2 ≤ element.length)
    (h : At bytes 0 container) : 4 ≤ bytes.length ∧ byteAt bytes 0 = tagSequence := by
  have hle := h.le
  obtain ⟨number, version, macData, hversion, octets, -, rfl⟩ := hpfx
  have hversionLength := hversion.two_le
  simp only [List.length_cons, List.length_append] at hle
  exact ⟨by omega, byteAt_head h⟩

lemma readKeystore_of_pfx (hpfx : Pfx element bytes) (helement : 2 ≤ element.length) :
    readKeystore bytes = tryParse .pkcs12 (parsePkcs12 bytes) := by
  obtain ⟨hlength, hhead⟩ := hpfx.head helement (at_self bytes)
  exact readKeystore_of_sequence hlength hhead

/-- What is in the clear is read, and what is not is remembered. -/
lemma parsePkcs12_at {contents : List ContentInfo}
    (hinfo : SequenceInfo ContentInfo.Encodes contents element) (hpfx : Pfx element bytes)
    (hcap : (contents.flatMap ContentInfo.certificates).length < maxKeystoreCertificates) :
    parsePkcs12 bytes =
      if (contents.flatMap ContentInfo.certificates).isEmpty &&
          contents.any ContentInfo.isEncrypted then .error .encrypted
      else .ok {
        format := some .pkcs12
        certificates := contents.flatMap ContentInfo.certificates
        isPartial := contents.any ContentInfo.isEncrypted &&
          !(contents.flatMap ContentInfo.certificates).isEmpty
        failure := if (contents.flatMap ContentInfo.certificates).isEmpty then
          some .noCertificates else none } := by
  obtain ⟨elements, sequence, hcontents, hsequence, hdata⟩ := hinfo
  obtain ⟨authSafe, safeSeq, hopen, hat, hend⟩ :=
    openPkcs12_of_sequence hpfx hsequence hdata (at_self bytes)
  have hloop := @safeLoop_at _ _ _ [] false _ _ hcontents
    (by rwa [List.length_nil, Nat.zero_add]) hat hend
  rw [List.nil_append, Bool.false_or] at hloop
  rw [parsePkcs12_eq hopen, hloop]

lemma any_isEncrypted_iff {contents : List ContentInfo} :
    contents.any ContentInfo.isEncrypted = true ↔ ∃ payload, .encrypted payload ∈ contents := by
  rw [List.any_eq_true]
  constructor
  · rintro ⟨info, hm, hencrypted⟩
    cases info with
    | encrypted payload => exact ⟨payload, hm⟩
    | data bags => cases hencrypted
  · rintro ⟨payload, hm⟩
    exact ⟨_, hm, rfl⟩

lemma Pkcs12.readKeystore_eq {contents : List ContentInfo} (h : Pkcs12 contents bytes) :
    readKeystore bytes = tryParse .pkcs12 (parsePkcs12 bytes) := by
  obtain ⟨element, ⟨_, _, _, _, _, _, _, _, _, _, hsequence⟩, hpfx⟩ := h
  exact readKeystore_of_pfx hpfx hsequence.two_le

/-- Reading undoes writing: a PKCS#12 container gives back the certificates that are in the clear,
and says what became of the others. -/
theorem readKeystore_pkcs12 :
    (∀ contents bytes, Pkcs12 contents bytes →
      (contents.flatMap ContentInfo.certificates).length < maxKeystoreCertificates →
      (readKeystore bytes).format = some .pkcs12 ∧
      (readKeystore bytes).certificates = contents.flatMap ContentInfo.certificates ∧
      ((readKeystore bytes).failure = some .encrypted ↔
        contents.flatMap ContentInfo.certificates = [] ∧
          ∃ payload, .encrypted payload ∈ contents) ∧
      ((readKeystore bytes).failure = some .noCertificates ↔
        contents.flatMap ContentInfo.certificates = [] ∧
          ¬∃ payload, .encrypted payload ∈ contents) ∧
      ((readKeystore bytes).failure = none ↔
        contents.flatMap ContentInfo.certificates ≠ []) ∧
      ((readKeystore bytes).isPartial = true ↔
        contents.flatMap ContentInfo.certificates ≠ [] ∧
          ∃ payload, .encrypted payload ∈ contents)) ∧
    ∀ payload bytes, EncryptedPkcs12 payload bytes →
      readKeystore bytes = failureResult (some .pkcs12) .encrypted := by
  constructor
  · intro contents bytes hpkcs12 hcap
    obtain ⟨element, hinfo, hpfx⟩ := id hpkcs12
    rw [hpkcs12.readKeystore_eq, parsePkcs12_at hinfo hpfx hcap, ← any_isEncrypted_iff]
    cases contents.flatMap ContentInfo.certificates with
    | nil => cases contents.any ContentInfo.isEncrypted <;> simp [tryParse, failureResult]
    | cons der rest => cases contents.any ContentInfo.isEncrypted <;> simp [tryParse]
  · rintro payload bytes ⟨element, hinfo, hpfx⟩
    have hsequence := hinfo
    obtain ⟨_, -, hsequence⟩ := hsequence
    have hparse : parsePkcs12 bytes = .error .encrypted :=
      bind_eq_error.mpr (Or.inl (openPkcs12_of_encrypted hpfx hinfo))
    rw [readKeystore_of_pfx hpfx hsequence.two_le, hparse]
    rfl

end RoundTrip

section Sample
variable {tag : ℕ} {content : List UInt8}

/-- An element in the short form of its length. -/
def tlv (tag : ℕ) (content : List UInt8) : List UInt8 :=
  UInt8.ofNat tag :: UInt8.ofNat content.length :: content

lemma element_tlv (h : content.length < 0x80) : Element tag content (tlv tag content) :=
  ⟨_, .short h, rfl⟩

def contentInfoData (payload : List UInt8) : List UInt8 :=
  tlv tagSequence
    (tlv tagObjectIdentifier oidData ++ tlv tagContext0 (tlv tagOctetString payload))

def contentInfoEncrypted : List UInt8 := tlv tagSequence (tlv tagObjectIdentifier oidEncryptedData)

def certSafeBag (der : List UInt8) : List UInt8 :=
  tlv tagSequence (tlv tagObjectIdentifier oidCertBag ++ tlv tagContext0 (tlv tagSequence
    (tlv tagObjectIdentifier oidX509Certificate ++ tlv tagContext0 (tlv tagOctetString der))))

def buildPkcs12 (contentInfos : List UInt8) : List UInt8 :=
  tlv tagSequence (tlv tagInteger [3] ++ contentInfoData (tlv tagSequence contentInfos))

lemma dataInfo_contentInfoData (h : content.length < 0x60) :
    DataInfo content (contentInfoData content) := by
  refine ⟨_, _, _, element_tlv (by decide), element_tlv (by omega), element_tlv ?_, element_tlv ?_⟩
  · simp only [tlv, List.length_cons]
    omega
  · simp only [tlv, List.length_append, List.length_cons, oidData, List.length_nil]
    omega

/-- One encrypted safe contents, and one of one certificate. -/
def partialContents : List UInt8 :=
  contentInfoEncrypted ++ contentInfoData (tlv tagSequence (certSafeBag [0x30, 0x00]))

lemma pkcs12_partialContents :
    Pkcs12 [.encrypted [], .data [.x509Certificate [0x30, 0x00]]] (buildPkcs12 partialContents) := by
  have hencrypted : ContentInfo.Encodes (.encrypted []) contentInfoEncrypted :=
    ⟨_, element_tlv (by decide), element_tlv (by decide)⟩
  have hbag : SafeBag.Encodes (.x509Certificate [0x30, 0x00]) (certSafeBag [0x30, 0x00]) := by
    refine ⟨_, _, element_tlv (by decide), element_tlv (by decide), _, _, element_tlv (by decide),
      element_tlv (by decide), ?_⟩
    exact ⟨_, _, [], element_tlv (by decide), element_tlv (by decide), element_tlv (by decide)⟩
  have hdata : ContentInfo.Encodes (.data [.x509Certificate [0x30, 0x00]])
      (contentInfoData (tlv tagSequence (certSafeBag [0x30, 0x00]))) :=
    ⟨_, _, .cons hbag .nil, element_tlv (by decide), dataInfo_contentInfoData (by decide)⟩
  have hsequence : Element tagSequence [contentInfoEncrypted, contentInfoData
      (tlv tagSequence (certSafeBag [0x30, 0x00]))].flatten (tlv tagSequence partialContents) :=
    element_tlv (by decide)
  refine ⟨contentInfoData (tlv tagSequence partialContents),
    ⟨_, _, .cons hencrypted (.cons hdata .nil), hsequence, dataInfo_contentInfoData (by decide)⟩,
    [3], tlv tagInteger [3], [], element_tlv (by decide), ?_⟩
  rw [List.append_nil]
  exact element_tlv (by decide)

theorem readKeystore_pkcs12_partialContents :
    (readKeystore (buildPkcs12 partialContents)).certificates = [[0x30, 0x00]] ∧
      (readKeystore (buildPkcs12 partialContents)).isPartial = true := by
  have hread := readKeystore_pkcs12.1 _ _ pkcs12_partialContents (by decide)
  exact ⟨hread.2.1, hread.2.2.2.2.2.mpr ⟨by decide, [], List.mem_cons_self ..⟩⟩

end Sample
end Portcall.Net
