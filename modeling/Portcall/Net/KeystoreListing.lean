import Portcall.Net.Pkcs12Encoding

/-! What a keystore lists, entry by entry as its format encodes them, against what is read of it: the
read is accurate about itself exactly when the cap leaves nothing behind that is not already known
to be missing. -/
namespace Portcall.Net
open Cursor Segment

section Listing
variable (bytes : List UInt8)

/-- A JKS begins with these entries, and announces so many more. What comes after them may be
anything. -/
def JksLists (items : List KeystoreItem) (left : ℕ) : Prop :=
  ∃ (version : UInt32) (entries : List JksEntry) (rest : List UInt8),
    bytes = bigEndian 4 jksMagic ++ (bigEndian 4 version.toNat ++
      (bigEndian 4 (entries.length + left) ++ (entries.flatMap JksEntry.bytes ++ rest))) ∧
    entries.length + left < 256 ^ 4 ∧ items = entries.map fun entry => .ofCertificate entry.trusted?

/-- The content of an authenticated safe begins with these entries. Then come these bags of the safe
contents entered last, and these `ContentInfo`s. -/
inductive SafeLists (content : List UInt8) :
    List KeystoreItem → List UInt8 → List UInt8 → Prop where
  | start : SafeLists content [] [] content
  | encrypted {items : List KeystoreItem} {payload element infos : List UInt8}
      (before : SafeLists content items [] (element ++ infos))
      (info : EncryptedInfo payload element) : SafeLists content (items ++ [.encrypted]) [] infos
  | data {items : List KeystoreItem} {bags sequence element infos : List UInt8}
      (before : SafeLists content items [] (element ++ infos))
      (contents : Element tagSequence bags sequence) (info : DataInfo sequence element) :
      SafeLists content (items ++ [.other]) bags infos
  | bag {items : List KeystoreItem} {bag : SafeBag} {element bags infos : List UInt8}
      (before : SafeLists content items (element ++ bags) infos) (encodes : bag.Encodes element) :
      SafeLists content (items ++ [.ofCertificate bag.der?]) bags infos

/-- A PKCS#12 container begins with these entries, and has so many bytes of others. -/
def Pkcs12Lists (items : List KeystoreItem) (left : ℕ) : Prop :=
  ∃ container trailing element sequence content bags infos, bytes = container ++ trailing ∧
    Pfx element container ∧ DataInfo sequence element ∧ Element tagSequence content sequence ∧
    SafeLists content items bags infos ∧ left = (bags ++ infos).length

/-- A keystore begins with these entries, and so much is left of it. -/
def KeystoreLists (items : List KeystoreItem) (left : ℕ) : Prop :=
  JksLists bytes items left ∨ Pkcs12Lists bytes items left

/-- A trusted certificate entry of a keystore. -/
def KeystoreHolds (der : List UInt8) : Prop :=
  ∃ items left, KeystoreLists bytes items left ∧ .certificate der ∈ items

/-- Some entry is encrypted, or the cap is reached before the last entry is. -/
def KeystoreInPart : Prop :=
  (∃ items left, KeystoreLists bytes items left ∧ .encrypted ∈ items) ∨
    ∃ items left, KeystoreLists bytes items left ∧ 0 < left ∧
      maxKeystoreCertificates ≤ (certificatesOf items).length

/-- Where the cap is reached before the last entry is, an encrypted entry comes first. -/
def KeystoreWithinCap : Prop :=
  ∀ items left, KeystoreLists bytes items left → 0 < left →
    maxKeystoreCertificates ≤ (certificatesOf items).length → .encrypted ∈ items

/-- A read that succeeded says when it is partial, and otherwise has every certificate. -/
def KeystoreAccurate (read : KeystoreRead) : Prop :=
  read.failure = none → (KeystoreInPart bytes → read.isPartial = true) ∧
    (read.isPartial = false → ∀ der, KeystoreHolds bytes der → der ∈ read.certificates)

end Listing

section Starts
variable {bytes content bags infos element : List UInt8} {items before : List KeystoreItem}
  {left : ℕ}

lemma Element.ne_nil {tag : ℕ} (h : Element tag content element) : element ≠ [] := by
  obtain ⟨octets, -, rfl⟩ := h
  exact List.cons_ne_nil _ _

lemma SafeBag.Encodes.ne_nil {bag : SafeBag} (h : bag.Encodes element) : element ≠ [] := by
  cases bag with
  | x509Certificate der =>
    obtain ⟨_, _, _, _, _, _, _, _, _, _, _, _, _, hsequence⟩ := h
    exact hsequence.ne_nil
  | otherCertificate certId certValue hother =>
    obtain ⟨_, _, _, _, _, _, _, _, _, hsequence⟩ := h
    exact hsequence.ne_nil
  | otherBag bagId value hother =>
    obtain ⟨_, _, _, _, _, hsequence⟩ := h
    exact hsequence.ne_nil

/-- What begins with some entries begins with fewer of them, and then the others are left. -/
lemma SafeLists.of_prefix (h : SafeLists content items bags infos) (hstart : before <+: items)
    (hne : before ≠ items) :
    ∃ bags' infos', SafeLists content before bags' infos' ∧ bags' ++ infos' ≠ [] := by
  have hlast : ∀ {items : List KeystoreItem} {item : KeystoreItem} {bags infos : List UInt8},
      SafeLists content items bags infos → bags ++ infos ≠ [] →
      (before <+: items → before ≠ items → ∃ bags' infos', SafeLists content before bags' infos' ∧
        bags' ++ infos' ≠ []) → before <+: items ++ [item] → before ≠ items ++ [item] →
      ∃ bags' infos', SafeLists content before bags' infos' ∧ bags' ++ infos' ≠ [] := by
    intro items item bags infos hlists hleft ih hstart hne
    rcases List.prefix_concat_iff.mp hstart with hwhole | hstart
    · exact absurd hwhole hne
    · by_cases heq : before = items
      · exact heq ▸ ⟨bags, infos, hlists, hleft⟩
      · exact ih hstart heq
  induction h with
  | start => exact absurd (List.prefix_nil.mp hstart) hne
  | encrypted hbefore info ih =>
    obtain ⟨_, -, hsequence⟩ := info
    exact hlast hbefore (by simp [hsequence.ne_nil]) ih hstart hne
  | data hbefore _ info ih =>
    obtain ⟨_, _, _, -, -, -, hsequence⟩ := info
    exact hlast hbefore (by simp [hsequence.ne_nil]) ih hstart hne
  | bag hbefore encodes ih => exact hlast hbefore (by simp [encodes.ne_nil]) ih hstart hne

lemma KeystoreLists.of_prefix (h : KeystoreLists bytes items left) (hstart : before <+: items)
    (hne : before ≠ items) : ∃ left', KeystoreLists bytes before left' ∧ 0 < left' := by
  rcases h with ⟨version, entries, rest, hbytes, hfits, rfl⟩ |
    ⟨container, trailing, element, sequence, content, bags, infos, hbytes, hpfx, hdata, hsequence,
      hlists, -⟩
  · obtain ⟨first, others, hentries⟩ : ∃ first others, entries = first ++ others ∧
        before = first.map fun entry => .ofCertificate entry.trusted? := by
      obtain ⟨after, hafter⟩ := hstart
      obtain ⟨first, others, rfl, hfirst, -⟩ := List.map_eq_append_iff.mp hafter.symm
      exact ⟨first, others, rfl, hfirst.symm⟩
    obtain ⟨rfl, rfl⟩ := hentries
    have hothers : others ≠ [] := by
      rintro rfl
      exact hne (by rw [List.append_nil])
    refine ⟨others.length + left, Or.inl ⟨version, first, others.flatMap JksEntry.bytes ++ rest, ?_,
      ?_, rfl⟩, Nat.add_pos_left (List.length_pos_iff.mpr hothers) left⟩
    · rw [hbytes, List.flatMap_append, List.length_append, Nat.add_assoc, List.append_assoc]
    · rwa [← Nat.add_assoc, ← List.length_append]
  · obtain ⟨bags', infos', hlists', hleft⟩ := hlists.of_prefix hstart hne
    exact ⟨_, Or.inr ⟨container, trailing, element, sequence, content, bags', infos', hbytes, hpfx,
      hdata, hsequence, hlists', rfl⟩, List.length_pos_iff.mpr hleft⟩

lemma Element.length_lt {tag : ℕ} (h : Element tag content element) :
    content.length < element.length := by
  obtain ⟨octets, -, rfl⟩ := h
  rw [List.length_cons, List.length_append]
  omega

lemma DataInfo.length_lt {payload : List UInt8} (h : DataInfo payload element) :
    payload.length < element.length := by
  obtain ⟨oid, octet, wrapper, -, hoctet, hwrapper, hsequence⟩ := h
  have h1 := hoctet.length_lt
  have h2 := hwrapper.length_lt
  have h3 := hsequence.length_lt
  rw [List.length_append] at h3
  omega

/-- Every entry takes a byte at least. -/
lemma SafeLists.length_le (h : SafeLists content items bags infos) :
    items.length + (bags.length + infos.length) ≤ content.length := by
  induction h with
  | start => simp
  | encrypted _ info ih =>
    obtain ⟨_, -, hsequence⟩ := info
    have hpositive := hsequence.two_le
    simp only [List.length_append, List.length_singleton, List.length_nil] at ih ⊢
    omega
  | data _ contents info ih =>
    have h1 := contents.length_lt
    have h2 := info.length_lt
    simp only [List.length_append, List.length_singleton, List.length_nil] at ih ⊢
    omega
  | bag _ encodes ih =>
    have hpositive := List.length_pos_iff.mpr encodes.ne_nil
    simp only [List.length_append, List.length_singleton] at ih ⊢
    omega

lemma KeystoreLists.length_le (h : KeystoreLists bytes items left) :
    items.length ≤ bytes.length := by
  rcases h with ⟨version, entries, rest, rfl, -, rfl⟩ |
    ⟨container, trailing, element, sequence, content, bags, infos, rfl, hpfx, hdata, hsequence,
      hlists, -⟩
  · have hentries : entries.length ≤ (entries.flatMap JksEntry.bytes).length := by
      induction entries with
      | nil => exact Nat.zero_le _
      | cons entry entries ih =>
        have hpositive : 0 < entry.bytes.length := by
          cases entry <;> simp only [JksEntry.bytes, List.length_append, length_bigEndian] <;> omega
        rw [List.flatMap_cons, List.length_append, List.length_cons]
        omega
    simp only [List.length_map, List.length_append]
    omega
  · obtain ⟨number, version, macData, -, hcontainer⟩ := hpfx
    have h1 := hcontainer.length_lt
    have h2 := hdata.length_lt
    have h3 := hsequence.length_lt
    have h4 := hlists.length_le
    simp only [List.length_append] at h1 ⊢
    omega

end Starts

section Reading
variable {bytes content bags infos : List UInt8} {items : List KeystoreItem} {left : ℕ}

/-- The entries of a JKS are read one after another, wherever they are. -/
lemma reads_jksStep {offset : ℕ} (left : ℕ) (entries : List JksEntry)
    (h : At bytes offset (entries.flatMap JksEntry.bytes)) :
    Reads (jksStep bytes) (offset, entries.length + left)
      (entries.map fun entry => .ofCertificate entry.trusted?)
      (offset + (entries.flatMap JksEntry.bytes).length, left) := by
  induction entries generalizing offset with
  | nil =>
    rw [List.length_nil, Nat.zero_add]
    exact .nil _
  | cons entry entries ih =>
    rw [List.flatMap_cons] at h
    have hstep : jksStep bytes (offset, (entry :: entries).length + left) = some (.ok
        (.ofCertificate entry.trusted?, (offset + entry.bytes.length, entries.length + left))) := by
      rw [List.length_cons, Nat.add_right_comm, jksStep, jksEntry_at entry h.left]
      rfl
    have hrest := ih h.right
    rw [List.flatMap_cons, List.length_append, ← Nat.add_assoc]
    exact .cons hstep hrest

/-- A cursor that stands before these bags, and before these `ContentInfo`s after them. -/
structure CursorAt (authSafe : List UInt8) (safeEnd : ℕ) (bags infos : List UInt8)
    (cursor : SafeCursor) : Prop where
  atInfos : At authSafe cursor.pos infos
  infosEnd : cursor.pos + infos.length = safeEnd
  atBags : At cursor.safeContents cursor.bagPos bags
  bagsEnd : cursor.bagPos + bags.length = cursor.bagsEnd

/-- The entries of an authenticated safe are read one after another. -/
lemma SafeLists.reads {authSafe : List UInt8} {safeSeq : Tlv}
    (h : SafeLists content items bags infos) (hat : At authSafe safeSeq.start content)
    (hend : safeSeq.start + content.length = safeSeq.end) : ∃ cursor,
      Reads (safeStep authSafe safeSeq.end) ⟨safeSeq.start, [], 0, 0⟩ items cursor ∧
        CursorAt authSafe safeSeq.end bags infos cursor := by
  have hnone : At ([] : List UInt8) 0 [] := at_self []
  induction h with
  | start => exact ⟨_, .nil _, hat, hend, hnone, rfl⟩
  | @encrypted items payload element infos _ info ih =>
    obtain ⟨cursor, hreads, hcursor⟩ := ih
    have hinfoEnd := hcursor.infosEnd
    have hbagsEnd := hcursor.bagsEnd
    have hread := contentInfoAt_encrypted info hcursor.atInfos.left
    have hlt := lt_of_contentInfoAt hread
    rw [List.length_append] at hinfoEnd
    rw [List.length_nil, Nat.add_zero] at hbagsEnd
    have hstep := @safeStep_contentInfo authSafe safeSeq.end cursor (by omega) (by omega)
    rw [hread] at hstep
    exact ⟨_, hreads.concat hstep, hcursor.atInfos.right, by rw [← hinfoEnd, Nat.add_assoc], hnone,
      rfl⟩
  | @data items bags sequence element infos _ contents info ih =>
    obtain ⟨cursor, hreads, hcursor⟩ := ih
    have hinfoEnd := hcursor.infosEnd
    have hbagsEnd := hcursor.bagsEnd
    obtain ⟨safeContents, bagsSeq, hread, hbags, hbagsSeq⟩ :=
      contentInfoAt_data contents info hcursor.atInfos.left
    have hlt := lt_of_contentInfoAt hread
    rw [List.length_append] at hinfoEnd
    rw [List.length_nil, Nat.add_zero] at hbagsEnd
    have hstep := @safeStep_contentInfo authSafe safeSeq.end cursor (by omega) (by omega)
    rw [hread] at hstep
    exact ⟨_, hreads.concat hstep, hcursor.atInfos.right, by rw [← hinfoEnd, Nat.add_assoc], hbags,
      hbagsSeq⟩
  | @bag items bag element bags infos _ encodes ih =>
    obtain ⟨cursor, hreads, hcursor⟩ := ih
    have hbagsEnd := hcursor.bagsEnd
    have hread := bagAt_of_encodes encodes hcursor.atBags.left
    have hlt := lt_of_bagAt hread
    rw [List.length_append] at hbagsEnd
    have hstep := @safeStep_bag authSafe safeSeq.end cursor _ _ (by omega) hread
    exact ⟨_, hreads.concat hstep, hcursor.atInfos, hcursor.infosEnd, hcursor.atBags.right,
      by rw [← hbagsEnd, Nat.add_assoc]⟩

/-- Something comes after a cursor that has something before it. -/
lemma CursorAt.step_ne_none {authSafe : List UInt8} {safeEnd : ℕ} {cursor : SafeCursor}
    (h : CursorAt authSafe safeEnd bags infos cursor) (hleft : 0 < (bags ++ infos).length) :
    safeStep authSafe safeEnd cursor ≠ none := by
  have hinfosEnd := h.infosEnd
  have hbagsEnd := h.bagsEnd
  rw [List.length_append] at hleft
  unfold safeStep
  split_ifs
  · nofun
  · nofun
  · omega

/-- What a keystore lists is what can be read of it, in the same order. -/
theorem KeystoreLists.reads (h : KeystoreLists bytes items left) : ∃ stream last,
    keystoreStream bytes = some stream ∧ Reads stream.step stream.start items last ∧
      (0 < left → stream.step last ≠ none) := by
  rcases h with ⟨version, entries, rest, hbytes, hfits, rfl⟩ |
    ⟨container, trailing, element, sequence, content, bags, infos, hbytes, hpfx, hdata, hsequence,
      hlists, rfl⟩
  · have hat : At bytes 0 (bigEndian 4 jksMagic ++ (bigEndian 4 version.toNat ++
        bigEndian 4 (entries.length + left)) ++ entries.flatMap JksEntry.bytes) := by
      rw [hbytes]
      simp only [← List.append_assoc]
      exact at_zero rest
    have hmagic : readUint32 bytes 0 = .ok jksMagic :=
      readUint32_bigEndian hat.left.left (by decide)
    have hentries := reads_jksStep left entries hat.right
    refine ⟨⟨ℕ × ℕ, jksStep bytes, (12, entries.length + left)⟩, _, ?_, by simpa using hentries, ?_⟩
    · rw [keystoreStream, hmagic]
      dsimp only
      rw [if_pos rfl, jksHeader_of_at hat.left hfits]
    · intro hleft
      obtain ⟨left, rfl⟩ := Nat.exists_eq_succ_of_ne_zero (Nat.pos_iff_ne_zero.mp hleft)
      nofun
  · have hat : At bytes 0 container := hbytes ▸ at_zero trailing
    obtain ⟨_, _, _, -, -, -, hinfo⟩ := id hdata
    obtain ⟨hlength, hhead⟩ := hpfx.head hinfo.two_le hat
    obtain ⟨magic, hmagic, hjks, hjceks⟩ := readUint32_of_sequence hlength hhead
    obtain ⟨authSafe, safeSeq, hopen, hcontent, hend⟩ :=
      openPkcs12_of_sequence hpfx hsequence hdata hat
    obtain ⟨cursor, hreads, hcursor⟩ := hlists.reads hcontent hend
    refine ⟨⟨SafeCursor, safeStep authSafe safeSeq.end, ⟨safeSeq.start, [], 0, 0⟩⟩, cursor, ?_,
      hreads, hcursor.step_ne_none⟩
    rw [keystoreStream, hmagic]
    dsimp only
    rw [if_neg hjks, if_neg hjceks, if_pos hhead, hopen]

end Reading

section Accuracy
variable {bytes : List UInt8}

/-- A read that marks itself partial wherever it is leaves nothing behind at the cap without
knowing of an encrypted entry. -/
theorem keystoreWithinCap_of_marked
    (hmarked : (readKeystore bytes).failure = none → KeystoreInPart bytes →
      (readKeystore bytes).isPartial = true) : KeystoreWithinCap bytes := by
  intro items' left hlists hleft hcap
  obtain ⟨stream, last', hstream, hreads, -⟩ := hlists.reads
  have hread := @readKeystore_of_stream bytes
  rw [hstream] at hread
  have hweight := hcap
  rw [length_certificatesOf] at hweight
  by_cases hfailure : (readKeystore bytes).failure = none
  · obtain ⟨items, last, hwalk, -, hmarks⟩ := hread.walk hfailure
    have hmem := hmarks.mp (hmarked hfailure (Or.inr ⟨items', left, hlists, hleft, hcap⟩))
    exact (hwalk.prefix_of_cap hreads (by rwa [Nat.zero_add])).subset hmem
  · -- a walk to the cap has certificates, and a read that fails has none
    obtain ⟨items, last, hwalk⟩ : ∃ items last, CertWalk stream.step 0 stream.start items last :=
      hreads.exists_walk (by rwa [Nat.zero_add])
    have hnil := hread.failed hfailure items last hwalk
    have hzero : total KeystoreItem.weight items = 0 := by
      rw [← length_certificatesOf, hnil]
      rfl
    have hpositive : 0 < maxKeystoreCertificates := by decide
    rcases hwalk.stopped with hend | hstop
    · obtain ⟨rest, rfl⟩ := hwalk.prefix_of_end hend hreads
      rw [certificatesOf_append, List.append_eq_nil_iff] at hnil
      rw [hnil.1, List.length_nil] at hcap
      omega
    · omega

/-- Where the cap leaves nothing behind that is not known to be missing, the read is accurate. -/
theorem keystoreAccurate_of_withinCap (hwithin : KeystoreWithinCap bytes) :
    KeystoreAccurate bytes (readKeystore bytes) := by
  intro hfailure
  by_cases hpart : (readKeystore bytes).isPartial = true
  · exact ⟨fun _ => hpart, fun hwhole => absurd (hpart.symm.trans hwhole) (by decide)⟩
  have hread := @readKeystore_of_stream bytes
  -- all that the keystore lists has been walked over
  have hall : ∀ {items' left}, KeystoreLists bytes items' left → ∀ item ∈ items',
      item ≠ .encrypted ∧
        ∀ der, item = .certificate der → der ∈ (readKeystore bytes).certificates := by
    intro items' left hlists
    obtain ⟨stream, last', hstream, hreads, -⟩ := hlists.reads
    rw [hstream] at hread
    obtain ⟨items, last, hwalk, hcertificates, hmarks⟩ := hread.walk hfailure
    have hplain : .encrypted ∉ items := fun hmem => hpart (hmarks.mpr hmem)
    have hstart : items' <+: items := by
      rcases hwalk.stopped with hend | hcap
      · exact hwalk.prefix_of_end hend hreads
      · rcases hreads.prefix_or_prefix hwalk.reads with hstart | hstart
        · exact hstart
        · by_cases heq : items = items'
          · exact heq ▸ List.prefix_rfl
          · obtain ⟨left', hlists', hleft'⟩ := hlists.of_prefix hstart heq
            rw [Nat.zero_add, ← length_certificatesOf] at hcap
            exact absurd (hwithin items left' hlists' hleft' hcap) hplain
    intro item hitem
    have hmem := hstart.subset hitem
    refine ⟨fun he => hplain (he ▸ hmem), fun der he => ?_⟩
    rw [hcertificates, mem_certificatesOf, ← he]
    exact hmem
  refine ⟨?_, fun _ der hholds => ?_⟩
  · rintro (⟨items', left, hlists, hmem⟩ | ⟨items', left, hlists, hleft, hcap⟩)
    · exact absurd rfl (hall hlists _ hmem).1
    · exact absurd rfl (hall hlists _ (hwithin items' left hlists hleft hcap)).1
  · obtain ⟨items', left, hlists, hmem⟩ := hholds
    exact (hall hlists _ hmem).2 der rfl

/-- The read of a keystore is accurate about itself exactly when, where the cap is reached before
the last entry is, an encrypted entry comes first. -/
theorem keystoreAccurate_iff (bytes : List UInt8) :
    KeystoreAccurate bytes (readKeystore bytes) ↔ KeystoreWithinCap bytes :=
  ⟨fun h => keystoreWithinCap_of_marked fun hfailure => (h hfailure).1,
    keystoreAccurate_of_withinCap⟩

/-- In so few bytes there are not as many certificates as the cap. -/
lemma keystoreWithinCap_of_length_lt (h : bytes.length < maxKeystoreCertificates) :
    KeystoreWithinCap bytes := by
  intro items left hlists _ hcap
  have hle := hlists.length_le
  have hcertificates : (certificatesOf items).length ≤ items.length :=
    List.length_filterMap_le _ _
  omega

end Accuracy

section Encodings
variable {content infos trailing : List UInt8} {items : List KeystoreItem}

/-- All the certificates of a JKS are certificates that it holds. -/
theorem keystoreHolds_buildJks (store : JksStore) {der : List UInt8}
    (h : der ∈ trustedCerts store.entries) : KeystoreHolds (buildJks store ++ trailing) der := by
  refine ⟨_, 0, Or.inl ⟨store.version, store.entries, trailing, ?_, store.fits, rfl⟩, ?_⟩
  · simp only [buildJks, List.append_assoc, Nat.add_zero]
  · obtain ⟨entry, hm, htrusted⟩ := List.mem_filterMap.mp h
    exact List.mem_map.mpr ⟨entry, hm, by rw [htrusted]; rfl⟩

/-- The bags of a safe contents are listed to the last. -/
lemma SafeLists.bags {bags : List SafeBag} {elements : List (List UInt8)}
    (hbags : List.Forall₂ SafeBag.Encodes bags elements)
    (h : SafeLists content items elements.flatten infos) :
    SafeLists content (items ++ bags.map fun bag => .ofCertificate bag.der?) [] infos := by
  induction hbags generalizing items with
  | nil => rwa [List.map_nil, List.append_nil]
  | cons hbag _ ih =>
    rw [List.map_cons, List.append_cons]
    exact ih (.bag h hbag)

/-- So are the contents of a container, and what they list has their certificates. -/
lemma SafeLists.contents {contents : List ContentInfo} {elements : List (List UInt8)}
    (hcontents : List.Forall₂ ContentInfo.Encodes contents elements)
    (h : SafeLists content items [] elements.flatten) : ∃ items',
      SafeLists content items' [] [] ∧ certificatesOf items' =
        certificatesOf items ++ contents.flatMap ContentInfo.certificates := by
  induction hcontents generalizing items with
  | nil => exact ⟨items, h, by rw [List.flatMap_nil, List.append_nil]⟩
  | @cons info element contents elements hinfo _ ih =>
    rw [List.flatMap_cons]
    cases info with
    | encrypted payload =>
      obtain ⟨items', hlists, hcertificates⟩ := ih (.encrypted h hinfo)
      refine ⟨items', hlists, ?_⟩
      rw [hcertificates, certificatesOf_append]
      simp [certificatesOf, KeystoreItem.der?, ContentInfo.certificates]
    | data bags =>
      obtain ⟨bagElements, sequence, hbags, hsequence, hdata⟩ := hinfo
      obtain ⟨items', hlists, hcertificates⟩ := ih (SafeLists.bags hbags (.data h hsequence hdata))
      refine ⟨items', hlists, ?_⟩
      have hders : certificatesOf (bags.map fun bag => .ofCertificate bag.der?) =
          bags.filterMap SafeBag.der? := by
        simp only [certificatesOf, List.filterMap_map, Function.comp_def,
          KeystoreItem.der?_ofCertificate]
      rw [hcertificates, certificatesOf_append, certificatesOf_append, hders]
      simp [certificatesOf, KeystoreItem.der?, ContentInfo.certificates]

/-- All the certificates of a PKCS#12 container are certificates that it holds. -/
theorem keystoreHolds_pkcs12 {contents : List ContentInfo} {container der : List UInt8}
    (h : Pkcs12 contents container) (hder : der ∈ contents.flatMap ContentInfo.certificates) :
    KeystoreHolds (container ++ trailing) der := by
  obtain ⟨element, ⟨elements, sequence, hcontents, hsequence, hdata⟩, hpfx⟩ := h
  obtain ⟨items, hlists, hcertificates⟩ := SafeLists.contents hcontents .start
  refine ⟨items, _, Or.inr ⟨container, trailing, element, sequence, _, [], [], rfl, hpfx, hdata,
    hsequence, hlists, rfl⟩, ?_⟩
  rw [← mem_certificatesOf, hcertificates]
  exact List.mem_append_right _ hder

end Encodings
end Portcall.Net
