import Portcall.Net.Pkcs12Nesting

/-! What holds of a read of any bytes at all: the loops move on inside their buffer, and the result
is well formed. -/
namespace Portcall.Net
open Segment Cursor

section Link
variable (bytes : List UInt8)

/-- One link of a chain: the offset after it. -/
def chainLink (offset : ℕ) : Except KeystoreFailure ℕ := do
  let typeLen ← readUint16 bytes offset
  let offset ← advance bytes (offset + 2) typeLen
  let certLen ← readUint32 bytes offset
  advance bytes (offset + 4) certLen

lemma skipChain_succ (links offset : ℕ) :
    skipChain bytes (links + 1) offset = chainLink bytes offset >>= skipChain bytes links := by
  rw [skipChain, chainLink]
  simp only [bind_assoc]

end Link

/-- What is read is read inside the buffer. -/
structure ReadsInside (buffer : List UInt8) : Prop where
  uint32 : ∀ offset value, readUint32 buffer offset = .ok value → offset + 4 ≤ buffer.length
  uint16 : ∀ offset value, readUint16 buffer offset = .ok value → offset + 2 ≤ buffer.length
  advance : ∀ offset length next, advance buffer offset length = .ok next →
    next = offset + length ∧ next ≤ buffer.length
  tlv : ∀ offset depth tlv, readTlv buffer offset depth = .ok tlv →
    offset < tlv.start ∧ tlv.start ≤ tlv.end ∧ tlv.end ≤ buffer.length

/-- Every iteration of a loop moves on, and not past the end of the buffer. -/
structure LoopsAdvance (buffer : List UInt8) : Prop where
  entry : ∀ offset certificate next, jksEntry buffer offset = .ok (certificate, next) →
    offset < next ∧ next ≤ buffer.length
  link : ∀ offset next, chainLink buffer offset = .ok next → offset < next ∧ next ≤ buffer.length
  contentInfo : ∀ pos contents next, contentInfoAt buffer pos = .ok (contents, next) →
    pos < next ∧ next ≤ buffer.length
  bag : ∀ bagPos certificate next, bagAt buffer bagPos = .ok (certificate, next) →
    bagPos < next ∧ next ≤ buffer.length

section Advance
variable {buffer : List UInt8}

lemma readsInside (buffer : List UInt8) : ReadsInside buffer := by
  refine ⟨?_, ?_, ?_, ?_⟩
  · intro offset value h
    unfold readUint32 at h
    split_ifs at h
    omega
  · intro offset value h
    unfold readUint16 at h
    split_ifs at h
    omega
  · intro offset length next h
    unfold advance at h
    split_ifs at h
    cases h
    exact ⟨rfl, by omega⟩
  · intro offset depth tlv h
    unfold readTlv at h
    split_ifs at h
    split at h
    · cases h
    · rename_i length next hlength
      split_ifs at h with hend
      cases h
      exact ⟨Nat.lt_of_succ_lt (lt_of_readLength hlength), Nat.le_add_right _ _,
        Nat.le_of_not_lt hend⟩

lemma chainLink_advances {offset next : ℕ} (h : chainLink buffer offset = .ok next) :
    offset < next ∧ next ≤ buffer.length := by
  obtain ⟨typeLen, -, h⟩ := bind_eq_ok.mp h
  obtain ⟨typeEnd, htype, h⟩ := bind_eq_ok.mp h
  obtain ⟨certLen, -, h⟩ := bind_eq_ok.mp h
  obtain ⟨rfl, -⟩ := (readsInside buffer).advance _ _ _ htype
  obtain ⟨rfl, hend⟩ := (readsInside buffer).advance _ _ _ h
  exact ⟨by omega, hend⟩

/-- A chain that is skipped has as many bytes as links. -/
lemma skipChain_advances {links offset next : ℕ} (h : skipChain buffer links offset = .ok next)
    (hoffset : offset ≤ buffer.length) : offset + links ≤ next ∧ next ≤ buffer.length := by
  induction links generalizing offset with
  | zero =>
    cases h
    exact ⟨Nat.le_refl _, hoffset⟩
  | succ links ih =>
    rw [skipChain_succ] at h
    obtain ⟨rest, hlink, h⟩ := bind_eq_ok.mp h
    obtain ⟨hlt, hend⟩ := chainLink_advances hlink
    obtain ⟨hle, hnext⟩ := ih h hend
    exact ⟨by omega, hnext⟩

lemma jksEntry_advances {offset next : ℕ} {certificate : Option (List UInt8)}
    (h : jksEntry buffer offset = .ok (certificate, next)) :
    offset < next ∧ next ≤ buffer.length := by
  have hinside := readsInside buffer
  obtain ⟨tag, -, h⟩ := bind_eq_ok.mp h
  obtain ⟨aliasLen, -, h⟩ := bind_eq_ok.mp h
  obtain ⟨aliasEnd, halias, h⟩ := bind_eq_ok.mp h
  obtain ⟨timestampEnd, htimestamp, h⟩ := bind_eq_ok.mp h
  obtain ⟨rfl, -⟩ := hinside.advance _ _ _ halias
  obtain ⟨rfl, -⟩ := hinside.advance _ _ _ htimestamp
  split_ifs at h
  · obtain ⟨keyLen, -, h⟩ := bind_eq_ok.mp h
    obtain ⟨keyEnd, hkey, h⟩ := bind_eq_ok.mp h
    obtain ⟨rfl, -⟩ := hinside.advance _ _ _ hkey
    obtain ⟨chainLen, hchainLen, h⟩ := bind_eq_ok.mp h
    obtain ⟨chainEnd, hchain, h⟩ := bind_eq_ok.mp h
    obtain ⟨hle, hend⟩ := skipChain_advances hchain (hinside.uint32 _ _ hchainLen)
    cases h
    exact ⟨by omega, hend⟩
  · obtain ⟨typeLen, -, h⟩ := bind_eq_ok.mp h
    obtain ⟨typeEnd, htype, h⟩ := bind_eq_ok.mp h
    obtain ⟨rfl, -⟩ := hinside.advance _ _ _ htype
    obtain ⟨certLen, -, h⟩ := bind_eq_ok.mp h
    obtain ⟨certEnd, hcert, h⟩ := bind_eq_ok.mp h
    obtain ⟨rfl, hend⟩ := hinside.advance _ _ _ hcert
    cases h
    exact ⟨by omega, hend⟩

lemma contentInfoAt_advances {pos next : ℕ} {contents : Option (List UInt8 × Tlv)}
    (h : contentInfoAt buffer pos = .ok (contents, next)) : pos < next ∧ next ≤ buffer.length := by
  refine ⟨lt_of_contentInfoAt h, ?_⟩
  obtain ⟨ci, hci, h⟩ := bind_eq_ok.mp h
  have hend := (elementAt_of_read hci).end_le
  split at h
  · cases h
    exact hend
  · cases h
  · obtain ⟨bagsSeq, -, h⟩ := bind_eq_ok.mp h
    cases h
    exact hend

lemma bagAt_advances {bagPos next : ℕ} {certificate : Option (List UInt8)}
    (h : bagAt buffer bagPos = .ok (certificate, next)) : bagPos < next ∧ next ≤ buffer.length := by
  refine ⟨lt_of_bagAt h, ?_⟩
  obtain ⟨bag, hbag, h⟩ := bind_eq_ok.mp h
  obtain ⟨found, -, h⟩ := bind_eq_ok.mp h
  cases h
  exact (elementAt_of_read hbag).end_le

lemma loopsAdvance (buffer : List UInt8) : LoopsAdvance buffer :=
  ⟨fun _ _ _ => jksEntry_advances, fun _ _ => chainLink_advances,
    fun _ _ _ => contentInfoAt_advances, fun _ _ _ => bagAt_advances⟩

end Advance

/-- However many records are announced, no more are read than there are bytes for: an entry has a
byte at least, and so has a `ContentInfo` and each of the bags in it. -/
structure RunsBounded (bytes : List UInt8) : Prop where
  entries : ∀ count offset items last, Reads (jksStep bytes) (offset, count) items last →
    items.length ≤ bytes.length
  links : ∀ links offset next, offset ≤ bytes.length →
    skipChain bytes links offset = .ok next → links ≤ bytes.length
  safe : ∀ authSafe safeSeq, openPkcs12 bytes = .ok (authSafe, safeSeq) → ∀ items last,
    Reads (safeStep authSafe safeSeq.end) ⟨safeSeq.start, [], 0, 0⟩ items last →
      items.length ≤ bytes.length * (bytes.length + 1)

/-- What every result has to say about itself. -/
structure WellFormedRead (bytes : List UInt8) (read : KeystoreRead) : Prop where
  empty_iff : read.certificates = [] ↔ read.failure ≠ none
  cap : read.certificates.length ≤ maxKeystoreCertificates
  slices : ∀ der ∈ read.certificates, der <:+: bytes
  inPart : read.isPartial = true → read.format = some .pkcs12 ∧ read.certificates ≠ []

section Runs
variable {bytes buffer : List UInt8}

lemma infix_slice (buffer : List UInt8) (start stop : ℕ) : slice buffer start stop <:+: buffer :=
  (List.drop_suffix _ _).isInfix.trans (List.take_prefix _ _).isInfix

lemma infix_of_readContentInfoOctets {ci : Tlv} {depth : ℕ} {octets : List UInt8}
    (h : readContentInfoOctets buffer ci depth = .ok octets) : octets <:+: buffer := by
  obtain ⟨oid, -, h⟩ := bind_eq_ok.mp h
  dsimp only at h
  split_ifs at h
  obtain ⟨wrapper, -, h⟩ := bind_eq_ok.mp h
  obtain ⟨octet, -, h⟩ := bind_eq_ok.mp h
  cases h
  exact infix_slice _ _ _

lemma infix_of_openPkcs12 {authSafe : List UInt8} {safeSeq : Tlv}
    (h : openPkcs12 bytes = .ok (authSafe, safeSeq)) : authSafe <:+: bytes := by
  obtain ⟨pfx, -, h⟩ := bind_eq_ok.mp h
  obtain ⟨version, -, h⟩ := bind_eq_ok.mp h
  obtain ⟨authSafeCi, -, h⟩ := bind_eq_ok.mp h
  obtain ⟨octets, hoctets, h⟩ := bind_eq_ok.mp h
  obtain ⟨seq, -, h⟩ := bind_eq_ok.mp h
  cases h
  exact infix_of_readContentInfoOctets hoctets

lemma infix_of_contentInfoAt {pos next : ℕ} {safeContents : List UInt8} {bagsSeq : Tlv}
    (h : contentInfoAt buffer pos = .ok (some (safeContents, bagsSeq), next)) :
    safeContents <:+: buffer := by
  obtain ⟨ci, -, h⟩ := bind_eq_ok.mp h
  split at h
  · cases h
  · cases h
  · rename_i octets hoctets
    obtain ⟨seq, -, h⟩ := bind_eq_ok.mp h
    cases h
    exact infix_of_readContentInfoOctets hoctets

lemma infix_of_bagAt {bagPos next : ℕ} {der : List UInt8}
    (h : bagAt buffer bagPos = .ok (some der, next)) : der <:+: buffer := by
  obtain ⟨bag, -, h⟩ := bind_eq_ok.mp h
  obtain ⟨certificate, hcert, h⟩ := bind_eq_ok.mp h
  cases h
  obtain ⟨bagId, -, hcert⟩ := bind_eq_ok.mp hcert
  obtain ⟨wrapper, -, hcert⟩ := bind_eq_ok.mp hcert
  split_ifs at hcert
  · cases hcert
  · obtain ⟨certBag, -, hcert⟩ := bind_eq_ok.mp hcert
    obtain ⟨certId, -, hcert⟩ := bind_eq_ok.mp hcert
    split_ifs at hcert
    · cases hcert
    · obtain ⟨valueWrapper, -, hcert⟩ := bind_eq_ok.mp hcert
      obtain ⟨octet, -, hcert⟩ := bind_eq_ok.mp hcert
      cases hcert
      exact infix_slice _ _ _

lemma infix_of_jksEntry {offset next : ℕ} {der : List UInt8}
    (h : jksEntry buffer offset = .ok (some der, next)) : der <:+: buffer := by
  obtain ⟨tag, -, h⟩ := bind_eq_ok.mp h
  obtain ⟨aliasLen, -, h⟩ := bind_eq_ok.mp h
  obtain ⟨aliasEnd, -, h⟩ := bind_eq_ok.mp h
  obtain ⟨timestampEnd, -, h⟩ := bind_eq_ok.mp h
  split_ifs at h
  · obtain ⟨keyLen, -, h⟩ := bind_eq_ok.mp h
    obtain ⟨keyEnd, -, h⟩ := bind_eq_ok.mp h
    obtain ⟨chainLen, -, h⟩ := bind_eq_ok.mp h
    obtain ⟨chainEnd, -, h⟩ := bind_eq_ok.mp h
    cases h
  · obtain ⟨typeLen, -, h⟩ := bind_eq_ok.mp h
    obtain ⟨typeEnd, -, h⟩ := bind_eq_ok.mp h
    obtain ⟨certLen, -, h⟩ := bind_eq_ok.mp h
    obtain ⟨certEnd, -, h⟩ := bind_eq_ok.mp h
    cases h
    exact infix_slice _ _ _

/-- What is left of the authenticated safe, each byte of it as good as a whole safe contents, and of
the safe contents the cursor is in. -/
def cursorRank (authSafe : List UInt8) (cursor : SafeCursor) : ℕ :=
  (authSafe.length - cursor.pos) * (authSafe.length + 1) +
    (cursor.safeContents.length - cursor.bagPos)

/-- A `ContentInfo` behind is worth more than the bags in it. -/
lemma cursorRank_lt {authSafe : List UInt8} {cursor next : SafeCursor} (hlt : cursor.pos < next.pos)
    (hend : next.pos ≤ authSafe.length) (hslice : next.safeContents <:+: authSafe) :
    cursorRank authSafe next < cursorRank authSafe cursor := by
  have hbags := hslice.length_le
  have hinfos : (authSafe.length - next.pos + 1) * (authSafe.length + 1) ≤
      (authSafe.length - cursor.pos) * (authSafe.length + 1) :=
    Nat.mul_le_mul_right _ (by omega)
  rw [Nat.succ_mul] at hinfos
  rw [cursorRank, cursorRank]
  omega

/-- A step stays in the buffer, comes closer to the end, and reads slices only. -/
lemma safeStep_bounds {authSafe : List UInt8} {safeEnd : ℕ} {cursor next : SafeCursor}
    {item : KeystoreItem} (hbuffer : cursor.safeContents <:+: authSafe)
    (h : safeStep authSafe safeEnd cursor = some (.ok (item, next))) :
    (next.safeContents <:+: authSafe ∧ cursorRank authSafe next < cursorRank authSafe cursor) ∧
      ∀ der, item = .certificate der → der <:+: authSafe := by
  rcases safeStep_cases h with ⟨-, certificate, bagPos, hread, rfl, rfl⟩ |
    ⟨-, -, pos, hread, rfl, rfl⟩ | ⟨-, -, safeContents, bagsSeq, pos, hread, rfl, rfl⟩
  · obtain ⟨hlt, hend⟩ := bagAt_advances hread
    refine ⟨⟨hbuffer, Nat.add_lt_add_left
      (Nat.sub_lt_sub_left (Nat.lt_of_lt_of_le hlt hend) hlt) _⟩,
      fun der hder => ?_⟩
    cases certificate with
    | none => cases hder
    | some der' =>
      cases hder
      exact (infix_of_bagAt hread).trans hbuffer
  · obtain ⟨hlt, hend⟩ := contentInfoAt_advances hread
    exact ⟨⟨List.nil_infix, cursorRank_lt hlt hend List.nil_infix⟩, nofun⟩
  · obtain ⟨hlt, hend⟩ := contentInfoAt_advances hread
    have hslice := infix_of_contentInfoAt hread
    exact ⟨⟨hslice, cursorRank_lt hlt hend hslice⟩, nofun⟩

/-- So does a step of the record stream. -/
lemma jksStep_bounds {position next : ℕ × ℕ} {item : KeystoreItem}
    (h : jksStep bytes position = some (.ok (item, next))) :
    bytes.length - next.1 < bytes.length - position.1 ∧
      ∀ der, item = .certificate der → der <:+: bytes := by
  obtain ⟨offset, left⟩ := position
  cases left with
  | zero => cases h
  | succ left =>
    cases hentry : jksEntry bytes offset with
    | error reason =>
      rw [jksStep, hentry] at h
      cases h
    | ok entry =>
      obtain ⟨certificate, after⟩ := entry
      rw [jksStep, hentry] at h
      cases h
      obtain ⟨hlt, hend⟩ := jksEntry_advances hentry
      refine ⟨Nat.sub_lt_sub_left (by omega) hlt, fun der hder => ?_⟩
      cases certificate with
      | none => cases hder
      | some der' =>
        cases hder
        exact infix_of_jksEntry hentry

lemma runsBounded (bytes : List UInt8) : RunsBounded bytes := by
  refine ⟨?_, ?_, ?_⟩
  · intro count offset items last hreads
    have hlength := hreads.length_add_le (fun _ => True)
      (fun position => bytes.length - position.1)
      (fun _ _ _ _ hstep => ⟨trivial, (jksStep_bounds hstep).1⟩) trivial
    dsimp only at hlength
    omega
  · intro links offset next hoffset h
    obtain ⟨hle, hend⟩ := skipChain_advances h hoffset
    omega
  · intro authSafe safeSeq hopen items last hreads
    have hlength := hreads.length_add_le (fun cursor => cursor.safeContents <:+: authSafe)
      (cursorRank authSafe) (fun _ _ _ hinv hstep => (safeStep_bounds hinv hstep).1)
      List.nil_infix
    have hsafe := (infix_of_openPkcs12 hopen).length_le
    have hrank : cursorRank authSafe ⟨safeSeq.start, [], 0, 0⟩ ≤
        bytes.length * (bytes.length + 1) :=
      Nat.mul_le_mul (by omega) (by omega)
    omega

end Runs

section Result
variable {bytes : List UInt8}

lemma wellFormed_failureResult (format : Option KeystoreFormat) (reason : KeystoreFailure) :
    WellFormedRead bytes (failureResult format reason) :=
  ⟨iff_of_true rfl nofun, Nat.zero_le _, fun _ hm => absurd hm List.not_mem_nil, nofun⟩

/-- What a walk up to the cap collects. -/
lemma bounds_of_walk {σ : Type} (Inv : σ → Prop)
    {step : σ → Option (Except KeystoreFailure (KeystoreItem × σ))} {start last : σ}
    {items : List KeystoreItem}
    (hstep : ∀ s item s', Inv s → step s = some (.ok (item, s')) →
      Inv s' ∧ ∀ der, item = .certificate der → der <:+: bytes)
    (hwalk : CertWalk step 0 start items last) (hinv : Inv start) :
    (certificatesOf items).length ≤ maxKeystoreCertificates ∧
      ∀ der ∈ certificatesOf items, der <:+: bytes := by
  constructor
  · have htotal := hwalk.total_le KeystoreItem.weight_le_one (Nat.zero_le _)
    rwa [length_certificatesOf, ← Nat.zero_add (total _ _)]
  · have hvisits : Cursor.Visits step KeystoreItem.weight maxKeystoreCertificates 0 start
        (fun _ => True) := fun _ _ _ _ _ => trivial
    have hall := hwalk.forall_mem (fun s item s' hinv _ h => hstep s item s' hinv h) hvisits hinv
    exact fun der hm => hall _ (mem_certificatesOf.mp hm) der rfl

lemma wellFormed_parseJks {read : KeystoreRead} (h : parseJks bytes = .ok read) :
    WellFormedRead bytes read ∧ read.format = some .jks := by
  obtain ⟨⟨count, offset⟩, hheader, -⟩ := bind_eq_ok.mp h
  have hwalk := jksEntries_walk bytes count offset []
  rw [parseJks_eq hheader] at h
  cases hentries : jksEntries bytes count offset [] with
  | error reason =>
    rw [hentries] at h
    cases h
  | ok found =>
    rw [hentries] at h hwalk
    obtain ⟨items, last, hitems, hfound, -⟩ := hwalk
    rw [List.nil_append] at hfound
    cases h
    obtain ⟨hcap, hslices⟩ := bounds_of_walk (fun _ => True)
      (fun _ _ _ _ hstep => ⟨trivial, (jksStep_bounds hstep).2⟩) hitems trivial
    rw [← hfound] at hcap hslices
    refine ⟨⟨?_, hcap, hslices, nofun⟩, rfl⟩
    cases found <;> simp

lemma wellFormed_parsePkcs12 {read : KeystoreRead} (h : parsePkcs12 bytes = .ok read) :
    WellFormedRead bytes read ∧ read.format = some .pkcs12 := by
  obtain ⟨⟨authSafe, safeSeq⟩, hopen, -⟩ := bind_eq_ok.mp h
  have hwalk := safeLoop_walk authSafe safeSeq.end safeSeq.start [] false
    ⟨safeSeq.start, [], 0, 0⟩ rfl (Or.inl (Nat.le_refl _))
  rw [parsePkcs12_eq hopen] at h
  cases hloop : safeLoop authSafe safeSeq.end safeSeq.start [] false with
  | error reason =>
    rw [hloop] at h
    cases h
  | ok result =>
    obtain ⟨found, sawEncrypted⟩ := result
    rw [hloop] at h hwalk
    obtain ⟨items, last, hitems, hfound, -⟩ := hwalk
    rw [List.nil_append] at hfound
    obtain ⟨hcap, hslices⟩ := bounds_of_walk
      (fun cursor => cursor.safeContents <:+: authSafe)
      (fun _ _ _ hinv hstep =>
        ⟨(safeStep_bounds hinv hstep).1.1, (safeStep_bounds hinv hstep).2⟩) hitems List.nil_infix
    rw [← hfound] at hcap hslices
    dsimp only at h
    by_cases hlocked : (found.isEmpty && sawEncrypted) = true
    · rw [if_pos hlocked] at h
      cases h
    rw [if_neg hlocked] at h
    cases h
    refine ⟨⟨?_, hcap, fun der hm => (hslices der hm).trans (infix_of_openPkcs12 hopen), ?_⟩, rfl⟩
    · cases found <;> simp
    · intro hpartial
      refine ⟨rfl, ?_⟩
      cases found with
      | nil => simp at hpartial
      | cons der rest => exact List.cons_ne_nil _ _

lemma wellFormed_tryParse {format : KeystoreFormat}
    {result : Except KeystoreFailure KeystoreRead}
    (h : ∀ read, result = .ok read → WellFormedRead bytes read ∧ read.format = some format) :
    WellFormedRead bytes (tryParse format result) ∧ (tryParse format result).format = some format := by
  cases result with
  | error reason => exact ⟨wellFormed_failureResult _ _, rfl⟩
  | ok read => exact h read rfl

/-- The format the first four bytes announce. -/
def announcedFormat (first : List UInt8) : Option KeystoreFormat :=
  match readUint32 first 0 with
  | .error _ => none
  | .ok magic =>
    if magic = jksMagic then some .jks
    else if magic = jceksMagic then none
    else if byteAt first 0 = tagSequence then some .pkcs12
    else none

lemma readUint32_take : readUint32 (bytes.take 4) 0 = readUint32 bytes 0 := by
  have hlength : (bytes.take 4).length < 0 + 4 ↔ bytes.length < 0 + 4 := by
    rw [List.length_take]
    omega
  simp only [readUint32, hlength, byteAt_take (show 0 < 4 by omega),
    byteAt_take (show 0 + 1 < 4 by omega), byteAt_take (show 0 + 2 < 4 by omega),
    byteAt_take (show 0 + 3 < 4 by omega)]

lemma wellFormed_readKeystore (bytes : List UInt8) :
    WellFormedRead bytes (readKeystore bytes) ∧
      (readKeystore bytes).format = announcedFormat (bytes.take 4) := by
  rw [announcedFormat, readUint32_take, byteAt_take (by omega), readKeystore]
  cases readUint32 bytes 0 with
  | error reason => exact ⟨wellFormed_failureResult _ _, rfl⟩
  | ok magic =>
    dsimp only
    split_ifs
    · exact wellFormed_tryParse fun read => wellFormed_parseJks
    · exact ⟨wellFormed_failureResult _ _, rfl⟩
    · exact wellFormed_tryParse fun read => wellFormed_parsePkcs12
    · exact ⟨wellFormed_failureResult _ _, rfl⟩

/-- What a caller of the reader may count on. Whatever a parser stops on is caught; what is read
outside of one is the first four bytes, once there are four. -/
structure KeystoreBounds (bytes : List UInt8) : Prop where
  first : 4 ≤ bytes.length → ∃ magic, readUint32 bytes 0 = .ok magic
  inside : ∀ buffer, ReadsInside buffer
  advance : ∀ buffer, LoopsAdvance buffer
  bounded : RunsBounded bytes
  wellFormed : WellFormedRead bytes (readKeystore bytes)
  format : ∀ bytes', bytes'.take 4 = bytes.take 4 →
    (readKeystore bytes').format = (readKeystore bytes).format

theorem readKeystore_bounds (bytes : List UInt8) : KeystoreBounds bytes := by
  refine ⟨?_, readsInside, loopsAdvance, runsBounded bytes, (wellFormed_readKeystore bytes).1, ?_⟩
  · intro hlength
    rw [readUint32, if_neg (by omega)]
    exact ⟨_, rfl⟩
  · intro bytes' hfirst
    rw [(wellFormed_readKeystore bytes').2, (wellFormed_readKeystore bytes).2, hfirst]

end Result

end Portcall.Net
