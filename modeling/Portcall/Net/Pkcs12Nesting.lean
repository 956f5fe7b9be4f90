import Portcall.Net.Pkcs12Encoding

/-! Whether the elements of a PKCS#12 container nest. The reader holds a length against the whole
buffer and not against the element around it, so an element that runs into its neighbours is read
all the same. -/
namespace Portcall.Net
open Segment Cursor

section Reading
variable (bytes : List UInt8)

/-- There is an element of this tag at this offset. -/
def ElementAt (offset tag : ℕ) (tlv : Tlv) : Prop := readTlv bytes offset 0 = .ok tlv ∧ tlv.tag = tag

/-- The element at this offset, if it is one of this tag, ends by the limit, and the rest that
depends on it holds. -/
def Fits (limit offset tag : ℕ) (rest : Tlv → Prop) : Prop :=
  ∀ tlv, ElementAt bytes offset tag tlv → tlv.end ≤ limit ∧ rest tlv

variable {bytes} {limit offset depth tag : ℕ} {reason : KeystoreFailure} {tlv : Tlv}

lemma ElementAt.unique {tlv' : Tlv} (h : ElementAt bytes offset tag tlv)
    (h' : ElementAt bytes offset tag tlv') : tlv = tlv' := by
  have heq := h.1.symm.trans h'.1
  cases heq
  rfl

lemma fits_iff {rest : Tlv → Prop} (h : ElementAt bytes offset tag tlv) :
    Fits bytes limit offset tag rest ↔ tlv.end ≤ limit ∧ rest tlv := by
  constructor
  · intro hfits
    exact hfits tlv h
  · intro hrest tlv' h'
    obtain rfl := h.unique h'
    exact hrest

lemma readTlv_eq_of_le (h : depth ≤ maxDerDepth) :
    readTlv bytes offset depth = readTlv bytes offset 0 := by
  unfold readTlv
  rw [if_neg (Nat.not_lt.mpr h), if_neg (by decide : ¬maxDerDepth < 0)]

/-- The depth of a read matters only beyond the deepest that is allowed. -/
lemma readTagged_iff_elementAt : readTagged bytes offset depth tag reason = .ok tlv ↔
    depth ≤ maxDerDepth ∧ ElementAt bytes offset tag tlv := by
  rw [readTagged_eq_ok]
  by_cases hdepth : depth ≤ maxDerDepth
  · rw [readTlv_eq_of_le hdepth]
    exact ⟨fun h => ⟨hdepth, h⟩, fun h => h.2⟩
  · constructor
    · rintro ⟨hread, -⟩
      rw [readTlv, if_pos (by omega)] at hread
      cases hread
    · rintro ⟨hle, -⟩
      exact absurd hle hdepth

lemma readLength_ne_encrypted : readLength bytes offset ≠ .error .encrypted := by
  intro h
  unfold readLength at h
  split_ifs at h
  · cases h
  · dsimp only at h
    split_ifs at h <;> cases h

/-- A read never fails for being encrypted, unless its caller says so. -/
lemma readTagged_ne_encrypted (hreason : reason ≠ .encrypted) :
    readTagged bytes offset depth tag reason ≠ .error .encrypted := by
  intro h
  rcases bind_eq_error.mp h with h | ⟨tlv, -, h⟩
  · unfold readTlv at h
    split_ifs at h
    · cases h
    · cases h
    · split at h
      · rename_i reason' hlength
        cases h
        exact readLength_ne_encrypted hlength
      · split_ifs at h
        cases h
  · split_ifs at h
    cases h
    exact hreason rfl

lemma byteAt_take {index : ℕ} (h : index < limit) :
    byteAt (bytes.take limit) index = byteAt bytes index := by
  unfold byteAt
  rw [List.getD_eq_getElem?_getD, List.getD_eq_getElem?_getD, List.getElem?_take_of_lt h]

lemma foldl_range_take {n : ℕ} (h : offset + n ≤ limit) :
    (List.range n).foldl
      (fun length index => length * 256 + byteAt (bytes.take limit) (offset + index)) 0 =
    (List.range n).foldl
      (fun length index => length * 256 + byteAt bytes (offset + index)) 0 := by
  apply List.foldl_ext
  intro length index hindex
  rw [List.mem_range] at hindex
  rw [byteAt_take (by omega)]

/-- A length is read from the bytes up to a limit if it ends there. -/
lemma readLength_take_iff {n next : ℕ} : readLength (bytes.take limit) offset = .ok (n, next) ↔
    readLength bytes offset = .ok (n, next) ∧ next ≤ limit := by
  by_cases hlimit : limit ≤ offset
  · constructor
    · intro h
      rw [readLength, if_pos (by rw [List.length_take]; omega)] at h
      cases h
    · rintro ⟨h, hnext⟩
      have hlt := lt_of_readLength h
      omega
  · unfold readLength
    rw [List.length_take, byteAt_take (by omega)]
    by_cases hlength : bytes.length ≤ offset
    · rw [if_pos (by omega), if_pos hlength]
      simp
    rw [if_neg (by omega), if_neg hlength]
    dsimp only
    by_cases hshort : byteAt bytes offset < 0x80
    · rw [if_pos hshort, if_pos hshort, Except.ok.injEq, Prod.mk.injEq]
      omega
    by_cases hindefinite : byteAt bytes offset = 0x80
    · rw [if_neg hshort, if_pos hindefinite, if_neg hshort, if_pos hindefinite]
      simp
    by_cases hfour : 4 < byteAt bytes offset - 0x80
    · rw [if_neg hshort, if_neg hindefinite, if_pos hfour, if_neg hshort, if_neg hindefinite,
        if_pos hfour]
      simp
    rw [if_neg hshort, if_neg hindefinite, if_neg hfour, if_neg hshort, if_neg hindefinite,
      if_neg hfour]
    by_cases hend : bytes.length < offset + 1 + (byteAt bytes offset - 0x80)
    · rw [if_pos (by omega), if_pos hend]
      simp
    rw [if_neg hend]
    by_cases hnext : limit < offset + 1 + (byteAt bytes offset - 0x80)
    · rw [if_pos (by omega), Except.ok.injEq, Prod.mk.injEq]
      constructor
      · intro h
        cases h
      · omega
    · rw [if_neg (by omega), foldl_range_take (by omega), Except.ok.injEq, Prod.mk.injEq]
      omega

/-- From the bytes up to a limit are read the elements that end by it. -/
theorem elementAt_take_iff : ElementAt (bytes.take limit) offset tag tlv ↔
    ElementAt bytes offset tag tlv ∧ tlv.end ≤ limit := by
  have hdepth : ¬maxDerDepth < 0 := by decide
  unfold ElementAt
  rw [and_right_comm, and_congr_left_iff]
  intro _
  by_cases hlimit : limit ≤ offset
  · constructor
    · intro h
      have hlt := lt_end_of_readTlv h
      rw [readTlv, if_neg hdepth, if_pos (by rw [List.length_take]; omega)] at h
      cases h
    · rintro ⟨h, hend⟩
      have hlt := lt_end_of_readTlv h
      omega
  unfold readTlv
  rw [if_neg hdepth, if_neg hdepth, List.length_take, byteAt_take (by omega)]
  by_cases hlength : bytes.length ≤ offset
  · rw [if_pos (by omega), if_pos hlength]
    simp
  rw [if_neg (by omega), if_neg hlength]
  cases hread : readLength (bytes.take limit) (offset + 1) with
  | error reason =>
    constructor
    · intro h
      cases h
    · rintro ⟨h, hend⟩
      split at h
      · cases h
      · rename_i n next hwhole
        split_ifs at h
        cases h
        have hok := readLength_take_iff.mpr
          ⟨hwhole, (Nat.le_trans (Nat.le_add_right next n) hend : next ≤ limit)⟩
        rw [hread] at hok
        cases hok
  | ok result =>
    obtain ⟨n, next⟩ := result
    obtain ⟨hwhole, hnext⟩ := readLength_take_iff.mp hread
    rw [hwhole]
    dsimp only
    by_cases hend : bytes.length < next + n
    · rw [if_pos (by omega), if_pos hend]
      simp
    rw [if_neg hend]
    by_cases hfits : limit < next + n
    · rw [if_pos (by omega)]
      constructor
      · intro h
        cases h
      · rintro ⟨h, hle⟩
        cases h
        exact absurd hle (Nat.not_le.mpr hfits)
    · rw [if_neg (by omega), Except.ok.injEq]
      constructor
      · rintro rfl
        exact ⟨rfl, Nat.le_of_not_lt hfits⟩
      · exact fun h => h.1

lemma readTagged_bind_iff {β : Type} {f : Tlv → Except KeystoreFailure β}
    {result : Except KeystoreFailure β} (hreason : reason ≠ .encrypted)
    (hresult : ∀ e, result = .error e → e = .encrypted) :
    (readTagged bytes offset depth tag reason >>= f) = result ↔
      ∃ tlv, readTagged bytes offset depth tag reason = .ok tlv ∧ f tlv = result := by
  cases result with
  | ok b => exact bind_eq_ok
  | error e =>
    obtain rfl := hresult e rfl
    rw [bind_eq_error, or_iff_right (readTagged_ne_encrypted hreason)]

/-- An element read from the bytes up to a limit, and something after it: the same as from all the
bytes, as far as the element ends by the limit and so does what is read after it. -/
theorem readTagged_take_bind_iff {β : Type} {f f' : Tlv → Except KeystoreFailure β}
    {rest : Tlv → Prop} {result : Except KeystoreFailure β} (hreason : reason ≠ .encrypted)
    (hresult : ∀ e, result = .error e → e = .encrypted)
    (hrest : ∀ tlv, f' tlv = result ↔ f tlv = result ∧ rest tlv) :
    (readTagged (bytes.take limit) offset depth tag reason >>= f') = result ↔
      (readTagged bytes offset depth tag reason >>= f) = result ∧
        Fits bytes limit offset tag rest := by
  rw [readTagged_bind_iff hreason hresult, readTagged_bind_iff hreason hresult]
  constructor
  · rintro ⟨tlv, hread, hf⟩
    obtain ⟨hdepth, hat⟩ := readTagged_iff_elementAt.mp hread
    obtain ⟨hat, hend⟩ := elementAt_take_iff.mp hat
    obtain ⟨hf, htlv⟩ := (hrest tlv).mp hf
    exact ⟨⟨tlv, readTagged_iff_elementAt.mpr ⟨hdepth, hat⟩, hf⟩, (fits_iff hat).mpr ⟨hend, htlv⟩⟩
  · rintro ⟨⟨tlv, hread, hf⟩, hfits⟩
    obtain ⟨hdepth, hat⟩ := readTagged_iff_elementAt.mp hread
    obtain ⟨hend, htlv⟩ := (fits_iff hat).mp hfits
    exact ⟨tlv, readTagged_iff_elementAt.mpr ⟨hdepth, elementAt_take_iff.mpr ⟨hat, hend⟩⟩,
      (hrest tlv).mpr ⟨hf, htlv⟩⟩

end Reading

section Within
variable (bytes : List UInt8)

/-! The reader once more, with each element read from the bytes of the one around it. -/

def octetsWithin (ci : Tlv) (depth : ℕ) : Except KeystoreFailure (List UInt8) := do
  let oid ← readTagged (bytes.take ci.end) ci.start depth tagObjectIdentifier .unsupportedFormat
  let oidBytes := slice bytes oid.start oid.end
  if oidBytes = oidEncryptedData then .error .encrypted
  else if oidBytes ≠ oidData then .error .unsupportedFormat
  else
    let wrapper ← readTagged (bytes.take ci.end) oid.end depth tagContext0 .unsupportedFormat
    let octet ← readTagged (bytes.take wrapper.end) wrapper.start (depth + 1) tagOctetString
      .unsupportedFormat
    return slice bytes octet.start octet.end

def certWithin (bag : Tlv) (depth : ℕ) : Except KeystoreFailure (Option (List UInt8)) := do
  let bagId ← readTagged (bytes.take bag.end) bag.start depth tagObjectIdentifier .truncated
  let bagValueWrapper ← readTagged (bytes.take bag.end) bagId.end depth tagContext0 .truncated
  if slice bytes bagId.start bagId.end ≠ oidCertBag then return none
  else
    let certBag ← readTagged (bytes.take bagValueWrapper.end) bagValueWrapper.start (depth + 1)
      tagSequence .truncated
    let certId ← readTagged (bytes.take certBag.end) certBag.start (depth + 2) tagObjectIdentifier
      .truncated
    if slice bytes certId.start certId.end ≠ oidX509Certificate then return none
    else
      let certValueWrapper ← readTagged (bytes.take certBag.end) certId.end (depth + 2) tagContext0
        .truncated
      let certOctet ← readTagged (bytes.take certValueWrapper.end) certValueWrapper.start (depth + 3)
        tagOctetString .truncated
      return some (slice bytes certOctet.start certOctet.end)

def bagWithin (bagsEnd bagPos : ℕ) : Except KeystoreFailure (Option (List UInt8) × ℕ) := do
  let bag ← readTagged (bytes.take bagsEnd) bagPos 7 tagSequence .truncated
  let certificate ← certWithin bytes bag 8
  return (certificate, bag.end)

def contentInfoWithin (safeEnd pos : ℕ) :
    Except KeystoreFailure (Option (List UInt8 × Tlv) × ℕ) := do
  let ci ← readTagged (bytes.take safeEnd) pos 4 tagSequence .truncated
  match octetsWithin bytes ci 5 with
  | .error .encrypted => return (none, ci.end)
  | .error reason => .error reason
  | .ok safeContents =>
    let bagsSeq ← readTagged safeContents 0 6 tagSequence .truncated
    return (some (safeContents, bagsSeq), ci.end)

def openWithin : Except KeystoreFailure (List UInt8 × Tlv) := do
  let pfx ← readTagged bytes 0 0 tagSequence .unsupportedFormat
  let version ← readTagged (bytes.take pfx.end) pfx.start 1 tagInteger .unsupportedFormat
  let authSafeCi ← readTagged (bytes.take pfx.end) version.end 1 tagSequence .unsupportedFormat
  let authSafe ← octetsWithin bytes authSafeCi 2
  let safeSeq ← readTagged authSafe 0 3 tagSequence .truncated
  return (authSafe, safeSeq)

def stepWithin (safeEnd : ℕ) (cursor : SafeCursor) :
    Option (Except KeystoreFailure (KeystoreItem × SafeCursor)) :=
  if cursor.bagPos < cursor.bagsEnd then
    some ((bagWithin cursor.safeContents cursor.bagsEnd cursor.bagPos).map
      fun (certificate, next) => (.ofCertificate certificate, { cursor with bagPos := next }))
  else if cursor.pos < safeEnd then
    some ((contentInfoWithin bytes safeEnd cursor.pos).map fun
      | (none, next) => (.encrypted, ⟨next, [], 0, 0⟩)
      | (some (safeContents, bagsSeq), next) =>
        (.other, ⟨next, safeContents, bagsSeq.end, bagsSeq.start⟩))
  else none

/-- Every element can be read from the bytes of the one around it, from the outermost one to the
last that the cap lets be read. -/
def ReadsWithin : Prop :=
  ∃ authSafe safeSeq, openWithin bytes = .ok (authSafe, safeSeq) ∧
    ∃ items last, CertWalk (stepWithin authSafe safeSeq.end) 0 ⟨safeSeq.start, [], 0, 0⟩ items last

end Within

section Nesting
variable (bytes : List UInt8)

/-! What it is for the elements the reader comes across to lie in one another. -/

def OctetsNest (ci : Tlv) : Prop :=
  Fits bytes ci.end ci.start tagObjectIdentifier fun oid =>
    slice bytes oid.start oid.end = oidData →
      Fits bytes ci.end oid.end tagContext0 fun wrapper =>
        Fits bytes wrapper.end wrapper.start tagOctetString fun _ => True

def CertNests (bag : Tlv) : Prop :=
  Fits bytes bag.end bag.start tagObjectIdentifier fun bagId =>
    Fits bytes bag.end bagId.end tagContext0 fun bagValueWrapper =>
      slice bytes bagId.start bagId.end = oidCertBag →
        Fits bytes bagValueWrapper.end bagValueWrapper.start tagSequence fun certBag =>
          Fits bytes certBag.end certBag.start tagObjectIdentifier fun certId =>
            slice bytes certId.start certId.end = oidX509Certificate →
              Fits bytes certBag.end certId.end tagContext0 fun certValueWrapper =>
                Fits bytes certValueWrapper.end certValueWrapper.start tagOctetString
                  fun _ => True

def StepNests (safeEnd : ℕ) (cursor : SafeCursor) : Prop :=
  if cursor.bagPos < cursor.bagsEnd then
    Fits cursor.safeContents cursor.bagsEnd cursor.bagPos tagSequence
      (CertNests cursor.safeContents)
  else if cursor.pos < safeEnd then
    Fits bytes safeEnd cursor.pos tagSequence (OctetsNest bytes)
  else True

def OpenNests : Prop :=
  Fits bytes bytes.length 0 tagSequence fun pfx =>
    Fits bytes pfx.end pfx.start tagInteger fun version =>
      Fits bytes pfx.end version.end tagSequence (OctetsNest bytes)

/-- No element is read past the end of the element around it. -/
def ReadsNest : Prop :=
  OpenNests bytes ∧ ∀ authSafe safeSeq, openPkcs12 bytes = .ok (authSafe, safeSeq) →
    Visits (safeStep authSafe safeSeq.end) KeystoreItem.weight maxKeystoreCertificates 0
      ⟨safeSeq.start, [], 0, 0⟩ (StepNests authSafe safeSeq.end)

variable {bytes}

lemma octetsWithin_eq_iff {ci : Tlv} {depth : ℕ} {result : Except KeystoreFailure (List UInt8)}
    (hresult : ∀ e, result = .error e → e = .encrypted) :
    octetsWithin bytes ci depth = result ↔
      readContentInfoOctets bytes ci depth = result ∧ OctetsNest bytes ci := by
  refine readTagged_take_bind_iff nofun hresult fun oid => ?_
  dsimp only
  by_cases hencrypted : slice bytes oid.start oid.end = oidEncryptedData
  · have hdata : slice bytes oid.start oid.end ≠ oidData := by
      rw [hencrypted]
      decide
    rw [if_pos hencrypted, if_pos hencrypted]
    exact ⟨fun h => ⟨h, fun h' => absurd h' hdata⟩, fun h => h.1⟩
  rw [if_neg hencrypted, if_neg hencrypted]
  by_cases hdata : slice bytes oid.start oid.end = oidData
  · rw [if_neg (by simpa using hdata), if_neg (by simpa using hdata)]
    refine Iff.trans ?_ (and_congr_right' (forall_prop_of_true hdata)).symm
    refine readTagged_take_bind_iff nofun hresult fun wrapper => ?_
    exact readTagged_take_bind_iff nofun hresult fun octet => (and_iff_left trivial).symm
  · rw [if_pos hdata, if_pos hdata]
    exact ⟨fun h => ⟨h, fun h' => absurd h' hdata⟩, fun h => h.1⟩

lemma ok_not_error {α : Type} {a : α} (e : KeystoreFailure)
    (h : (.ok a : Except KeystoreFailure α) = .error e) : e = .encrypted := by
  cases h

lemma certWithin_eq_ok {bag : Tlv} {depth : ℕ} {certificate : Option (List UInt8)} :
    certWithin bytes bag depth = .ok certificate ↔
      extractCertFromBag bytes bag depth = .ok certificate ∧ CertNests bytes bag := by
  refine readTagged_take_bind_iff nofun ok_not_error fun bagId => ?_
  refine readTagged_take_bind_iff nofun ok_not_error fun bagValueWrapper => ?_
  by_cases hcertBag : slice bytes bagId.start bagId.end = oidCertBag
  · rw [if_neg (by simpa using hcertBag), if_neg (by simpa using hcertBag)]
    refine Iff.trans ?_ (and_congr_right' (forall_prop_of_true hcertBag)).symm
    refine readTagged_take_bind_iff nofun ok_not_error fun certBag => ?_
    refine readTagged_take_bind_iff nofun ok_not_error fun certId => ?_
    by_cases hx509 : slice bytes certId.start certId.end = oidX509Certificate
    · rw [if_neg (by simpa using hx509), if_neg (by simpa using hx509)]
      refine Iff.trans ?_ (and_congr_right' (forall_prop_of_true hx509)).symm
      refine readTagged_take_bind_iff nofun ok_not_error fun certValueWrapper => ?_
      exact readTagged_take_bind_iff nofun ok_not_error fun certOctet => (and_iff_left trivial).symm
    · rw [if_pos hx509, if_pos hx509]
      exact ⟨fun h => ⟨h, fun h' => absurd h' hx509⟩, fun h => h.1⟩
  · rw [if_pos hcertBag, if_pos hcertBag]
    exact ⟨fun h => ⟨h, fun h' => absurd h' hcertBag⟩, fun h => h.1⟩

/-- One result after another, the second of which depends on whether the first one nests. -/
lemma bind_ok_iff {α β : Type} {first first' : Except KeystoreFailure α}
    {rest : α → Except KeystoreFailure β} {b : β} {p : Prop}
    (h : ∀ a, first' = .ok a ↔ first = .ok a ∧ p) :
    (first' >>= rest) = .ok b ↔ (first >>= rest) = .ok b ∧ p := by
  rw [bind_eq_ok, bind_eq_ok]
  constructor
  · rintro ⟨a, hfirst, hrest⟩
    obtain ⟨hfirst, hp⟩ := (h a).mp hfirst
    exact ⟨⟨a, hfirst, hrest⟩, hp⟩
  · rintro ⟨⟨a, hfirst, hrest⟩, hp⟩
    exact ⟨a, (h a).mpr ⟨hfirst, hp⟩, hrest⟩

lemma map_ok_iff {α β : Type} {first first' : Except KeystoreFailure α} {f : α → β} {b : β}
    {p : Prop} (h : ∀ a, first' = .ok a ↔ first = .ok a ∧ p) :
    first'.map f = .ok b ↔ first.map f = .ok b ∧ p := by
  have hmap : ∀ result : Except KeystoreFailure α,
      result.map f = .ok b ↔ ∃ a, result = .ok a ∧ f a = b := by
    intro result
    cases result <;> simp [Except.map]
  rw [hmap, hmap]
  simp only [h]
  exact ⟨fun ⟨a, hfirst, hf⟩ => ⟨⟨a, hfirst.1, hf⟩, hfirst.2⟩,
    fun ⟨⟨a, hfirst, hf⟩, hp⟩ => ⟨a, ⟨hfirst, hp⟩, hf⟩⟩

lemma bagWithin_eq_ok {bagsEnd bagPos : ℕ} {bag : Option (List UInt8) × ℕ} :
    bagWithin bytes bagsEnd bagPos = .ok bag ↔
      bagAt bytes bagPos = .ok bag ∧ Fits bytes bagsEnd bagPos tagSequence (CertNests bytes) :=
  readTagged_take_bind_iff nofun ok_not_error fun _ => bind_ok_iff fun _ => certWithin_eq_ok

lemma contentInfoWithin_eq_ok {safeEnd pos : ℕ} {contents : Option (List UInt8 × Tlv) × ℕ} :
    contentInfoWithin bytes safeEnd pos = .ok contents ↔
      contentInfoAt bytes pos = .ok contents ∧
        Fits bytes safeEnd pos tagSequence (OctetsNest bytes) := by
  refine readTagged_take_bind_iff nofun ok_not_error fun ci => ?_
  have hok : ∀ octets, octetsWithin bytes ci 5 = .ok octets ↔
      readContentInfoOctets bytes ci 5 = .ok octets ∧ OctetsNest bytes ci :=
    fun octets => octetsWithin_eq_iff ok_not_error
  have hencrypted : octetsWithin bytes ci 5 = .error .encrypted ↔
      readContentInfoOctets bytes ci 5 = .error .encrypted ∧ OctetsNest bytes ci :=
    octetsWithin_eq_iff fun e h => by cases h; rfl
  constructor
  · intro h
    cases hwithin : octetsWithin bytes ci 5 with
    | ok octets =>
      obtain ⟨hread, hnests⟩ := (hok octets).mp hwithin
      rw [hwithin] at h
      rw [hread]
      exact ⟨h, hnests⟩
    | error reason =>
      rw [hwithin] at h
      cases reason with
      | encrypted =>
        obtain ⟨hread, hnests⟩ := hencrypted.mp hwithin
        rw [hread]
        exact ⟨h, hnests⟩
      | _ => cases h
  · rintro ⟨h, hnests⟩
    cases hread : readContentInfoOctets bytes ci 5 with
    | ok octets =>
      rw [hread] at h
      rw [(hok octets).mpr ⟨hread, hnests⟩]
      exact h
    | error reason =>
      rw [hread] at h
      cases reason with
      | encrypted =>
        rw [hencrypted.mpr ⟨hread, hnests⟩]
        exact h
      | _ => cases h

lemma openWithin_eq_ok {safe : List UInt8 × Tlv} :
    openWithin bytes = .ok safe ↔ openPkcs12 bytes = .ok safe ∧ OpenNests bytes := by
  have houter := List.take_length (l := bytes)
  unfold openWithin
  nth_rewrite 1 [← houter]
  refine readTagged_take_bind_iff nofun ok_not_error fun pfx => ?_
  refine readTagged_take_bind_iff nofun ok_not_error fun version => ?_
  refine readTagged_take_bind_iff nofun ok_not_error fun authSafeCi => ?_
  exact bind_ok_iff fun octets => octetsWithin_eq_iff ok_not_error

/-- Reading within bounds is reading where the elements nest. -/
lemma restricts_stepWithin (authSafe : List UInt8) (safeEnd : ℕ) :
    Restricts (stepWithin authSafe safeEnd) (safeStep authSafe safeEnd)
      (StepNests authSafe safeEnd) where
  ok cursor next := by
    unfold stepWithin safeStep StepNests
    split_ifs
    · rw [Option.some.injEq, Option.some.injEq]
      exact map_ok_iff fun bag => bagWithin_eq_ok
    · rw [Option.some.injEq, Option.some.injEq]
      exact map_ok_iff fun contents => contentInfoWithin_eq_ok
    · simp
  none cursor := by
    unfold stepWithin safeStep
    split_ifs <;> simp

end Nesting

section Enclosure

/-- The elements around a safe contents, each in the content of the one before it. -/
structure SafeEnclosure (authSafe : List UInt8) (safeSeq : Tlv) (safeContents : List UInt8)
    (bagsSeq : Tlv) where
  contentInfo : Tlv
  contentInfo_at : ∃ pos, safeSeq.start ≤ pos ∧ ElementAt authSafe pos tagSequence contentInfo
  contentInfo_end : contentInfo.end ≤ safeSeq.end
  oid : Tlv
  oid_at : ElementAt authSafe contentInfo.start tagObjectIdentifier oid
  oid_end : oid.end ≤ contentInfo.end
  wrapper : Tlv
  wrapper_at : ElementAt authSafe oid.end tagContext0 wrapper
  wrapper_end : wrapper.end ≤ contentInfo.end
  octet : Tlv
  octet_at : ElementAt authSafe wrapper.start tagOctetString octet
  octet_end : octet.end ≤ wrapper.end
  octets : slice authSafe octet.start octet.end = safeContents
  bagsSeq_at : ElementAt safeContents 0 tagSequence bagsSeq
  bagsSeq_end : bagsSeq.end ≤ safeContents.length

/-- The elements around a certificate, from its safe bag on. -/
structure CertEnclosure (safeContents : List UInt8) (bagsSeq : Tlv) (der : List UInt8) where
  bag : Tlv
  bag_at : ∃ bagPos, bagsSeq.start ≤ bagPos ∧ ElementAt safeContents bagPos tagSequence bag
  bag_end : bag.end ≤ bagsSeq.end
  bagId : Tlv
  bagId_at : ElementAt safeContents bag.start tagObjectIdentifier bagId
  bagId_end : bagId.end ≤ bag.end
  bagValueWrapper : Tlv
  bagValueWrapper_at : ElementAt safeContents bagId.end tagContext0 bagValueWrapper
  bagValueWrapper_end : bagValueWrapper.end ≤ bag.end
  certBag : Tlv
  certBag_at : ElementAt safeContents bagValueWrapper.start tagSequence certBag
  certBag_end : certBag.end ≤ bagValueWrapper.end
  certId : Tlv
  certId_at : ElementAt safeContents certBag.start tagObjectIdentifier certId
  certId_end : certId.end ≤ certBag.end
  certValueWrapper : Tlv
  certValueWrapper_at : ElementAt safeContents certId.end tagContext0 certValueWrapper
  certValueWrapper_end : certValueWrapper.end ≤ certBag.end
  certOctet : Tlv
  certOctet_at : ElementAt safeContents certValueWrapper.start tagOctetString certOctet
  certOctet_end : certOctet.end ≤ certValueWrapper.end
  content : slice safeContents certOctet.start certOctet.end = der

/-- The certificate lies in a safe bag of a `ContentInfo` of the container. -/
def Enclosed (authSafe : List UInt8) (safeSeq : Tlv) (der : List UInt8) : Prop :=
  ∃ safeContents bagsSeq, Nonempty (SafeEnclosure authSafe safeSeq safeContents bagsSeq) ∧
    Nonempty (CertEnclosure safeContents bagsSeq der)

section Inversion
variable {bytes : List UInt8} {offset depth tag : ℕ} {reason : KeystoreFailure}

lemma elementAt_of_read {tlv : Tlv} (h : readTagged bytes offset depth tag reason = .ok tlv) :
    ElementAt bytes offset tag tlv :=
  (readTagged_iff_elementAt.mp h).2

lemma ElementAt.end_le {tlv : Tlv} (h : ElementAt bytes offset tag tlv) :
    tlv.end ≤ bytes.length := by
  have hread := h.1
  unfold readTlv at hread
  split_ifs at hread
  split at hread
  · cases hread
  · split_ifs at hread with hend
    cases hread
    exact Nat.le_of_not_lt hend

/-- What is read of a `ContentInfo` that nests. -/
lemma nonempty_safeEnclosure {safeSeq bagsSeq : Tlv} {safeContents : List UInt8} {pos next : ℕ}
    (hstart : safeSeq.start ≤ pos)
    (hread : contentInfoAt bytes pos = .ok (some (safeContents, bagsSeq), next))
    (hnests : Fits bytes safeSeq.end pos tagSequence (OctetsNest bytes)) :
    Nonempty (SafeEnclosure bytes safeSeq safeContents bagsSeq) := by
  obtain ⟨contentInfo, hci, hread⟩ := bind_eq_ok.mp hread
  have hci := elementAt_of_read hci
  obtain ⟨hciEnd, hnests⟩ := hnests contentInfo hci
  split at hread
  · cases hread
  · cases hread
  rename_i octets hoctets
  obtain ⟨bagsSeq', hbagsSeq, hread⟩ := bind_eq_ok.mp hread
  cases hread
  have hbagsSeq := elementAt_of_read hbagsSeq
  obtain ⟨oid, hoid, hoctets⟩ := bind_eq_ok.mp hoctets
  have hoid := elementAt_of_read hoid
  obtain ⟨hoidEnd, hnests⟩ := hnests oid hoid
  dsimp only at hoctets
  split_ifs at hoctets with hencrypted hdata
  obtain ⟨wrapper, hwrapper, hoctets⟩ := bind_eq_ok.mp hoctets
  have hwrapper := elementAt_of_read hwrapper
  obtain ⟨hwrapperEnd, hnests⟩ := hnests (by simpa using hdata) wrapper hwrapper
  obtain ⟨octet, hoctet, hoctets⟩ := bind_eq_ok.mp hoctets
  have hoctet := elementAt_of_read hoctet
  cases hoctets
  exact ⟨{
    contentInfo, oid, wrapper, octet
    contentInfo_at := ⟨pos, hstart, hci⟩
    contentInfo_end := hciEnd
    oid_at := hoid
    oid_end := hoidEnd
    wrapper_at := hwrapper
    wrapper_end := hwrapperEnd
    octet_at := hoctet
    octet_end := (hnests octet hoctet).1
    octets := rfl
    bagsSeq_at := hbagsSeq
    bagsSeq_end := hbagsSeq.end_le }⟩

/-- What is read of a safe bag that nests and holds a certificate. -/
lemma nonempty_certEnclosure {bagsSeq : Tlv} {der : List UInt8} {bagPos next : ℕ}
    (hstart : bagsSeq.start ≤ bagPos) (hread : bagAt bytes bagPos = .ok (some der, next))
    (hnests : Fits bytes bagsSeq.end bagPos tagSequence (CertNests bytes)) :
    Nonempty (CertEnclosure bytes bagsSeq der) := by
  obtain ⟨bag, hbag, hread⟩ := bind_eq_ok.mp hread
  have hbag := elementAt_of_read hbag
  obtain ⟨hbagEnd, hnests⟩ := hnests bag hbag
  obtain ⟨certificate, hcert, hread⟩ := bind_eq_ok.mp hread
  cases hread
  obtain ⟨bagId, hbagId, hcert⟩ := bind_eq_ok.mp hcert
  have hbagId := elementAt_of_read hbagId
  obtain ⟨hbagIdEnd, hnests⟩ := hnests bagId hbagId
  obtain ⟨bagValueWrapper, hvalue, hcert⟩ := bind_eq_ok.mp hcert
  have hvalue := elementAt_of_read hvalue
  obtain ⟨hvalueEnd, hnests⟩ := hnests bagValueWrapper hvalue
  split_ifs at hcert with hcertBagId
  · cases hcert
  obtain ⟨certBag, hcertBag, hcert⟩ := bind_eq_ok.mp hcert
  have hcertBag := elementAt_of_read hcertBag
  obtain ⟨hcertBagEnd, hnests⟩ := hnests (by simpa using hcertBagId) certBag hcertBag
  obtain ⟨certId, hcertId, hcert⟩ := bind_eq_ok.mp hcert
  have hcertId := elementAt_of_read hcertId
  obtain ⟨hcertIdEnd, hnests⟩ := hnests certId hcertId
  split_ifs at hcert with hx509
  · cases hcert
  obtain ⟨certValueWrapper, hcertValue, hcert⟩ := bind_eq_ok.mp hcert
  have hcertValue := elementAt_of_read hcertValue
  obtain ⟨hcertValueEnd, hnests⟩ := hnests (by simpa using hx509) certValueWrapper hcertValue
  obtain ⟨certOctet, hoctet, hcert⟩ := bind_eq_ok.mp hcert
  have hoctet := elementAt_of_read hoctet
  cases hcert
  exact ⟨{
    bag, bagId, bagValueWrapper, certBag, certId, certValueWrapper, certOctet
    bag_at := ⟨bagPos, hstart, hbag⟩
    bag_end := hbagEnd
    bagId_at := hbagId
    bagId_end := hbagIdEnd
    bagValueWrapper_at := hvalue
    bagValueWrapper_end := hvalueEnd
    certBag_at := hcertBag
    certBag_end := hcertBagEnd
    certId_at := hcertId
    certId_end := hcertIdEnd
    certValueWrapper_at := hcertValue
    certValueWrapper_end := hcertValueEnd
    certOctet_at := hoctet
    certOctet_end := (hnests certOctet hoctet).1
    content := rfl }⟩

end Inversion

section Run
variable {authSafe : List UInt8} {safeSeq : Tlv}

/-- Where a cursor is: past the start of the contents, and in the bags of a safe contents that is
itself enclosed. -/
def CursorInside (authSafe : List UInt8) (safeSeq : Tlv) (cursor : SafeCursor) : Prop :=
  safeSeq.start ≤ cursor.pos ∧ (cursor.bagPos < cursor.bagsEnd → ∃ bagsSeq : Tlv,
    bagsSeq.end = cursor.bagsEnd ∧ bagsSeq.start ≤ cursor.bagPos ∧
      Nonempty (SafeEnclosure authSafe safeSeq cursor.safeContents bagsSeq))

/-- A step among nested elements stays inside, and reads an enclosed certificate if it reads one. -/
lemma cursorInside_of_step {cursor next : SafeCursor} {item : KeystoreItem}
    (hinside : CursorInside authSafe safeSeq cursor)
    (hnests : StepNests authSafe safeSeq.end cursor)
    (hstep : safeStep authSafe safeSeq.end cursor = some (.ok (item, next))) :
    CursorInside authSafe safeSeq next ∧ ∀ der, item = .certificate der →
      Enclosed authSafe safeSeq der := by
  obtain ⟨hpos, hbags⟩ := hinside
  rcases safeStep_cases hstep with ⟨hbag, certificate, bagPos, hread, rfl, rfl⟩ |
    ⟨hbag, hinfo, pos, hread, rfl, rfl⟩ | ⟨hbag, hinfo, safeContents, bagsSeq, pos, hread, rfl, rfl⟩
  · rw [StepNests, if_pos hbag] at hnests
    obtain ⟨bagsSeq, hend, hstart, hsafe⟩ := hbags hbag
    have hlt := lt_of_bagAt hread
    refine ⟨⟨hpos, fun _ => ⟨bagsSeq, hend, Nat.le_trans hstart (Nat.le_of_lt hlt), hsafe⟩⟩,
      fun der hder => ?_⟩
    cases certificate with
    | none => cases hder
    | some der' =>
      cases hder
      rw [← hend] at hnests
      exact ⟨_, bagsSeq, hsafe, nonempty_certEnclosure hstart hread hnests⟩
  · have hlt := lt_of_contentInfoAt hread
    exact ⟨⟨Nat.le_trans hpos (Nat.le_of_lt hlt), fun h => absurd h (Nat.lt_irrefl 0)⟩, nofun⟩
  · rw [StepNests, if_neg hbag, if_pos hinfo] at hnests
    have hlt := lt_of_contentInfoAt hread
    exact ⟨⟨Nat.le_trans hpos (Nat.le_of_lt hlt), fun _ => ⟨bagsSeq, rfl, Nat.le_refl _,
      nonempty_safeEnclosure hpos hread hnests⟩⟩, nofun⟩

/-- So is every certificate of a walk among nested elements. -/
theorem enclosed_of_walk {items : List KeystoreItem} {last : SafeCursor}
    (hwalk : CertWalk (safeStep authSafe safeSeq.end) 0 ⟨safeSeq.start, [], 0, 0⟩ items last)
    (hnests : Visits (safeStep authSafe safeSeq.end) KeystoreItem.weight maxKeystoreCertificates 0
      ⟨safeSeq.start, [], 0, 0⟩ (StepNests authSafe safeSeq.end)) :
    ∀ der ∈ certificatesOf items, Enclosed authSafe safeSeq der := by
  have hinside : CursorInside authSafe safeSeq ⟨safeSeq.start, [], 0, 0⟩ :=
    ⟨Nat.le_refl _, fun h => absurd h (Nat.lt_irrefl 0)⟩
  have hall := hwalk.forall_mem
    (fun _ _ _ hinside hgood hstep => cursorInside_of_step hinside hgood hstep) hnests hinside
  intro der hm
  exact hall _ (mem_certificatesOf.mp hm) der rfl

variable {bytes : List UInt8}

/-- A PKCS#12 container that gave certificates was opened and walked. -/
lemma exists_walk_of_pkcs12 (hformat : (readKeystore bytes).format = some .pkcs12)
    (hcertificates : (readKeystore bytes).certificates ≠ []) :
    ∃ authSafe safeSeq, openPkcs12 bytes = .ok (authSafe, safeSeq) ∧ ∃ items last,
      CertWalk (safeStep authSafe safeSeq.end) 0 ⟨safeSeq.start, [], 0, 0⟩ items last ∧
        (readKeystore bytes).certificates = certificatesOf items := by
  unfold readKeystore at hformat hcertificates ⊢
  cases hmagic : readUint32 bytes 0 with
  | error reason =>
    rw [hmagic] at hcertificates
    exact absurd rfl hcertificates
  | ok magic =>
    rw [hmagic] at hformat hcertificates
    dsimp only at hformat hcertificates ⊢
    split_ifs at hformat hcertificates ⊢ with hjks hjceks hsequence
    · cases hparse : parseJks bytes with
      | error reason =>
        rw [hparse] at hcertificates
        exact absurd rfl hcertificates
      | ok read =>
        rw [hparse] at hformat
        obtain ⟨header, -, hparse⟩ := bind_eq_ok.mp hparse
        obtain ⟨certificates, -, hparse⟩ := bind_eq_ok.mp hparse
        cases hparse
        cases hformat
    · exact absurd rfl hcertificates
    · cases hopen : openPkcs12 bytes with
      | error reason =>
        have hparse : parsePkcs12 bytes = .error reason := bind_eq_error.mpr (Or.inl hopen)
        rw [hparse] at hcertificates
        exact absurd rfl hcertificates
      | ok safe =>
        obtain ⟨authSafe, safeSeq⟩ := safe
        have hwalk := safeLoop_walk authSafe safeSeq.end safeSeq.start [] false
          ⟨safeSeq.start, [], 0, 0⟩ rfl (Or.inl (Nat.le_refl _))
        rw [parsePkcs12_eq hopen] at hcertificates ⊢
        cases hloop : safeLoop authSafe safeSeq.end safeSeq.start [] false with
        | error reason =>
          rw [hloop] at hcertificates
          exact absurd rfl hcertificates
        | ok result =>
          obtain ⟨found, sawEncrypted⟩ := result
          rw [hloop] at hcertificates hwalk
          obtain ⟨items, last, hitems, hfound, -⟩ := hwalk
          refine ⟨authSafe, safeSeq, rfl, items, last, hitems, ?_⟩
          dsimp only at hcertificates ⊢
          by_cases hempty : (found.isEmpty && sawEncrypted) = true
          · rw [if_pos hempty] at hcertificates
            exact absurd rfl hcertificates
          · rw [if_neg hempty]
            exact hfound
    · exact absurd rfl hcertificates

end Run

section Enclosing
variable {bytes : List UInt8}

/-- Every certificate that was read lies in a bag of a `ContentInfo` of the container, and nothing
was read past the end of the element around it. -/
def ReadEnclosed (bytes : List UInt8) : Prop :=
  (∀ der ∈ (readKeystore bytes).certificates, ∃ authSafe safeSeq,
    openPkcs12 bytes = .ok (authSafe, safeSeq) ∧ Enclosed authSafe safeSeq der) ∧ ReadsNest bytes

/-- What is read lies in the bags of the container, each element inside the one around it, exactly
when each element can be read from the bytes of the one around it. -/
theorem readEnclosed_iff (hformat : (readKeystore bytes).format = some .pkcs12)
    (hcertificates : (readKeystore bytes).certificates ≠ []) :
    ReadEnclosed bytes ↔ ReadsWithin bytes := by
  obtain ⟨authSafe, safeSeq, hopen, items, last, hwalk, hitems⟩ :=
    exists_walk_of_pkcs12 hformat hcertificates
  have hrestricts := restricts_stepWithin authSafe safeSeq.end
  constructor
  · rintro ⟨-, hopenNests, hnests⟩
    exact ⟨authSafe, safeSeq, openWithin_eq_ok.mpr ⟨hopen, hopenNests⟩, items, last,
      hrestricts.walk_iff.mpr ⟨hwalk, hnests authSafe safeSeq hopen⟩⟩
  · rintro ⟨authSafe', safeSeq', hwithin, items', last', hwalk'⟩
    obtain ⟨hopen', hopenNests⟩ := openWithin_eq_ok.mp hwithin
    rw [hopen, Except.ok.injEq, Prod.mk.injEq] at hopen'
    obtain ⟨rfl, rfl⟩ := hopen'
    obtain ⟨-, hvisits⟩ := hrestricts.walk_iff.mp hwalk'
    refine ⟨fun der hm => ⟨authSafe, safeSeq, hopen, ?_⟩, hopenNests, ?_⟩
    · rw [hitems] at hm
      exact enclosed_of_walk hwalk hvisits der hm
    · intro authSafe' safeSeq' hopen'
      rw [hopen, Except.ok.injEq, Prod.mk.injEq] at hopen'
      obtain ⟨rfl, rfl⟩ := hopen'
      exact hvisits

/-- A bag of one certificate whose length runs on over the bag after it, which is a key's. -/
def overrunBags : List UInt8 :=
  (certSafeBag [0x30, 0x00]).take 34 ++ [0x14, 0x30, 0x00] ++
    tlv tagSequence (tlv tagObjectIdentifier
      [0x2a, 0x86, 0x48, 0x86, 0xf7, 0x0d, 0x01, 0x0c, 0x0a, 0x01, 0x01] ++ tlv tagContext0 [0xee])

def overrunSafe : List UInt8 := tlv tagSequence (contentInfoData (tlv tagSequence overrunBags))

def overrunStore : List UInt8 := buildPkcs12 (contentInfoData (tlv tagSequence overrunBags))

lemma openPkcs12_overrunStore : openPkcs12 overrunStore = .ok (overrunSafe, ⟨48, 2, 76⟩) := rfl

lemma readKeystore_overrunStore : readKeystore overrunStore = {
    format := some .pkcs12
    certificates := [overrunBags.drop 35]
    isPartial := false
    failure := none } := by
  have hbags : bagsLoop (tlv tagSequence overrunBags) 57 2 [] = .ok [overrunBags.drop 35] := by
    rw [@bagsLoop_next _ _ _ 39 _ (some (overrunBags.drop 35)) (by decide) (by decide) rfl,
      @bagsLoop_next _ _ _ 57 _ none (by decide) (by decide) rfl, bagsLoop_end]
    rfl
  have hloop : safeLoop overrunSafe 76 2 [] false = .ok ([overrunBags.drop 35], false) := by
    rw [@safeLoop_data (tlv tagSequence overrunBags) _ _ _ 76 _ _ ⟨48, 2, 57⟩ _ (by decide)
      (by decide) rfl hbags, safeLoop_end]
  rw [readKeystore_of_sequence (by decide) rfl, parsePkcs12_eq openPkcs12_overrunStore, hloop]
  rfl

theorem readEnclosed_iff_overrunStore : ReadEnclosed overrunStore ↔ ReadsWithin overrunStore :=
  readEnclosed_iff (by rw [readKeystore_overrunStore])
    (by rw [readKeystore_overrunStore]; exact List.cons_ne_nil _ _)

/-- What is read of it is not enclosed. -/
theorem overrun_read : ¬∀ bytes, (readKeystore bytes).format = some .pkcs12 →
    (readKeystore bytes).certificates ≠ [] → ReadEnclosed bytes := by
  intro h
  obtain ⟨-, -, hnests⟩ := h overrunStore (by rw [readKeystore_overrunStore])
    (by rw [readKeystore_overrunStore]; exact List.cons_ne_nil _ _)
  have hstep : StepNests overrunSafe 76 ⟨76, tlv tagSequence overrunBags, 57, 2⟩ :=
    hnests overrunSafe _ openPkcs12_overrunStore [.other] _ (.cons rfl (.nil _)) (by decide) nofun
  obtain ⟨-, hcert⟩ := hstep ⟨48, 4, 39⟩ ⟨rfl, rfl⟩
  obtain ⟨-, hcert⟩ := hcert ⟨6, 6, 17⟩ ⟨rfl, rfl⟩
  obtain ⟨-, hcert⟩ := hcert ⟨160, 19, 39⟩ ⟨rfl, rfl⟩
  obtain ⟨-, hcert⟩ := hcert rfl ⟨48, 21, 39⟩ ⟨rfl, rfl⟩
  obtain ⟨-, hcert⟩ := hcert ⟨6, 23, 33⟩ ⟨rfl, rfl⟩
  obtain ⟨-, hcert⟩ := hcert rfl ⟨160, 35, 39⟩ ⟨rfl, rfl⟩
  obtain ⟨hend, -⟩ := hcert ⟨4, 37, 57⟩ ⟨rfl, rfl⟩
  exact absurd hend (by decide)

end Enclosing
end Enclosure
end Portcall.Net
