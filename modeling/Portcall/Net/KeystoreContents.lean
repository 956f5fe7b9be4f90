import Portcall.Net.KeystoreWalk

/-! A keystore as the stream of entries that its format makes of it, and the read of it as a walk
over that stream. -/
namespace Portcall.Net
open Cursor

/-- The entries of a keystore that opens. -/
structure EntryStream where
  Position : Type
  step : Position → Option (Except KeystoreFailure (KeystoreItem × Position))
  start : Position

/-- The format is decided by the first bytes. -/
def keystoreStream (bytes : List UInt8) : Option EntryStream :=
  match readUint32 bytes 0 with
  | .error _ => none
  | .ok magic =>
    if magic = jksMagic then
      match jksHeader bytes with
      | .error _ => none
      | .ok (count, offset) => some ⟨ℕ × ℕ, jksStep bytes, (offset, count)⟩
    else if magic = jceksMagic then none
    else if byteAt bytes 0 = tagSequence then
      match openPkcs12 bytes with
      | .error _ => none
      | .ok (authSafe, safeSeq) =>
        some ⟨SafeCursor, safeStep authSafe safeSeq.end, ⟨safeSeq.start, [], 0, 0⟩⟩
    else none

section Read
variable {bytes : List UInt8}

/-- What a parse comes to, against the stream of entries it opened. -/
structure ReadOf (stream : EntryStream) (read : KeystoreRead) : Prop where
  walk : read.failure = none → ∃ items last, CertWalk stream.step 0 stream.start items last ∧
    read.certificates = certificatesOf items ∧ (read.isPartial = true ↔ .encrypted ∈ items)
  failed : read.failure ≠ none → ∀ items last, CertWalk stream.step 0 stream.start items last →
    certificatesOf items = []

lemma parseJks_eq {count offset : ℕ} (hheader : jksHeader bytes = .ok (count, offset)) :
    parseJks bytes = match jksEntries bytes count offset [] with
      | .error reason => .error reason
      | .ok certificates => .ok {
        format := some .jks
        certificates
        isPartial := false
        failure := if certificates.isEmpty then some .noCertificates else none } := by
  unfold parseJks
  rw [hheader]
  cases hentries : jksEntries bytes count offset [] with
  | error reason =>
    change (jksEntries bytes count offset [] >>= _) = _
    rw [hentries]
    rfl
  | ok certificates =>
    change (jksEntries bytes count offset [] >>= _) = _
    rw [hentries]
    rfl

lemma parsePkcs12_eq {authSafe : List UInt8} {safeSeq : Tlv}
    (hopen : openPkcs12 bytes = .ok (authSafe, safeSeq)) :
    parsePkcs12 bytes = match safeLoop authSafe safeSeq.end safeSeq.start [] false with
      | .error reason => .error reason
      | .ok (certificates, sawEncrypted) =>
        if certificates.isEmpty && sawEncrypted then .error .encrypted
        else .ok {
          format := some .pkcs12
          certificates
          isPartial := sawEncrypted && !certificates.isEmpty
          failure := if certificates.isEmpty then some .noCertificates else none } := by
  unfold parsePkcs12
  rw [hopen]
  cases hloop : safeLoop authSafe safeSeq.end safeSeq.start [] false with
  | error reason =>
    change (safeLoop authSafe safeSeq.end safeSeq.start [] false >>= _) = _
    rw [hloop]
    rfl
  | ok result =>
    change (safeLoop authSafe safeSeq.end safeSeq.start [] false >>= _) = _
    rw [hloop]
    rfl

/-- A parse of a JKS container is the walk over its entries. -/
lemma readOf_parseJks {count offset : ℕ} (hheader : jksHeader bytes = .ok (count, offset)) :
    ReadOf ⟨ℕ × ℕ, jksStep bytes, (offset, count)⟩ (tryParse .jks (parseJks bytes)) := by
  have hwalk := jksEntries_walk bytes count offset []
  rw [parseJks_eq hheader]
  cases hentries : jksEntries bytes count offset [] with
  | error reason =>
    rw [hentries] at hwalk
    exact ⟨nofun, fun _ items last h => absurd h (hwalk items last)⟩
  | ok found =>
    rw [hentries] at hwalk
    obtain ⟨items, last, hitems, hfound, hplain⟩ := hwalk
    rw [List.nil_append] at hfound
    refine ⟨fun _ => ⟨items, last, hitems, hfound, iff_of_false nofun hplain⟩,
      fun hfailed items' last' hitems' => ?_⟩
    rw [← hitems.unique hitems', ← hfound]
    by_contra hne
    exact hfailed (if_neg (by rwa [List.isEmpty_iff]))

/-- So is a parse of a PKCS#12 container. -/
lemma readOf_parsePkcs12 {authSafe : List UInt8} {safeSeq : Tlv}
    (hopen : openPkcs12 bytes = .ok (authSafe, safeSeq)) :
    ReadOf ⟨SafeCursor, safeStep authSafe safeSeq.end, ⟨safeSeq.start, [], 0, 0⟩⟩
      (tryParse .pkcs12 (parsePkcs12 bytes)) := by
  have hwalk := safeLoop_walk authSafe safeSeq.end safeSeq.start [] false
    ⟨safeSeq.start, [], 0, 0⟩ rfl (Or.inl (Nat.le_refl _))
  rw [parsePkcs12_eq hopen]
  cases hloop : safeLoop authSafe safeSeq.end safeSeq.start [] false with
  | error reason =>
    rw [hloop] at hwalk
    exact ⟨nofun, fun _ items last h => absurd h (hwalk items last)⟩
  | ok result =>
    obtain ⟨found, sawEncrypted⟩ := result
    rw [hloop] at hwalk
    obtain ⟨items, last, hitems, hfound, hsaw⟩ := hwalk
    rw [List.nil_append] at hfound
    dsimp only
    by_cases hempty : found = []
    · refine ⟨fun hnone => ?_, fun _ items' last' hitems' => ?_⟩
      · subst hempty
        cases sawEncrypted <;> cases hnone
      · rw [← hitems.unique hitems', ← hfound, hempty]
    · have hisEmpty : found.isEmpty = false := by rwa [List.isEmpty_eq_false_iff]
      simp only [hisEmpty, Bool.false_and, Bool.false_eq_true, if_false, Bool.not_false,
        Bool.and_true]
      exact ⟨fun _ => ⟨items, last, hitems, hfound, (by simpa using hsaw : sawEncrypted = true ↔ _)⟩,
        fun hfailed => absurd rfl hfailed⟩

/-- A read of a keystore is the walk over its entries, if it opens at all. -/
theorem readKeystore_of_stream :
    match keystoreStream bytes with
    | none => (readKeystore bytes).failure ≠ none
    | some stream => ReadOf stream (readKeystore bytes) := by
  unfold keystoreStream readKeystore
  cases hmagic : readUint32 bytes 0 with
  | error reason => nofun
  | ok magic =>
    dsimp only
    split_ifs with hjks hjceks hsequence
    · cases hheader : jksHeader bytes with
      | error reason =>
        have hparse : parseJks bytes = .error reason := by
          unfold parseJks
          rw [hheader]
          rfl
        rw [hparse]
        nofun
      | ok header => exact readOf_parseJks hheader
    · nofun
    · cases hopen : openPkcs12 bytes with
      | error reason =>
        have hparse : parsePkcs12 bytes = .error reason := by
          unfold parsePkcs12
          rw [hopen]
          rfl
        rw [hparse]
        nofun
      | ok safe => exact readOf_parsePkcs12 hopen
    · nofun

end Read

end Portcall.Net
