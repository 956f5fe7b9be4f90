import Portcall.Library.InsertionMap
import Portcall.Shared.RootIndex
import Portcall.Truststore.Stores

/-! Anchors: the certificates of a store, parsed once and deduplicated by their bytes, and how
much of the platform's trust store they stand for. -/
namespace Portcall.Truststore
variable (ext : Externals)

structure Anchor where
  der : List UInt8
  subject : String
  canonicalSubject : String
  deriving DecidableEq, Repr

def anchorOf (certificate : X509Certificate) : Anchor where
  der := certificate.rawData
  subject := certificate.subject
  canonicalSubject := canonicalDn ext certificate.subjectName

/-- Anchors by the key of their bytes; the first one under a key stays. -/
def byDerKey (anchors : List Anchor) : InsertionMap String Anchor :=
  InsertionMap.group (fun anchor : Anchor => derKey anchor.der) id (fun old _ => old) anchors

/-- One store's anchors, and how many of its blocks never became one. -/
structure StoreAnchors where
  anchors : InsertionMap String Anchor
  unparsed : ℕ

def anchorsOf (pems : List String) : StoreAnchors where
  anchors := byDerKey (pems.filterMap fun pem => (ext.x509 pem).map (anchorOf ext))
  unparsed := (pems.filter fun pem => (ext.x509 pem).isNone).length

/-- Sort order of everything the report prints. -/
def byCanonicalSubject (left right : Anchor) : Bool :=
  Text.le left.canonicalSubject right.canonicalSubject

inductive OsEvidenceLevel where
  | complete
  | partialRead
  | none
  deriving DecidableEq, Repr

def osEvidenceLevel (osStores : List TrustStoreOutcome) : OsEvidenceLevel :=
  let read := (osStores.filter fun store => store.failure = Option.none).length
  if read = 0 then .none
  else if read = osStores.length then .complete
  else .partialRead

structure OsCoverage where
  level : OsEvidenceLevel
  read : ℕ
  unread : ℕ
  unparsed : ℕ
  deriving DecidableEq, Repr

/-- The stores that were read. -/
def readStores (osStores : List TrustStoreOutcome) : List TrustStoreOutcome :=
  osStores.filter fun store => store.failure = none

def osCoverage (osStores : List TrustStoreOutcome) : OsCoverage :=
  let read := (readStores osStores).length
  { level := osEvidenceLevel osStores
    read
    unread := osStores.length - read
    unparsed := ((readStores osStores).map fun store => (anchorsOf ext store.pems).unparsed).sum }

/-- Every anchor of a store that was read, each once. -/
def allAnchors (osStores : List TrustStoreOutcome) : InsertionMap String Anchor :=
  byDerKey ((readStores osStores).flatMap fun store => (anchorsOf ext store.pems).anchors.values)

/-- The anchors this machine trusts and the public list does not hold, in report order. -/
def locallyAdded (osStores : List TrustStoreOutcome) (publicIndex : CertificateIndex) :
    List Anchor :=
  ((allAnchors ext osStores).values.filter fun anchor =>
    !publicIndex.hasCertificate anchor.der).insertionSort
      (fun left right => byCanonicalSubject left right = true)

section ByDerKey

/-- What a key holds is an anchor with those bytes, and the first such. -/
lemma get?_byDerKey_eq_some {anchors : List Anchor} {key : String} {anchor : Anchor}
    (h : (byDerKey anchors).get? key = some anchor) : anchor ∈ anchors ∧ derKey anchor.der = key := by
  rw [byDerKey, InsertionMap.get?_group] at h
  split at h
  · cases h
  · rename_i first rest hf
    have hfold : ∀ (l : List Anchor) (a : Anchor), l.foldl (fun old _ => old) a = a := by
      intro l
      induction l with
      | nil => intro a; rfl
      | cons _ l ih => intro a; exact ih a
    rw [id, hfold, Option.some.injEq] at h
    have hm : first ∈ anchors.filter (fun a => derKey a.der = key) := hf ▸ List.mem_cons_self
    rw [h, List.mem_filter, decide_eq_true_eq] at hm
    exact hm

lemma mem_values_byDerKey {anchors : List Anchor} {anchor : Anchor}
    (h : anchor ∈ (byDerKey anchors).values) : anchor ∈ anchors := by
  obtain ⟨key, hk⟩ := (InsertionMap.mem_values_iff _ _).mp h
  exact (get?_byDerKey_eq_some hk).1

/-- No bytes are lost. -/
lemma exists_mem_values_byDerKey {anchors : List Anchor} {anchor : Anchor} (h : anchor ∈ anchors) :
    ∃ kept ∈ (byDerKey anchors).values, kept.der = anchor.der := by
  have hk : derKey anchor.der ∈ (byDerKey anchors).keys :=
    (InsertionMap.mem_keys_group _ _ _ _ _).mpr ⟨anchor, h, rfl⟩
  obtain ⟨kept, hg⟩ := (InsertionMap.mem_keys_iff _ _).mp hk
  exact ⟨kept, (InsertionMap.mem_values_iff _ _).mpr ⟨_, hg⟩,
    derKey_inj.mp (get?_byDerKey_eq_some hg).2⟩

/-- No bytes are held twice. -/
theorem nodup_der_values_byDerKey (anchors : List Anchor) :
    ((byDerKey anchors).values.map Anchor.der).Nodup := by
  have hkeys : (byDerKey anchors).values.map (fun anchor => derKey anchor.der) =
      (byDerKey anchors).keys := by
    rw [InsertionMap.values, InsertionMap.keys, List.map_map]
    apply List.map_congr_left
    rintro ⟨key, anchor⟩ hm
    exact (get?_byDerKey_eq_some ((InsertionMap.get?_eq_some_iff _ _ _).mpr hm)).2
  apply List.Nodup.of_map derKey
  rw [List.map_map]
  exact hkeys ▸ (byDerKey anchors).nodup

end ByDerKey

section LocallyAdded
variable {ext} {osStores : List TrustStoreOutcome} {publicIndex : CertificateIndex}

/-- The bytes are those of a block of some store that was read. -/
def OsHolds (ext : Externals) (osStores : List TrustStoreOutcome) (der : List UInt8) : Prop :=
  ∃ store ∈ osStores, store.failure = none ∧ HoldsDer ext store.pems der

lemma mem_readStores {store : TrustStoreOutcome} :
    store ∈ readStores osStores ↔ store ∈ osStores ∧ store.failure = none := by
  simp [readStores]

lemma mem_anchorsOf {pems : List String} {anchor : Anchor}
    (h : anchor ∈ (anchorsOf ext pems).anchors.values) :
    ∃ pem ∈ pems, ∃ certificate, ext.x509 pem = some certificate ∧
      anchorOf ext certificate = anchor := by
  have hm := mem_values_byDerKey h
  simpa [List.mem_filterMap] using hm

lemma mem_allAnchors {anchor : Anchor} (h : anchor ∈ (allAnchors ext osStores).values) :
    ∃ store ∈ osStores, store.failure = none ∧ ∃ pem ∈ store.pems, ∃ certificate,
      ext.x509 pem = some certificate ∧ anchorOf ext certificate = anchor := by
  obtain ⟨store, hs, ha⟩ := List.mem_flatMap.mp (mem_values_byDerKey h)
  obtain ⟨hm, hf⟩ := mem_readStores.mp hs
  exact ⟨store, hm, hf, mem_anchorsOf ha⟩

/-- The bytes of the anchors are exactly what the stores that were read hold. -/
theorem der_mem_allAnchors_iff (der : List UInt8) :
    (∃ anchor ∈ (allAnchors ext osStores).values, anchor.der = der) ↔ OsHolds ext osStores der := by
  constructor
  · rintro ⟨anchor, ha, rfl⟩
    obtain ⟨store, hm, hf, pem, hp, certificate, hc, rfl⟩ := mem_allAnchors ha
    exact ⟨store, hm, hf, pem, hp, certificate, hc, rfl⟩
  · rintro ⟨store, hm, hf, pem, hp, certificate, hc, rfl⟩
    have hparsed : anchorOf ext certificate ∈
        store.pems.filterMap fun pem => (ext.x509 pem).map (anchorOf ext) :=
      List.mem_filterMap.mpr ⟨pem, hp, by rw [hc]; rfl⟩
    obtain ⟨kept, hk, hder⟩ := exists_mem_values_byDerKey hparsed
    have hmem : kept ∈ (readStores osStores).flatMap fun store =>
        (anchorsOf ext store.pems).anchors.values :=
      List.mem_flatMap.mpr ⟨store, mem_readStores.mpr ⟨hm, hf⟩, hk⟩
    obtain ⟨final, hfin, hder'⟩ := exists_mem_values_byDerKey hmem
    exact ⟨final, hfin, hder'.trans hder⟩

lemma mem_locallyAdded {anchor : Anchor} :
    anchor ∈ locallyAdded ext osStores publicIndex ↔
      anchor ∈ (allAnchors ext osStores).values ∧
        publicIndex.hasCertificate anchor.der = false := by
  rw [locallyAdded, List.mem_insertionSort, List.mem_filter, Bool.not_eq_true']

theorem nodup_der_locallyAdded : ((locallyAdded ext osStores publicIndex).map Anchor.der).Nodup := by
  have hperm := (List.perm_insertionSort
    (fun left right => byCanonicalSubject left right = true)
    ((allAnchors ext osStores).values.filter fun anchor =>
      !publicIndex.hasCertificate anchor.der)).map Anchor.der
  rw [locallyAdded, hperm.nodup_iff]
  exact (nodup_der_values_byDerKey _).sublist (List.filter_sublist.map _)

end LocallyAdded
end Portcall.Truststore
