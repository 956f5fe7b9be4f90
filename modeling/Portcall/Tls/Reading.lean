import Mathlib.Data.List.Induction
import Portcall.Tls.Evaluate
import Portcall.Tls.IssuancePath

/-! The root verdict as a reading of the certificates on the issuance path: what `classifyRoot`
computes by index depends on nothing else in the chain. -/
namespace Portcall.Tls
variable (ext : Externals) (roots : CertificateIndex)

/-- What the path's certificates say about the root they lead to. -/
def readPath : List X509Certificate → Option (RootClass × RootReason)
  | certificates =>
    if certificates.any (fun certificate => roots.hasCertificate certificate.rawData) then
      some (.public, .bundledRootOnPath)
    else certificates.getLast?.map fun terminus =>
      if subjectDn ext terminus = issuerDn ext terminus then
        (.private, .selfSignedAnchorNotBundled)
      else if !roots.hasSubject (issuerDn ext terminus) then
        (.private, .issuerMatchesNoBundledRoot)
      else (.indeterminate, .anchorNotPresented)

/-- The anchor the last certificate of a path becomes, under a class and a reason. -/
def readAnchor (host : String) (via : Via) (certificates : List X509Certificate) :
    RootClass × RootReason → Option ObservedAnchor
  | (.public, _) => none
  | (.private, reason) => certificates.getLast?.map (anchorFrom .private reason)
  | (.indeterminate, reason) => certificates.getLast?.map (anchorFrom .indeterminate reason)
where
  anchorFrom (anchorClass : AnchorClass) (reason : RootReason) (terminus : X509Certificate) :
      ObservedAnchor :=
    { der := if reason = .selfSignedAnchorNotBundled then some terminus.rawData else none
      canonicalIssuer := issuerDn ext terminus
      canonicalSubject := subjectDn ext terminus
      host, via, anchorClass }

/-- Some certificate on the path is, byte for byte, in the bundle. -/
def BundledOnPath (chain : List X509Certificate) : Prop :=
  ∃ certificate ∈ pathCertificates ext chain, roots.hasCertificate certificate.rawData = true

variable {ext roots} {chain : List X509Certificate}

lemma getLast?_filterMap_of_isSome {α β : Type*} {f : α → Option β} {l : List α}
    (h : ∀ a ∈ l, (f a).isSome) : (l.filterMap f).getLast? = l.getLast?.bind f := by
  induction l using List.reverseRecOn with
  | nil => rfl
  | append_singleton l a _ =>
    obtain ⟨b, hb⟩ := Option.isSome_iff_exists.mp (h a (by simp))
    simp [List.filterMap_append, hb]

lemma isSome_of_mem_issuancePath {i : ℕ} (h : i ∈ issuancePath ext chain) :
    (chain[i]?).isSome := by
  rw [List.getElem?_eq_getElem (lt_of_mem_issuancePath h)]
  rfl

lemma mem_pathCertificates {certificate : X509Certificate} :
    certificate ∈ pathCertificates ext chain ↔
      ∃ i ∈ issuancePath ext chain, chain[i]? = some certificate := by
  simp [pathCertificates]

/-- The terminus: the last index on the path and the last certificate on it agree. -/
theorem getLast?_pathCertificates :
    (issuancePath ext chain).getLast?.bind (chain[·]?) = (pathCertificates ext chain).getLast? :=
  (getLast?_filterMap_of_isSome fun _ h => isSome_of_mem_issuancePath h).symm

lemma pathCertificates_ne_nil (hne : chain ≠ []) : pathCertificates ext chain ≠ [] := by
  obtain ⟨c, rest, rfl⟩ := List.exists_cons_of_ne_nil hne
  have h0 : 0 ∈ issuancePath ext (c :: rest) := List.mem_of_mem_head? (head?_issuancePath hne)
  exact List.ne_nil_of_mem (mem_pathCertificates.mpr ⟨0, h0, rfl⟩)

lemma matchedIndex_eq_some {i : ℕ}
    (h : matchedIndex chain roots (issuancePath ext chain) = some i) :
    i ∈ issuancePath ext chain ∧
      ∃ certificate, chain[i]? = some certificate ∧
        roots.hasCertificate certificate.rawData = true := by
  have hp := List.find?_some h
  rw [Bool.and_eq_true, List.contains_eq_mem, decide_eq_true_eq] at hp
  refine ⟨hp.1, ?_⟩
  cases hc : chain[i]? with
  | none => simp [hc] at hp
  | some certificate => exact ⟨certificate, rfl, by simpa [hc] using hp.2⟩

/-- A bundled index is found exactly when the path carries a bundled certificate. -/
theorem matchedIndex_isSome_iff :
    (matchedIndex chain roots (issuancePath ext chain)).isSome ↔
      BundledOnPath ext roots chain := by
  constructor
  · intro h
    obtain ⟨i, hi⟩ := Option.isSome_iff_exists.mp h
    obtain ⟨hm, certificate, hc, hb⟩ := matchedIndex_eq_some hi
    exact ⟨certificate, mem_pathCertificates.mpr ⟨i, hm, hc⟩, hb⟩
  · rintro ⟨certificate, hm, hb⟩
    obtain ⟨i, hi, hc⟩ := mem_pathCertificates.mp hm
    rw [matchedIndex, List.find?_isSome]
    exact ⟨i, List.mem_range.mpr (lt_of_mem_issuancePath hi), by simp [hi, hc, hb]⟩

/-- The class and the reason are read off the certificates on the path. -/
theorem classifyRoot_reading :
    (classifyRoot ext chain roots).map (fun verdict => (verdict.rootClass, verdict.reason)) =
      readPath ext roots (pathCertificates ext chain) := by
  have hmatch := @matchedIndex_isSome_iff ext roots chain
  rw [classifyRoot, readPath]
  cases hm : matchedIndex chain roots (issuancePath ext chain) with
  | some index =>
    rw [hm] at hmatch
    have hb : BundledOnPath ext roots chain := hmatch.mp rfl
    rw [if_pos (by simpa [BundledOnPath] using hb)]
    rfl
  | none =>
    rw [hm] at hmatch
    have hb : ¬BundledOnPath ext roots chain := fun h => by simpa using hmatch.mpr h
    rw [if_neg (by simpa [BundledOnPath] using hb)]
    simp only [getLast?_pathCertificates]
    cases (pathCertificates ext chain).getLast? with
    | none => rfl
    | some terminus =>
      simp only [Option.map_some]
      split_ifs <;> rfl

lemma path_of_classifyRoot {verdict : RootVerdict}
    (h : classifyRoot ext chain roots = some verdict) : verdict.path = issuancePath ext chain := by
  rw [classifyRoot] at h
  cases hm : matchedIndex chain roots (issuancePath ext chain) with
  | some index =>
    simp only [hm, Option.some.injEq] at h
    exact h ▸ rfl
  | none =>
    simp only [hm] at h
    cases hl : (issuancePath ext chain).getLast?.bind (chain[·]?) with
    | none => simp [hl] at h
    | some terminus =>
      simp only [hl] at h
      split_ifs at h <;> · cases h; rfl

/-- So is the anchor. -/
theorem observedAnchor_reading {verdict : RootVerdict} (target : ChainTarget)
    (capture : CapturedChain) (h : classifyRoot ext chain roots = some verdict) :
    observedAnchor target capture chain ext verdict =
      readAnchor ext target.host capture.via (pathCertificates ext chain)
        (verdict.rootClass, verdict.reason) := by
  have hlast := @getLast?_pathCertificates ext chain
  rw [← path_of_classifyRoot h] at hlast
  rw [observedAnchor]
  cases verdict.rootClass with
  | «public» => rfl
  | «private» => simp only [observedAnchor.anchored, hlast]; rfl
  | indeterminate => simp only [observedAnchor.anchored, hlast]; rfl

/-- A non-empty chain is always classified. -/
theorem classifyRoot_isSome (hne : chain ≠ []) : (classifyRoot ext chain roots).isSome := by
  have h := @classifyRoot_reading ext roots chain
  rw [← Option.isSome_map (f := fun verdict : RootVerdict => (verdict.rootClass, verdict.reason)), h]
  rw [readPath]
  split_ifs
  · rfl
  · simpa using pathCertificates_ne_nil hne

lemma readPath_eq_public_iff {certificates : List X509Certificate} {reason : RootReason} :
    readPath ext roots certificates = some (.public, reason) ↔
      reason = .bundledRootOnPath ∧
        ∃ certificate ∈ certificates, roots.hasCertificate certificate.rawData = true := by
  rw [readPath]
  split_ifs with h
  · have hb : ∃ certificate ∈ certificates, roots.hasCertificate certificate.rawData = true := by
      simpa using h
    rw [Option.some.injEq, Prod.mk.injEq, and_iff_left hb]
    exact ⟨fun hr => hr.2.symm, fun hr => ⟨rfl, hr.symm⟩⟩
  · simp only [List.any_eq_true, not_exists, not_and] at h
    constructor
    · intro hr
      obtain ⟨terminus, -, ht⟩ := Option.map_eq_some_iff.mp hr
      split_ifs at ht <;> simp at ht
    · rintro ⟨-, certificate, hm, hb⟩
      exact absurd hb (h certificate hm)

/-- `public` says that some certificate on the path is in the bundle, and nothing else does. -/
theorem rootClass_eq_public_iff {verdict : RootVerdict}
    (h : classifyRoot ext chain roots = some verdict) :
    verdict.rootClass = .public ↔ BundledOnPath ext roots chain := by
  have hr := @classifyRoot_reading ext roots chain
  rw [h, Option.map_some] at hr
  rw [BundledOnPath]
  constructor
  · intro hp
    rw [hp] at hr
    exact (readPath_eq_public_iff.mp hr.symm).2
  · intro hb
    have hp := (@readPath_eq_public_iff ext _ _ _).mpr ⟨rfl, hb⟩
    rw [← hr, Option.some.injEq, Prod.mk.injEq] at hp
    exact hp.1

end Portcall.Tls
