import Portcall.Tls.Padding

/-! The path decides the verdict: what the walk is, when it says `public`, and that nothing off
the path has a say. -/
namespace Portcall.Tls
variable (ext : Externals)

/-- What the walk of a chain is. -/
structure IssuancePathSpec (chain : List X509Certificate) (path : List ℕ) : Prop where
  /-- It starts at the leaf. -/
  head : path.head? = some 0
  nodup : path.Nodup
  /-- Consecutive certificates are linked. -/
  linked : path.IsChain fun i j => ∃ a b, chain[i]? = some a ∧ chain[j]? = some b ∧
    issuerDn ext a = subjectDn ext b
  /-- It stops at a self-signed certificate, or where the wanted subject is used up. -/
  stop : ∃ last terminus, path.getLast? = some last ∧ chain[last]? = some terminus ∧
    (subjectDn ext terminus = issuerDn ext terminus ∨
      ∀ j certificate, chain[j]? = some certificate →
        subjectDn ext certificate = issuerDn ext terminus → j ∈ path)

/-- Two chains are read alike: class, reason, path certificates and observed anchor. -/
structure SameReading (roots : CertificateIndex) (left right : List X509Certificate) : Prop where
  verdict : (classifyRoot ext left roots).map (fun verdict => (verdict.rootClass, verdict.reason)) =
    (classifyRoot ext right roots).map (fun verdict => (verdict.rootClass, verdict.reason))
  certificates : pathCertificates ext left = pathCertificates ext right
  anchor : ∀ target capture,
    (classifyRoot ext left roots).map (observedAnchor target capture left ext) =
      (classifyRoot ext right roots).map (observedAnchor target capture right ext)

variable {ext} {roots : CertificateIndex} {chain : List X509Certificate}

theorem issuancePathSpec (hne : chain ≠ []) :
    IssuancePathSpec ext chain (issuancePath ext chain) := by
  refine ⟨head?_issuancePath hne, issuancePath_nodup, ?_, ?_⟩
  · apply isChain_issuancePath.imp
    rintro i j ⟨a, b, ha, hb, -, he⟩
    exact ⟨a, b, ha, hb, he.symm⟩
  · obtain ⟨last, hlast, hended⟩ := @issuancePath_ended ext _ hne
    obtain ⟨terminus, ht⟩ := Option.isSome_iff_exists.mp
      (isSome_of_mem_issuancePath (List.mem_of_getLast? hlast))
    refine ⟨last, terminus, hlast, ht, or_iff_not_imp_left.mpr fun hself => ?_⟩
    exact fun j certificate hj he => hended j ⟨terminus, certificate, ht, hj, hself, he⟩

/-- Chains with the same path certificates are read alike. -/
theorem sameReading_of_pathCertificates_eq {left right : List X509Certificate}
    (h : pathCertificates ext left = pathCertificates ext right) :
    SameReading ext roots left right := by
  have hverdict : (classifyRoot ext left roots).map (fun v => (v.rootClass, v.reason)) =
      (classifyRoot ext right roots).map (fun v => (v.rootClass, v.reason)) := by
    rw [classifyRoot_reading, classifyRoot_reading, h]
  refine ⟨hverdict, h, fun target capture => ?_⟩
  cases hl : classifyRoot ext left roots with
  | none =>
    cases hr : classifyRoot ext right roots with
    | none => rfl
    | some right => simp [hl, hr] at hverdict
  | some l =>
    cases hr : classifyRoot ext right roots with
    | none => simp [hl, hr] at hverdict
    | some r =>
      rw [hl, hr, Option.map_some, Option.map_some, Option.some.injEq] at hverdict
      rw [Option.map_some, Option.map_some, observedAnchor_reading target capture hl,
        observedAnchor_reading target capture hr, h, hverdict]

/-- The walk is what it should be, its certificates decide the class, and deleting
certificates off it or appending ones it does not name changes nothing that is read off it. -/
theorem path_decides_verdict {pems : List String} (hroots : certificateIndex ext pems = some roots)
    (hne : chain ≠ []) :
    IssuancePathSpec ext chain (issuancePath ext chain) ∧
    (∃ verdict, classifyRoot ext chain roots = some verdict ∧
      verdict.path = issuancePath ext chain ∧
      (verdict.rootClass = .public ↔ ∃ i ∈ verdict.path, ∃ certificate,
        chain[i]? = some certificate ∧ HoldsDer ext pems certificate.rawData)) ∧
    (∀ drop : ℕ → Bool, (∀ i ∈ issuancePath ext chain, drop i = false) →
      SameReading ext roots (withoutIndices drop chain) chain) ∧
    (∀ extra, (∀ certificate ∈ pathCertificates ext chain, ∀ added ∈ extra,
        subjectDn ext added ≠ issuerDn ext certificate) →
      SameReading ext roots (chain ++ extra) chain) := by
  refine ⟨issuancePathSpec hne, ?_, fun drop hdrop => ?_, fun extra hextra => ?_⟩
  · obtain ⟨verdict, hv⟩ := Option.isSome_iff_exists.mp
      (@classifyRoot_isSome ext roots _ hne)
    refine ⟨verdict, hv, path_of_classifyRoot hv, ?_⟩
    rw [rootClass_eq_public_iff hv, BundledOnPath, path_of_classifyRoot hv]
    constructor
    · rintro ⟨certificate, hm, hb⟩
      obtain ⟨i, hi, hc⟩ := mem_pathCertificates.mp hm
      exact ⟨i, hi, certificate, hc, (hasCertificate_iff hroots _).mp hb⟩
    · rintro ⟨i, hi, certificate, hc, hb⟩
      exact ⟨certificate, mem_pathCertificates.mpr ⟨i, hi, hc⟩, (hasCertificate_iff hroots _).mpr hb⟩
  · exact sameReading_of_pathCertificates_eq (pathCertificates_withoutIndices hne hdrop)
  · exact sameReading_of_pathCertificates_eq (pathCertificates_append hne hextra)

def exampleLeaf : X509Certificate :=
  namedCertificate "api.example.com" "Acme Corp Issuing CA" [1]

def exampleIntermediate : X509Certificate :=
  namedCertificate "Acme Corp Issuing CA" "Portcall Synthetic Cert Dir Root One" [2]

/-- A certificate no path of these leads to. -/
def examplePadding : X509Certificate :=
  namedCertificate "Acme Corp Retired CA" "Acme Corp Retired Root" [9]

/-- A leaf, padding, the leaf's intermediate and the bundled root: the path is the other three. -/
def paddedChain : List X509Certificate :=
  [exampleLeaf, examplePadding, exampleIntermediate, fixtureRoot]

/-- The law at a chain with padding. -/
theorem path_decides_verdict_padded :
    issuancePath fixtureExternals paddedChain = [0, 2, 3] ∧
    IssuancePathSpec fixtureExternals paddedChain (issuancePath fixtureExternals paddedChain) ∧
    (∃ verdict, classifyRoot fixtureExternals paddedChain fixtureIndex = some verdict ∧
      verdict.path = issuancePath fixtureExternals paddedChain ∧
      (verdict.rootClass = .public ↔ ∃ i ∈ verdict.path, ∃ certificate,
        paddedChain[i]? = some certificate ∧
          HoldsDer fixtureExternals [fixturePem] certificate.rawData)) ∧
    (∀ drop : ℕ → Bool, (∀ i ∈ issuancePath fixtureExternals paddedChain, drop i = false) →
      SameReading fixtureExternals fixtureIndex (withoutIndices drop paddedChain) paddedChain) ∧
    (∀ extra, (∀ certificate ∈ pathCertificates fixtureExternals paddedChain, ∀ added ∈ extra,
        subjectDn fixtureExternals added ≠ issuerDn fixtureExternals certificate) →
      SameReading fixtureExternals fixtureIndex (paddedChain ++ extra) paddedChain) :=
  ⟨by decide +kernel, path_decides_verdict certificateIndex_fixture (List.cons_ne_nil _ _)⟩

end Portcall.Tls
