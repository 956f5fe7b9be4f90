import Portcall.Tls.IssuerWays

/-! Completion: what a root class becomes when the peer sends more certificates. -/
namespace Portcall.Tls
open Ways
variable (ext : Externals) (roots : CertificateIndex)

/-- An intermediate is missing from the chain, and the certificates added supply it: taking the first
certificate each time, from the leaf among the rest of the chain, one comes to no bundled root, and
at a certificate whose issuer's name no bundled root bears one is stuck; the first certificate added
that bears it leads on to a bundled root, among what is left of the chain and of those added. -/
inductive SuppliesIntermediate (chain extra : List X509Certificate) : Prop
  | intro {leaf last missing root : X509Certificate}
      {rest left others left' : List X509Certificate} (hchain : chain = leaf :: rest)
      (hwalk : Walks (IssuedBy ext) (leaf, rest) (last, left))
      (hunbundled : ∀ certificate others,
        Walks (IssuedBy ext) (leaf, rest) (certificate, others) →
          roots.hasCertificate certificate.rawData = false)
      (hstuck : ∀ other ∈ left, ¬IssuedBy ext last other)
      (hunknown : roots.hasSubject (issuerDn ext last) = false)
      (hsupplied : TakesFirst (IssuedBy ext) (last, extra) (missing, others))
      (honward : Walks (IssuedBy ext) (missing, left ++ others) (root, left'))
      (hbundled : roots.hasCertificate root.rawData = true)

variable {ext roots} {leaf : X509Certificate} {chain rest extra : List X509Certificate}

/-- The path carries a bundled root exactly when one is come to. -/
lemma any_path_iff : (leaf :: onward ext leaf rest).any
      (fun certificate => roots.hasCertificate certificate.rawData) = true ↔
    ∃ root left, Walks (IssuedBy ext) (leaf, rest) (root, left) ∧
      roots.hasCertificate root.rawData = true := by
  rw [List.any_eq_true]
  simp only [mem_path_iff]
  constructor
  · rintro ⟨root, ⟨left, hwalk⟩, hb⟩
    exact ⟨root, left, hwalk, hb⟩
  · rintro ⟨root, left, hwalk, hb⟩
    exact ⟨root, ⟨left, hwalk⟩, hb⟩

/-- `public` says that a bundled root is come to. -/
theorem rootClassOf_eq_public_iff : rootClassOf ext roots (leaf :: rest) = some .public ↔
    ∃ root left, Walks (IssuedBy ext) (leaf, rest) (root, left) ∧
      roots.hasCertificate root.rawData = true := by
  rw [← any_path_iff, List.any_eq_true, rootClassOf_cons, Option.map_eq_some_iff]
  constructor
  · rintro ⟨⟨-, reason⟩, hr, rfl⟩
    exact (readPath_eq_public_iff.mp hr).2
  · exact fun hb => ⟨(.public, .bundledRootOnPath), readPath_eq_public_iff.mpr ⟨rfl, hb⟩, rfl⟩

/-- `private` says that none is come to, and that the walk ends at a self-signed certificate or at
an issuer's name that no bundled root bears. -/
theorem rootClassOf_eq_private_iff : rootClassOf ext roots (leaf :: rest) = some .private ↔
    (∀ certificate left, Walks (IssuedBy ext) (leaf, rest) (certificate, left) →
      roots.hasCertificate certificate.rawData = false) ∧
    ∃ last left, Walks (IssuedBy ext) (leaf, rest) (last, left) ∧
      (∀ other ∈ left, ¬IssuedBy ext last other) ∧
      (subjectDn ext last = issuerDn ext last ∨ roots.hasSubject (issuerDn ext last) = false) := by
  rw [rootClassOf_cons, readPath]
  split_ifs with hb
  · obtain ⟨root, left, hwalk, hbundled⟩ := any_path_iff.mp hb
    simp only [Option.map_some, Option.some.injEq, reduceCtorEq, false_iff, not_and]
    exact fun h => absurd (h root left hwalk) (by simp [hbundled])
  · have hnone : ∀ certificate left, Walks (IssuedBy ext) (leaf, rest) (certificate, left) →
        roots.hasCertificate certificate.rawData = false := by
      intro certificate left hwalk
      by_contra h
      exact hb (any_path_iff.mpr ⟨certificate, left, hwalk, by simpa using h⟩)
    rw [and_iff_right hnone, Option.map_map, Option.map_eq_some_iff]
    constructor
    · rintro ⟨last, hlast, hclass⟩
      obtain ⟨left, hwalk, hend⟩ := getLast?_path_iff.mp hlast
      refine ⟨last, left, hwalk, hend, ?_⟩
      simp only [Function.comp_apply] at hclass
      split_ifs at hclass with hself hsubject
      · exact Or.inl hself
      · exact Or.inr (by simpa using hsubject)
    · rintro ⟨last, left, hwalk, hend, hconclusive⟩
      refine ⟨last, getLast?_path_iff.mpr ⟨left, hwalk, hend⟩, ?_⟩
      simp only [Function.comp_apply]
      split_ifs with hself hsubject
      · rfl
      · rfl
      · exact absurd (hconclusive.resolve_left hself) (by simpa using hsubject)

/-- A private verdict that does not stand was given for want of an intermediate. -/
lemma suppliesIntermediate_of_private_of_public
    (hprivate : rootClassOf ext roots chain = some .private)
    (hpublic : rootClassOf ext roots (chain ++ extra) = some .public) :
    SuppliesIntermediate ext roots chain extra := by
  cases chain with
  | nil => simp [rootClassOf, classifyRoot, matchedIndex] at hprivate
  | cons leaf rest =>
    obtain ⟨hunbundled, last, left, hwalk, hstuck, hconclusive⟩ :=
      rootClassOf_eq_private_iff.mp hprivate
    obtain ⟨root, left', hlonger, hbundled⟩ := rootClassOf_eq_public_iff.mp hpublic
    rcases hwalk.of_append hlonger with ⟨others, hbefore⟩ | honward
    · exact absurd (hunbundled root others hbefore) (by simp [hbundled])
    -- the walk of the longer list goes on from the old end, so with a certificate added
    rcases Relation.ReflTransGen.cases_head honward with heq | ⟨q, htakes, honward⟩
    · rw [← (Prod.mk.inj heq).1, hunbundled last left hwalk] at hbundled
      cases hbundled
    obtain ⟨others, hsupplied, hothers⟩ := htakes.of_append_left hstuck
    have hself : subjectDn ext last ≠ issuerDn ext last := by
      obtain ⟨-, -, -, -, hnext, -⟩ := hsupplied
      exact hnext.1
    rw [← Prod.mk.eta (p := q), hothers] at honward
    exact ⟨rfl, hwalk, hunbundled, hstuck, hconclusive.resolve_left hself, hsupplied, honward,
      hbundled⟩

lemma SuppliesIntermediate.private (h : SuppliesIntermediate ext roots chain extra) :
    rootClassOf ext roots chain = some .private := by
  obtain ⟨rfl, hwalk, hunbundled, hstuck, hunknown, -, -, -⟩ := h
  exact rootClassOf_eq_private_iff.mpr ⟨hunbundled, _, _, hwalk, hstuck, Or.inr hunknown⟩

lemma SuppliesIntermediate.public (h : SuppliesIntermediate ext roots chain extra) :
    rootClassOf ext roots (chain ++ extra) = some .public := by
  obtain ⟨rfl, hwalk, -, hstuck, -, hsupplied, honward, hbundled⟩ := h
  have hlonger := (hwalk.append extra).trans (.head (hsupplied.append_left hstuck) honward)
  exact rootClassOf_eq_public_iff.mpr ⟨_, _, hlonger, hbundled⟩

/-- The certificates added leave a private verdict standing unless they supply an intermediate that
was missing below a bundled root. -/
theorem private_conclusive_iff (ext : Externals) (roots : CertificateIndex)
    (chain extra : List X509Certificate) :
    (rootClassOf ext roots chain = some .private →
        rootClassOf ext roots (chain ++ extra) ≠ some .public) ↔
      ¬SuppliesIntermediate ext roots chain extra := by
  constructor
  · exact fun h hsupplies => h hsupplies.private hsupplies.public
  · exact fun h hprivate hpublic => h (suppliesIntermediate_of_private_of_public hprivate hpublic)

/-- A leaf sent without its intermediate is private; with the intermediate and the bundled root
it is public. -/
theorem private_not_conclusive :
    rootClassOf fixtureExternals fixtureIndex [exampleLeaf] = some .private ∧
      rootClassOf fixtureExternals fixtureIndex
        ([exampleLeaf] ++ [exampleIntermediate, fixtureRoot]) = some .public := by
  decide +kernel

end Portcall.Tls
