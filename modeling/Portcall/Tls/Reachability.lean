import Portcall.Tls.Completion

/-! Reachability: every way the issuer names could be followed, against the one way the walk
takes. -/
namespace Portcall.Tls
open Ways
variable (ext : Externals) (roots : CertificateIndex)

/-- A bundled certificate can be reached from the leaf along issuers' names among the certificates
presented. -/
def LeadsToBundle (chain : List X509Certificate) : Prop :=
  ∃ leaf root, chain.head? = some leaf ∧
    Relation.ReflTransGen (fun a b => b ∈ chain ∧ IssuedBy ext a b) leaf root ∧
    roots.hasCertificate root.rawData = true

/-- The class of a chain is what can be reached in it: `public` says that a bundled certificate can,
and the order in which the certificates after the leaf were sent has no say. -/
structure ClassByReach (chain : List X509Certificate) : Prop where
  public_iff : rootClassOf ext roots chain = some .public ↔ LeadsToBundle ext roots chain
  reordered : ∀ chain' : List X509Certificate, chain'.Perm chain → chain'.head? = chain.head? →
    rootClassOf ext roots chain' = rootClassOf ext roots chain

/-- The way carries a bundled root. -/
def Anchored (way : List X509Certificate) : Prop :=
  ∃ root ∈ way, roots.hasCertificate root.rawData = true

/-- The way ends below a bundled root: its last certificate is not self-signed, and a bundled root
bears its issuer's name. -/
def StopsShort (way : List X509Certificate) : Prop :=
  ∃ last, way.getLast? = some last ∧ subjectDn ext last ≠ issuerDn ext last ∧
    roots.hasSubject (issuerDn ext last) = true

/-- All the ways from the leaf, whichever of several certificates with one subject they take, come to
the same. -/
structure WaysAgree (leaf : X509Certificate) (rest : List X509Certificate) : Prop where
  anchored : ∀ {way way' : List X509Certificate}, Way (IssuedBy ext) leaf rest way →
    Way (IssuedBy ext) leaf rest way' → Anchored roots way → Anchored roots way'
  stopsShort : ∀ {way way' : List X509Certificate}, Way (IssuedBy ext) leaf rest way →
    Way (IssuedBy ext) leaf rest way' → ¬Anchored roots way → StopsShort ext roots way →
      StopsShort ext roots way'

variable {ext roots} {leaf : X509Certificate} {chain rest rest' way way' : List X509Certificate}

/-- The class the certificates of a way give. -/
private def classAlong (ext : Externals) (roots : CertificateIndex) (way : List X509Certificate) :
    Option RootClass :=
  (readPath ext roots way).map Prod.fst

private lemma classAlong_eq_public_iff :
    classAlong ext roots way = some .public ↔ Anchored roots way := by
  rw [classAlong, Option.map_eq_some_iff]
  constructor
  · rintro ⟨⟨-, reason⟩, hr, rfl⟩
    exact (readPath_eq_public_iff.mp hr).2
  · exact fun hb => ⟨(.public, .bundledRootOnPath), readPath_eq_public_iff.mpr ⟨rfl, hb⟩, rfl⟩

private lemma classAlong_of_not_anchored (h : ¬Anchored roots way) : classAlong ext roots way =
    way.getLast?.map fun last =>
      if subjectDn ext last ≠ issuerDn ext last ∧ roots.hasSubject (issuerDn ext last) = true then
        .indeterminate
      else .private := by
  have hany : ¬way.any (fun certificate => roots.hasCertificate certificate.rawData) = true := by
    rwa [List.any_eq_true]
  rw [classAlong, readPath, if_neg hany, Option.map_map]
  congr 1
  funext last
  simp only [Function.comp_apply]
  split_ifs <;> simp_all

private lemma classAlong_eq_indeterminate_iff (h : ¬Anchored roots way) :
    classAlong ext roots way = some .indeterminate ↔ StopsShort ext roots way := by
  rw [classAlong_of_not_anchored h, Option.map_eq_some_iff]
  refine exists_congr fun last => and_congr_right fun _ => ?_
  split_ifs with hlast
  · exact iff_of_true rfl hlast
  · exact iff_of_false (by simp) hlast

private lemma classAlong_eq_private_iff (hne : way ≠ []) (h : ¬Anchored roots way) :
    classAlong ext roots way = some .private ↔ ¬StopsShort ext roots way := by
  rw [← classAlong_eq_indeterminate_iff h, classAlong_of_not_anchored h,
    List.getLast?_eq_getLast_of_ne_nil hne]
  simp only [Option.map_some, Option.some.injEq]
  split_ifs <;> simp

/-- The class of the chain is the class along its path. -/
private lemma rootClassOf_eq_classAlong :
    rootClassOf ext roots (leaf :: rest) = classAlong ext roots (leaf :: onward ext leaf rest) :=
  rootClassOf_cons

/-- Ways that come to the same give one class. -/
private lemma WaysAgree.classAlong_eq (h : WaysAgree ext roots leaf rest)
    (hway : Way (IssuedBy ext) leaf rest way) (hway' : Way (IssuedBy ext) leaf rest way') :
    classAlong ext roots way = classAlong ext roots way' := by
  by_cases hanchored : Anchored roots way
  · rw [classAlong_eq_public_iff.mpr hanchored,
      classAlong_eq_public_iff.mpr (h.anchored hway hway' hanchored)]
  have hanchored' : ¬Anchored roots way' := fun h' => hanchored (h.anchored hway' hway h')
  by_cases hshort : StopsShort ext roots way
  · rw [(classAlong_eq_indeterminate_iff hanchored).mpr hshort,
      (classAlong_eq_indeterminate_iff hanchored').mpr (h.stopsShort hway hway' hanchored hshort)]
  · have hshort' : ¬StopsShort ext roots way' :=
      fun h' => hshort (h.stopsShort hway' hway hanchored' h')
    rw [(classAlong_eq_private_iff hway.ne_nil hanchored).mpr hshort,
      (classAlong_eq_private_iff hway'.ne_nil hanchored').mpr hshort']

/-- Ways that give one class come to the same. -/
private lemma waysAgree_of_classAlong_eq
    (h : ∀ {way way' : List X509Certificate}, Way (IssuedBy ext) leaf rest way →
      Way (IssuedBy ext) leaf rest way' → classAlong ext roots way = classAlong ext roots way') :
    WaysAgree ext roots leaf rest := by
  have hanchored : ∀ {way way' : List X509Certificate}, Way (IssuedBy ext) leaf rest way →
      Way (IssuedBy ext) leaf rest way' → Anchored roots way → Anchored roots way' := by
    intro way way' hway hway' ha
    have hclass : classAlong ext roots way = some .public := classAlong_eq_public_iff.mpr ha
    exact classAlong_eq_public_iff.mp ((h hway hway').symm.trans hclass)
  refine ⟨hanchored, fun hway hway' ha hshort => ?_⟩
  have ha' := fun h' => ha (hanchored hway' hway h')
  rw [← classAlong_eq_indeterminate_iff ha] at hshort
  rw [← classAlong_eq_indeterminate_iff ha', ← h hway hway', hshort]

/-- A way carries a bundled root only if one can be reached. -/
lemma leadsToBundle_of_anchored (hway : Way (IssuedBy ext) leaf rest way)
    (h : Anchored roots way) : LeadsToBundle ext roots (leaf :: rest) := by
  obtain ⟨root, hm, hb⟩ := h
  exact ⟨leaf, root, rfl, hway.reaches hm, hb⟩

/-- A bundled root that can be reached lies on some way. -/
lemma LeadsToBundle.exists_way (h : LeadsToBundle ext roots (leaf :: rest)) :
    ∃ way, Way (IssuedBy ext) leaf rest way ∧ Anchored roots way := by
  obtain ⟨leaf, root, hhead, hreach, hb⟩ := h
  cases hhead
  obtain ⟨way, hway, hm⟩ := exists_way_through hreach
  exact ⟨way, hway, root, hm, hb⟩

/-- Where all ways come to the same, the class is what can be reached. -/
lemma WaysAgree.classByReach (h : WaysAgree ext roots leaf rest) :
    ClassByReach ext roots (leaf :: rest) := by
  have hpath := @way_onward ext leaf rest
  constructor
  · rw [rootClassOf_eq_classAlong, classAlong_eq_public_iff]
    constructor
    · exact leadsToBundle_of_anchored hpath
    · intro hleads
      obtain ⟨way, hway, ha⟩ := hleads.exists_way
      exact h.anchored hway hpath ha
  · intro chain' hperm hhead
    cases chain' with
    | nil => cases hhead
    | cons leaf' rest' =>
      obtain rfl : leaf' = leaf := Option.some.inj hhead
      have hpath' := (@way_onward ext leaf' rest').perm ((List.perm_cons leaf').mp hperm).symm
      rw [rootClassOf_eq_classAlong, rootClassOf_eq_classAlong, h.classAlong_eq hpath' hpath]

/-- Where the order has no say, all ways come to the same: each is the path in some order. -/
lemma ClassByReach.waysAgree (h : ClassByReach ext roots (leaf :: rest)) :
    WaysAgree ext roots leaf rest := by
  have hclass : ∀ {way : List X509Certificate}, Way (IssuedBy ext) leaf rest way →
      classAlong ext roots way = rootClassOf ext roots (leaf :: rest) := by
    intro way hway
    obtain ⟨rest', hperm, rfl⟩ := exists_onward_eq hway
    rw [← rootClassOf_eq_classAlong, h.reordered _ (hperm.cons leaf) rfl]
  exact waysAgree_of_classAlong_eq fun hway hway' => (hclass hway).trans (hclass hway').symm

/-- `public` is reported for exactly the chains from whose leaf the bundle can be reached, and the
same class in every order, if and only if all the ways from the leaf come to the same. -/
theorem public_iff_reachable_iff (ext : Externals) (roots : CertificateIndex)
    (chain : List X509Certificate) : ClassByReach ext roots chain ↔
      ∀ leaf rest, chain = leaf :: rest → WaysAgree ext roots leaf rest := by
  constructor
  · rintro h leaf rest rfl
    exact h.waysAgree
  · intro h
    cases chain with
    | nil =>
      refine ⟨by simp [LeadsToBundle, rootClassOf, classifyRoot, matchedIndex], ?_⟩
      intro chain' hperm _
      rw [hperm.eq_nil]
    | cons leaf rest => exact (h leaf rest rfl).classByReach

/-- The same issuing CA under the issuer nobody bundles. -/
def exampleCrossSigned : X509Certificate :=
  namedCertificate "Acme Corp Issuing CA" "Acme Corp Internal Root" [3]

/-- A cross-signed CA sent under both its issuers: the order of the two decides the class. -/
theorem class_depends_on_order :
    LeadsToBundle fixtureExternals fixtureIndex
        [exampleLeaf, exampleCrossSigned, exampleIntermediate, fixtureRoot] ∧
      rootClassOf fixtureExternals fixtureIndex
        [exampleLeaf, exampleCrossSigned, exampleIntermediate, fixtureRoot] = some .private ∧
      rootClassOf fixtureExternals fixtureIndex
        [exampleLeaf, exampleIntermediate, exampleCrossSigned, fixtureRoot] = some .public := by
  refine ⟨⟨exampleLeaf, fixtureRoot, rfl, ?_, hasCertificate_fixture.mpr rfl⟩, by decide +kernel⟩
  have hleaf : IssuedBy fixtureExternals exampleLeaf exampleIntermediate :=
    ⟨by decide +kernel, rfl⟩
  have hintermediate : IssuedBy fixtureExternals exampleIntermediate fixtureRoot :=
    ⟨by decide +kernel, rfl⟩
  exact .head ⟨by simp, hleaf⟩ (.single ⟨by simp, hintermediate⟩)

/-- Where no two certificates after the leaf share a subject, the class is what can be reached. -/
theorem classByReach_of_distinct (hdistinct : (rest.map (subjectDn ext)).Nodup) :
    ClassByReach ext roots (leaf :: rest) := by
  have hsame : ∀ {way way' : List X509Certificate}, Way (IssuedBy ext) leaf rest way →
      Way (IssuedBy ext) leaf rest way' → way = way' := by
    intro way way' hway hway'
    refine hway.unique (subjectDn ext) (issuerDn ext) ?_ hway' (.refl rest) hdistinct
    exact fun _ _ h => h.2
  apply WaysAgree.classByReach
  exact ⟨fun hway hway' ha => hsame hway hway' ▸ ha, fun hway hway' _ h => hsame hway hway' ▸ h⟩

end Portcall.Tls
