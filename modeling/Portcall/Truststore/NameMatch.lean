import Portcall.Truststore.CrossCheck

/-! The name-only pass of the correlation, and what it asks about the bytes it ignores. -/
namespace Portcall.Truststore
variable {missing : List Anchor} {observed : List ObservedAnchor}

/-- The name-only match is left to peers that sent no root, and presented bytes correlate only
with themselves. -/
def NamesOnlyWithoutRoot (missing : List Anchor) (observed : List ObservedAnchor) : Prop :=
  ∀ correlation, correlate missing observed = some correlation →
    (correlation.strength = .issuerName → correlation.anchor.der = none) ∧
    ∀ der, correlation.anchor.der = some der → ∃ candidate ∈ missing, candidate.der = der

/-- The observation is private and its issuer is named like a missing anchor. -/
def namesMissing (missing : List Anchor) (anchor : ObservedAnchor) : Bool :=
  anchor.anchorClass = .private &&
    missing.any fun candidate => candidate.canonicalSubject = anchor.canonicalIssuer

/-- Some observation has the bytes of a missing anchor, or the first private one that names a
missing anchor presented no root. -/
def FirstNamedSentNoRoot (missing : List Anchor) (observed : List ObservedAnchor) : Prop :=
  (∃ anchor ∈ observed, ∃ candidate ∈ missing, anchor.der = some candidate.der) ∨
    ∀ anchor, observed.find? (namesMissing missing) = some anchor → anchor.der = none

lemma namesMissing_iff {anchor : ObservedAnchor} :
    namesMissing missing anchor = true ↔ (correlateName missing anchor).isSome := by
  rw [correlateName_isSome_iff, namesMissing]
  simp

lemma findSome?_eq_bind_find? {α β : Type*} (f : α → Option β) (l : List α) :
    l.findSome? f = (l.find? fun a => (f a).isSome).bind f := by
  induction l with
  | nil => rfl
  | cons a l ih =>
    rw [List.findSome?_cons, List.find?_cons]
    cases h : f a with
    | none => simpa [h] using ih
    | some b => simp [h]

/-- The name pass settles on the first private observation that names a missing anchor. -/
lemma findSome?_correlateName :
    observed.findSome? (correlateName missing) =
      (observed.find? (namesMissing missing)).bind (correlateName missing) := by
  have hsame : (fun anchor => (correlateName missing anchor).isSome) = namesMissing missing := by
    funext anchor
    rw [Bool.eq_iff_iff, namesMissing_iff]
  rw [findSome?_eq_bind_find?, hsame]

/-- Where no observation has the bytes of a missing anchor, the name pass decides. -/
lemma correlate_of_no_bytes
    (h : ¬∃ anchor ∈ observed, ∃ candidate ∈ missing, anchor.der = some candidate.der) :
    correlate missing observed =
      (observed.find? (namesMissing missing)).bind (correlateName missing) := by
  have hnone : observed.findSome? (correlateBytes missing) = none := by
    rw [List.findSome?_eq_none_iff]
    intro anchor hm
    rw [← Option.not_isSome_iff_eq_none, correlateBytes_isSome_iff]
    exact fun hc => h ⟨anchor, hm, hc⟩
  unfold correlate
  rw [hnone, findSome?_correlateName]

/-- Names are used only where no root was sent, exactly when bytes settle the matter or the
first private observation that names a missing anchor came without a root. -/
theorem namesOnlyWithoutRoot_iff (missing : List Anchor) (observed : List ObservedAnchor) :
    NamesOnlyWithoutRoot missing observed ↔ FirstNamedSentNoRoot missing observed := by
  by_cases hbytes : ∃ anchor ∈ observed, ∃ candidate ∈ missing, anchor.der = some candidate.der
  · refine iff_of_true ?_ (Or.inl hbytes)
    obtain ⟨anchor, hm, candidate, hmem, hd⟩ := hbytes
    obtain ⟨found, hfound, hstrength⟩ := correlate_bytes hm hmem hd
    intro correlation hc
    rw [hfound, Option.some.injEq] at hc
    subst hc
    refine ⟨fun hn => by simp [hstrength] at hn, fun der hder => ?_⟩
    obtain ⟨-, hmatched, hb, -⟩ := correlate_eq_some hfound
    rw [hb hstrength, Option.some.injEq] at hder
    exact ⟨found.matched, hmatched, hder⟩
  · unfold NamesOnlyWithoutRoot FirstNamedSentNoRoot
    rw [correlate_of_no_bytes hbytes]
    simp only [hbytes, false_or]
    constructor
    · intro h anchor hfind
      obtain ⟨correlation, hc⟩ := Option.isSome_iff_exists.mp
        (namesMissing_iff.mp (List.find?_some hfind))
      obtain ⟨ha, hstrength, -⟩ := correlateName_eq_some hc
      rw [hfind, Option.bind_some] at h
      exact ha ▸ (h correlation hc).1 hstrength
    · intro h correlation hc
      obtain ⟨anchor, hfind, hname⟩ := Option.bind_eq_some_iff.mp hc
      obtain ⟨ha, -⟩ := correlateName_eq_some hname
      have hder : correlation.anchor.der = none := ha ▸ h anchor hfind
      exact ⟨fun _ => hder, fun der hd => by simp [hder] at hd⟩

section Rekeyed

/-- The anchor the machine added. -/
def oldRoot : Anchor := ⟨[1], "CN=Acme Corp Internal Root", "cn=acme corp internal root"⟩

/-- The re-keyed root a peer presented: the same name over other bytes. -/
def newRoot : ObservedAnchor where
  der := some [2]
  canonicalIssuer := "cn=acme corp internal root"
  canonicalSubject := "cn=acme corp internal root"
  host := "api.example.com"
  via := .direct
  anchorClass := .private

/-- The presented bytes differ from every missing anchor's, and still the name correlates and
raises the verdict. -/
theorem rekeyed_root_correlates :
    correlate [oldRoot] [newRoot] = some ⟨newRoot, .issuerName, oldRoot⟩ ∧
      newRoot.der ≠ none ∧ (∀ candidate ∈ [oldRoot], newRoot.der ≠ some candidate.der) ∧
      (missingRootFinding ⟨.node, none, [], false⟩ [oldRoot]
        (correlate [oldRoot] [newRoot])).severity = .blocker := by
  decide

end Rekeyed
end Portcall.Truststore
