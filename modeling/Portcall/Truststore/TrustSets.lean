import Portcall.Truststore.Anchors

/-! Trust sets, and the correlation of a missing anchor with a chain that was watched
terminate. -/
namespace Portcall.Truststore

/-- The roots one runtime consults: one store, with what is added to it. -/
structure TrustSet where
  runtime : Runtime
  locator : Option String
  pems : List String
  /-- Some store the set was built from was read only in part. -/
  isPartial : Bool
  deriving DecidableEq, Repr

section Sets
variable (outcomes : List RuntimeStoreOutcome)

/-- Only stores that were read take part. -/
def readable : List RuntimeStoreOutcome :=
  outcomes.filter fun outcome => outcome.failure = none && outcome.kind ≠ .platformVerifier

def additions : List RuntimeStoreOutcome :=
  (readable outcomes).filter fun outcome => outcome.combines = .addsTo

def replacing : List RuntimeStoreOutcome :=
  (readable outcomes).filter fun outcome => outcome.combines = .replaces

def bases : List RuntimeStoreOutcome :=
  if 0 < (replacing outcomes).length then replacing outcomes
  else (readable outcomes).filter fun outcome => outcome.combines = .standalone

/-- The set of one base, with what is added to it. -/
def trustSetOf (runtime : Runtime) (base : RuntimeStoreOutcome) : TrustSet where
  runtime
  locator := base.locator
  pems := base.pems ++ (additions outcomes).flatMap RuntimeStoreOutcome.pems
  isPartial := base.isPartial || (additions outcomes).any RuntimeStoreOutcome.isPartial

end Sets

/-- Group one runtime's outcomes into the sets it consults. -/
def trustSets (runtime : Runtime) (outcomes : List RuntimeStoreOutcome) : List TrustSet :=
  (bases outcomes).map (trustSetOf outcomes runtime)

/-- A store went into a set: it is the set's base, or one that is added to it. -/
def BuiltFrom (runtime : Runtime) (outcomes : List RuntimeStoreOutcome) (set : TrustSet)
    (store : RuntimeStoreOutcome) : Prop :=
  ∃ base ∈ bases outcomes, set = trustSetOf outcomes runtime base ∧
    (store = base ∨ store ∈ additions outcomes)

section BuiltFrom
variable {runtime : Runtime} {outcomes : List RuntimeStoreOutcome} {set : TrustSet}
  {store : RuntimeStoreOutcome}

lemma mem_readable : store ∈ readable outcomes ↔
    store ∈ outcomes ∧ store.failure = none ∧ store.kind ≠ .platformVerifier := by
  simp [readable]

lemma readable_of_mem_bases (h : store ∈ bases outcomes) : store ∈ readable outcomes := by
  unfold bases at h
  split_ifs at h
  · exact List.mem_of_mem_filter h
  · exact List.mem_of_mem_filter h

/-- Only a store that was read goes into a set. -/
lemma BuiltFrom.mem_readable (h : BuiltFrom runtime outcomes set store) :
    store ∈ readable outcomes := by
  obtain ⟨base, hbase, -, rfl | hadded⟩ := h
  · exact readable_of_mem_bases hbase
  · exact List.mem_of_mem_filter hadded

/-- A set knows when a store it was built from was read in part. -/
lemma BuiltFrom.isPartial (h : BuiltFrom runtime outcomes set store)
    (hpart : store.isPartial = true) : set.isPartial = true := by
  obtain ⟨base, -, rfl, hstore⟩ := h
  rw [trustSetOf, Bool.or_eq_true, List.any_eq_true]
  rcases hstore with rfl | hadded
  · exact Or.inl hpart
  · exact Or.inr ⟨store, hadded, hpart⟩

/-- Every block of a set is one of a store it was built from. -/
lemma exists_builtFrom_of_mem_pems {pem : String} (hset : set ∈ trustSets runtime outcomes)
    (hpem : pem ∈ set.pems) : ∃ store, BuiltFrom runtime outcomes set store ∧ pem ∈ store.pems := by
  obtain ⟨base, hbase, rfl⟩ := List.mem_map.mp hset
  rcases List.mem_append.mp hpem with hpem | hpem
  · exact ⟨base, ⟨base, hbase, rfl, Or.inl rfl⟩, hpem⟩
  · obtain ⟨store, hadded, hpem⟩ := List.mem_flatMap.mp hpem
    exact ⟨store, ⟨base, hbase, rfl, Or.inr hadded⟩, hpem⟩

end BuiltFrom

/-- How an observed anchor was tied to a missing one. -/
inductive MatchStrength where
  | bytes
  | issuerName
  deriving DecidableEq, Repr

def MatchStrength.text : MatchStrength → String
  | .bytes => "bytes"
  | .issuerName => "issuer-name"

structure Correlation where
  anchor : ObservedAnchor
  strength : MatchStrength
  matched : Anchor
  deriving DecidableEq, Repr

/-- `new Map(missing.map(key))` looked up: the last anchor with the property. -/
def lastWith (p : Anchor → Bool) (missing : List Anchor) : Option Anchor :=
  missing.reverse.find? p

/-- The first pass: an observed anchor whose bytes are those of a missing one. -/
def correlateBytes (missing : List Anchor) (anchor : ObservedAnchor) : Option Correlation :=
  anchor.der.bind fun der =>
    (lastWith (fun candidate => derKey candidate.der = derKey der) missing).map fun matched =>
      ⟨anchor, .bytes, matched⟩

/-- The second pass: a private anchor whose issuer is named like a missing one. -/
def correlateName (missing : List Anchor) (anchor : ObservedAnchor) : Option Correlation :=
  if anchor.anchorClass ≠ .private then none
  else (lastWith (fun candidate => candidate.canonicalSubject = anchor.canonicalIssuer) missing).map
    fun matched => ⟨anchor, .issuerName, matched⟩

/-- Tie a missing anchor to an observed one: by bytes where any observation allows it, else by
name. -/
def correlate (missing : List Anchor) (observed : List ObservedAnchor) : Option Correlation :=
  match observed.findSome? (correlateBytes missing) with
  | some correlation => some correlation
  | none => observed.findSome? (correlateName missing)

/-- What ties an observed anchor to a missing one. -/
inductive Tied (observed : ObservedAnchor) (missing : Anchor) : Prop where
  | bytes (h : observed.der = some missing.der)
  | issuerName (hclass : observed.anchorClass = .private)
      (h : missing.canonicalSubject = observed.canonicalIssuer)

section Correlate
variable {missing : List Anchor} {observed : List ObservedAnchor} {anchor : ObservedAnchor}
  {correlation : Correlation}

lemma lastWith_eq_none_iff {p : Anchor → Bool} :
    lastWith p missing = none ↔ ∀ candidate ∈ missing, p candidate = false := by
  simp [lastWith]

lemma lastWith_eq_some {p : Anchor → Bool} {matched : Anchor}
    (h : lastWith p missing = some matched) : matched ∈ missing ∧ p matched = true :=
  ⟨List.mem_reverse.mp (List.mem_of_find?_eq_some h), List.find?_some h⟩

lemma correlateBytes_eq_some (h : correlateBytes missing anchor = some correlation) :
    correlation.anchor = anchor ∧ correlation.strength = .bytes ∧
      correlation.matched ∈ missing ∧ anchor.der = some correlation.matched.der := by
  obtain ⟨der, hder, h⟩ := Option.bind_eq_some_iff.mp h
  obtain ⟨matched, hm, rfl⟩ := Option.map_eq_some_iff.mp h
  obtain ⟨hmem, hp⟩ := lastWith_eq_some hm
  rw [decide_eq_true_eq, derKey_inj] at hp
  exact ⟨rfl, rfl, hmem, hp ▸ hder⟩

lemma correlateBytes_isSome_iff :
    (correlateBytes missing anchor).isSome ↔
      ∃ candidate ∈ missing, anchor.der = some candidate.der := by
  constructor
  · intro h
    obtain ⟨correlation, hc⟩ := Option.isSome_iff_exists.mp h
    obtain ⟨-, -, hm, hd⟩ := correlateBytes_eq_some hc
    exact ⟨_, hm, hd⟩
  · rintro ⟨candidate, hm, hd⟩
    rw [correlateBytes, hd, Option.bind_some, Option.isSome_map, Option.isSome_iff_ne_none]
    intro hn
    have := lastWith_eq_none_iff.mp hn candidate hm
    simp at this

lemma correlateName_eq_some (h : correlateName missing anchor = some correlation) :
    correlation.anchor = anchor ∧ correlation.strength = .issuerName ∧
      correlation.matched ∈ missing ∧ anchor.anchorClass = .private ∧
      correlation.matched.canonicalSubject = anchor.canonicalIssuer := by
  unfold correlateName at h
  split_ifs at h with hclass
  obtain ⟨matched, hm, rfl⟩ := Option.map_eq_some_iff.mp h
  obtain ⟨hmem, hp⟩ := lastWith_eq_some hm
  exact ⟨rfl, rfl, hmem, not_not.mp hclass, of_decide_eq_true hp⟩

lemma correlateName_isSome_iff :
    (correlateName missing anchor).isSome ↔ anchor.anchorClass = .private ∧
      ∃ candidate ∈ missing, candidate.canonicalSubject = anchor.canonicalIssuer := by
  constructor
  · intro h
    obtain ⟨correlation, hc⟩ := Option.isSome_iff_exists.mp h
    obtain ⟨-, -, hm, hclass, hs⟩ := correlateName_eq_some hc
    exact ⟨hclass, _, hm, hs⟩
  · rintro ⟨hclass, candidate, hm, hs⟩
    unfold correlateName
    rw [if_neg (not_not.mpr hclass), Option.isSome_map, Option.isSome_iff_ne_none]
    intro hn
    have := lastWith_eq_none_iff.mp hn candidate hm
    simp [hs] at this

/-- Nothing correlates exactly when nothing observed is tied to anything missing. -/
theorem correlate_isSome_iff :
    (correlate missing observed).isSome ↔
      ∃ anchor ∈ observed, ∃ candidate ∈ missing, Tied anchor candidate := by
  unfold correlate
  cases hb : observed.findSome? (correlateBytes missing) with
  | some correlation =>
    obtain ⟨anchor, hm, hc⟩ := List.exists_of_findSome?_eq_some hb
    obtain ⟨-, -, hmem, hd⟩ := correlateBytes_eq_some hc
    simp only [Option.isSome_some, true_iff]
    exact ⟨anchor, hm, _, hmem, .bytes hd⟩
  | none =>
    have hnone := List.findSome?_eq_none_iff.mp hb
    simp only [List.findSome?_isSome_iff]
    constructor
    · rintro ⟨anchor, hm, hs⟩
      obtain ⟨hclass, candidate, hmem, hn⟩ := correlateName_isSome_iff.mp hs
      exact ⟨anchor, hm, candidate, hmem, .issuerName hclass hn⟩
    · rintro ⟨anchor, hm, candidate, hmem, hd | ⟨hclass, hn⟩⟩
      · have := correlateBytes_isSome_iff.mpr ⟨candidate, hmem, hd⟩
        simp [hnone anchor hm] at this
      · exact ⟨anchor, hm, correlateName_isSome_iff.mpr ⟨hclass, candidate, hmem, hn⟩⟩

/-- Whatever correlates is observed, tied, and tied to something missing. -/
theorem correlate_eq_some (h : correlate missing observed = some correlation) :
    correlation.anchor ∈ observed ∧ correlation.matched ∈ missing ∧
      (correlation.strength = .bytes → correlation.anchor.der = some correlation.matched.der) ∧
      (correlation.strength = .issuerName → correlation.anchor.anchorClass = .private ∧
        correlation.matched.canonicalSubject = correlation.anchor.canonicalIssuer) := by
  unfold correlate at h
  cases hb : observed.findSome? (correlateBytes missing) with
  | some found =>
    rw [hb] at h
    cases h
    obtain ⟨anchor, hm, hc⟩ := List.exists_of_findSome?_eq_some hb
    obtain ⟨rfl, hs, hmem, hd⟩ := correlateBytes_eq_some hc
    exact ⟨hm, hmem, fun _ => hd, fun hn => by simp [hs] at hn⟩
  | none =>
    rw [hb] at h
    obtain ⟨anchor, hm, hc⟩ := List.exists_of_findSome?_eq_some h
    obtain ⟨rfl, hs, hmem, hclass, hn⟩ := correlateName_eq_some hc
    exact ⟨hm, hmem, fun hb => by simp [hs] at hb, fun _ => ⟨hclass, hn⟩⟩

/-- Bytes come first: they decide whenever any observation has the bytes of a missing anchor. -/
theorem correlate_bytes (hanchor : anchor ∈ observed) {candidate : Anchor}
    (hmissing : candidate ∈ missing) (hder : anchor.der = some candidate.der) :
    ∃ correlation, correlate missing observed = some correlation ∧
      correlation.strength = .bytes := by
  have hsome : (observed.findSome? (correlateBytes missing)).isSome :=
    List.findSome?_isSome_iff.mpr
      ⟨anchor, hanchor, correlateBytes_isSome_iff.mpr ⟨candidate, hmissing, hder⟩⟩
  obtain ⟨correlation, hc⟩ := Option.isSome_iff_exists.mp hsome
  obtain ⟨found, -, hf⟩ := List.exists_of_findSome?_eq_some hc
  refine ⟨correlation, ?_, (correlateBytes_eq_some hf).2.1⟩
  unfold correlate
  rw [hc]

end Correlate
end Portcall.Truststore
