import Mathlib.Data.List.NodupEquivFin
import Portcall.Tls.PublicRoots

/-! What the walk along issuer names is: which links it follows, that it never returns, where
it stops, and which certificates of the chain it depends on. -/
namespace Portcall.Tls
variable (ext : Externals)

/-- Certificate `i` names the subject of certificate `j` as its issuer and is not self-signed. -/
def Link (chain : List X509Certificate) (i j : ℕ) : Prop :=
  ∃ a b, chain[i]? = some a ∧ chain[j]? = some b ∧
    subjectDn ext a ≠ issuerDn ext a ∧ subjectDn ext b = issuerDn ext a

/-- The walk's choice, for a chain. -/
def nextOf (chain : List X509Certificate) : List ℕ → ℕ → Option ℕ :=
  nextIndex (chain.map (subjectDn ext)) (chain.map (issuerDn ext))

/-- The certificates on the leaf's issuance path, leaf first. -/
def pathCertificates (chain : List X509Certificate) : List X509Certificate :=
  (issuancePath ext chain).filterMap (chain[·]?)

variable {ext} {chain : List X509Certificate}

lemma Link.lt_right {i j : ℕ} (h : Link ext chain i j) : j < chain.length := by
  obtain ⟨a, b, -, hb, -⟩ := h
  exact (List.getElem?_eq_some_iff.mp hb).1

lemma link_iff_of_getElem? {i j : ℕ} {a : X509Certificate} (ha : chain[i]? = some a)
    (hself : subjectDn ext a ≠ issuerDn ext a) :
    Link ext chain i j ↔ (chain.map (subjectDn ext))[j]? = some (issuerDn ext a) := by
  simp only [List.getElem?_map, Option.map_eq_some_iff]
  constructor
  · rintro ⟨a', b, ha', hb, -, he⟩
    rw [ha, Option.some.injEq] at ha'
    exact ⟨b, hb, ha' ▸ he⟩
  · rintro ⟨b, hb, he⟩
    exact ⟨a, b, ha, hb, hself, he⟩

/-- The choice fails exactly when every certificate linked to has been visited. -/
theorem nextOf_eq_none_iff (visited : List ℕ) (i : ℕ) :
    nextOf ext chain visited i = none ↔ ∀ j, Link ext chain i j → j ∈ visited := by
  rw [nextOf, nextIndex, List.getElem?_map]
  cases ha : chain[i]? with
  | none =>
    simp only [Option.map_none, true_iff]
    rintro j ⟨a, b, ha', -⟩
    simp [ha] at ha'
  | some a =>
    simp only [Option.map_some, List.getElem?_map, ha, Option.some.injEq]
    split_ifs with hself
    · simp only [true_iff]
      rintro j ⟨a', b, ha', -, hne, -⟩
      rw [ha, Option.some.injEq] at ha'
      exact absurd hself (ha' ▸ hne)
    · simp only [List.find?_eq_none, List.mem_range, Bool.and_eq_true, decide_eq_true_eq,
        Bool.not_eq_true', List.contains_eq_mem, decide_eq_false_iff_not, not_and, not_not]
      refine ⟨fun h j hl => ?_, fun h j _ hj => ?_⟩
      · have hj := (link_iff_of_getElem? ha hself).mp hl
        exact h j (by simpa using hl.lt_right) (by simpa using hj)
      · exact h j ((link_iff_of_getElem? ha hself).mpr (by simpa using hj))

/-- The choice is the first unvisited certificate linked to. -/
theorem nextOf_eq_some_iff (visited : List ℕ) (i j : ℕ) :
    nextOf ext chain visited i = some j ↔
      Link ext chain i j ∧ j ∉ visited ∧ ∀ k < j, Link ext chain i k → k ∈ visited := by
  rw [nextOf, nextIndex, List.getElem?_map]
  cases ha : chain[i]? with
  | none =>
    simp only [Option.map_none, reduceCtorEq, false_iff]
    rintro ⟨⟨a, b, ha', -⟩, -⟩
    simp [ha] at ha'
  | some a =>
    simp only [Option.map_some, List.getElem?_map, ha, Option.some.injEq]
    split_ifs with hself
    · simp only [false_iff]
      rintro ⟨⟨a', b, ha', -, hne, -⟩, -⟩
      rw [ha, Option.some.injEq] at ha'
      exact hne (ha' ▸ hself)
    · have hlink := fun k => link_iff_of_getElem? (j := k) ha hself
      simp only [List.getElem?_map] at hlink
      simp only [List.find?_range_eq_some, Bool.and_eq_true, decide_eq_true_eq,
        Bool.not_eq_true', List.contains_eq_mem, decide_eq_false_iff_not, Bool.and_eq_false_iff,
        ← hlink, List.mem_range]
      constructor
      · rintro ⟨⟨hl, hv⟩, -, hmin⟩
        refine ⟨hl, hv, fun k hk hlk => ?_⟩
        have hm := hmin k hk
        simp only [hlk, Bool.not_eq_eq_eq_not] at hm
        simpa using hm
      · rintro ⟨hl, hv, hmin⟩
        refine ⟨⟨hl, hv⟩, by simpa using hl.lt_right, fun k hk => ?_⟩
        by_cases hlk : Link ext chain i k
        · simp [hmin k hk hlk]
        · simp [hlk]

lemma nextOf_fresh : Walk.Fresh (nextOf ext chain) :=
  fun _ _ _ h => ((nextOf_eq_some_iff _ _ _).mp h).2.1

lemma issuancePath_eq_walk (hne : chain ≠ []) :
    issuancePath ext chain = Walk.walk (nextOf ext chain) (chain.length + 1) [] 0 := by
  rw [issuancePath, if_neg (by simpa using hne)]
  rfl

@[simp] lemma issuancePath_nil : issuancePath ext [] = [] := rfl

/-- The path starts at the leaf. -/
theorem head?_issuancePath (hne : chain ≠ []) : (issuancePath ext chain).head? = some 0 := by
  rw [issuancePath_eq_walk hne, Walk.head?_walk]

/-- A self-signed leaf leads to nothing else. -/
lemma issuancePath_of_selfSigned {leaf : X509Certificate} {rest : List X509Certificate}
    (hself : subjectDn ext leaf = issuerDn ext leaf) : issuancePath ext (leaf :: rest) = [0] := by
  rw [issuancePath_eq_walk (List.cons_ne_nil _ _)]
  refine Walk.walk_stop ((nextOf_eq_none_iff _ _).mpr ?_) _
  rintro j ⟨a, b, ha, -, hne, -⟩
  cases ha
  exact absurd hself hne

/-- No certificate is visited twice. -/
theorem issuancePath_nodup : (issuancePath ext chain).Nodup := by
  by_cases hne : chain = []
  · simp [hne]
  · rw [issuancePath_eq_walk hne]
    exact (Walk.walk_fresh nextOf_fresh _ _ _ List.not_mem_nil).1

/-- Consecutive certificates are linked, issuer name to subject name. -/
theorem isChain_issuancePath : (issuancePath ext chain).IsChain (Link ext chain) := by
  by_cases hne : chain = []
  · simp [hne]
  · rw [issuancePath_eq_walk hne]
    refine @Walk.isChain_walk _ (nextOf ext chain) _ ?_ _ _ _
    exact fun _ _ _ h => ((nextOf_eq_some_iff _ _ _).mp h).1

lemma lt_of_mem_issuancePath {i : ℕ} (h : i ∈ issuancePath ext chain) : i < chain.length := by
  by_cases hne : chain = []
  · simp [hne] at h
  · rw [issuancePath_eq_walk hne] at h
    refine Walk.forall_mem_walk (P := (· < chain.length)) ?_ _ _ _ ?_ i h
    · exact fun _ _ _ _ hc => ((nextOf_eq_some_iff _ _ _).mp hc).1.lt_right
    · exact List.length_pos_iff.mpr hne

lemma length_issuancePath_le : (issuancePath ext chain).length ≤ chain.length := by
  have hsub : issuancePath ext chain ⊆ List.range chain.length :=
    fun i hi => List.mem_range.mpr (lt_of_mem_issuancePath hi)
  simpa using (List.subperm_of_subset issuancePath_nodup hsub).length_le

/-- The walk stops only where every certificate linked to has been visited. -/
theorem issuancePath_ended (hne : chain ≠ []) :
    ∃ last, (issuancePath ext chain).getLast? = some last ∧
      ∀ j, Link ext chain last j → j ∈ issuancePath ext chain := by
  have hlen := @length_issuancePath_le ext chain
  rw [issuancePath_eq_walk hne] at hlen ⊢
  obtain ⟨last, hlast, hnone⟩ :=
    @Walk.walk_ended _ (nextOf ext chain) _ [] 0 (by omega : _ < chain.length + 1)
  refine ⟨last, hlast, fun j hj => ?_⟩
  simpa using (nextOf_eq_none_iff _ _).mp hnone j hj

end Portcall.Tls
