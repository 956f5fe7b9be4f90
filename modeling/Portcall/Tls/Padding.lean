import Portcall.Tls.Reading

/-! Padding: certificates off the issuance path can be deleted, and certificates nothing on it
names can be appended, without any change to what is read off the path. -/
namespace Portcall.Tls

/-- The chain with the certificates at the dropped positions deleted. -/
def withoutIndices (drop : ℕ → Bool) (chain : List X509Certificate) : List X509Certificate :=
  ((List.range chain.length).filter (fun i => !drop i)).filterMap (chain[·]?)

variable {ext : Externals} {chain : List X509Certificate} {drop : ℕ → Bool}

section Kept

/-- The positions kept, in order. -/
private def keptIndices (drop : ℕ → Bool) (chain : List X509Certificate) : List ℕ :=
  (List.range chain.length).filter (fun i => !drop i)

/-- Where the certificate at position `j` of the shortened chain came from. -/
private def origin (drop : ℕ → Bool) (chain : List X509Certificate) (j : ℕ) : ℕ :=
  (keptIndices drop chain).getD j chain.length

private lemma mem_keptIndices {i : ℕ} :
    i ∈ keptIndices drop chain ↔ i < chain.length ∧ drop i = false := by
  simp [keptIndices]

private lemma pairwise_keptIndices : (keptIndices drop chain).Pairwise (· < ·) :=
  List.pairwise_lt_range.filter _

private lemma withoutIndices_eq_map_getElem? :
    (withoutIndices drop chain).map some = (keptIndices drop chain).map (chain[·]?) := by
  have h : ∀ l : List ℕ, (∀ i ∈ l, i < chain.length) →
      (l.filterMap (chain[·]?)).map some = l.map (chain[·]?) := by
    intro l
    induction l with
    | nil => intro _; rfl
    | cons i l ih =>
      intro hl
      have hi := List.getElem?_eq_getElem (hl i List.mem_cons_self)
      rw [List.filterMap_cons, hi, List.map_cons, List.map_cons, hi,
        ih fun k hk => hl k (List.mem_cons_of_mem _ hk)]
  exact h _ fun i hi => (mem_keptIndices.mp hi).1

private lemma length_withoutIndices :
    (withoutIndices drop chain).length = (keptIndices drop chain).length := by
  simpa using congrArg List.length (@withoutIndices_eq_map_getElem? chain drop)

private lemma origin_eq_getElem {j : ℕ} (hj : j < (keptIndices drop chain).length) :
    origin drop chain j = (keptIndices drop chain)[j] := by
  simp [origin, hj]

private lemma getElem?_withoutIndices {j : ℕ} (hj : j < (keptIndices drop chain).length) :
    (withoutIndices drop chain)[j]? = chain[origin drop chain j]? := by
  have h := congrArg (·[j]?) (@withoutIndices_eq_map_getElem? chain drop)
  simp only [List.getElem?_map, List.getElem?_eq_getElem hj, Option.map_some] at h
  rw [origin_eq_getElem hj]
  cases hw : (withoutIndices drop chain)[j]? with
  | none => rw [hw] at h; simp at h
  | some c => rw [hw] at h; simpa using h

private lemma origin_lt_origin {i j : ℕ} (hij : i < j) (hj : j < (keptIndices drop chain).length) :
    origin drop chain i < origin drop chain j := by
  rw [origin_eq_getElem hj, origin_eq_getElem (hij.trans hj)]
  exact List.pairwise_iff_getElem.mp pairwise_keptIndices i j (hij.trans hj) hj hij

private lemma origin_inj {i j : ℕ} (hi : i < (keptIndices drop chain).length)
    (hj : j < (keptIndices drop chain).length) (h : origin drop chain i = origin drop chain j) :
    i = j := by
  rcases Nat.lt_trichotomy i j with hlt | heq | hgt
  · exact absurd h (origin_lt_origin hlt hj).ne
  · exact heq
  · exact absurd h (origin_lt_origin hgt hi).ne'

private lemma exists_origin {i : ℕ} (hi : i < chain.length) (hd : drop i = false) :
    ∃ j < (keptIndices drop chain).length, origin drop chain j = i := by
  obtain ⟨j, hj, he⟩ := List.getElem_of_mem (mem_keptIndices.mpr ⟨hi, hd⟩)
  exact ⟨j, hj, (origin_eq_getElem hj).trans he⟩

private lemma link_withoutIndices {i j : ℕ} (hi : i < (keptIndices drop chain).length)
    (hj : j < (keptIndices drop chain).length) :
    Link ext (withoutIndices drop chain) i j ↔
      Link ext chain (origin drop chain i) (origin drop chain j) := by
  simp only [Link, getElem?_withoutIndices hi, getElem?_withoutIndices hj]

/-- One step of the two walks: where the full chain's walk keeps to kept certificates, the
shortened chain's walk makes the same choice. -/
private lemma nextOf_withoutIndices (visited : List ℕ) (i : ℕ)
    (hi : i < (keptIndices drop chain).length)
    (hv : ∀ k ∈ visited, k < (keptIndices drop chain).length)
    (hkept : ∀ b, nextOf ext chain (visited.map (origin drop chain)) (origin drop chain i) =
      some b → drop b = false) :
    nextOf ext chain (visited.map (origin drop chain)) (origin drop chain i) =
      (nextOf ext (withoutIndices drop chain) visited i).map (origin drop chain) := by
  have hvisited : ∀ k < (keptIndices drop chain).length,
      origin drop chain k ∈ visited.map (origin drop chain) ↔ k ∈ visited := by
    intro k hk
    refine ⟨fun hm => ?_, List.mem_map_of_mem⟩
    obtain ⟨k', hk', he⟩ := List.mem_map.mp hm
    exact origin_inj (hv k' hk') hk he ▸ hk'
  have hbound : ∀ {k}, Link ext (withoutIndices drop chain) i k →
      k < (keptIndices drop chain).length :=
    fun hl => length_withoutIndices ▸ hl.lt_right
  cases hn : nextOf ext chain (visited.map (origin drop chain)) (origin drop chain i) with
  | none =>
    rw [nextOf_eq_none_iff] at hn
    symm
    rw [Option.map_eq_none_iff, nextOf_eq_none_iff]
    intro k hl
    have hk := hbound hl
    exact (hvisited k hk).mp (hn _ ((link_withoutIndices hi hk).mp hl))
  | some b =>
    obtain ⟨hl, hnv, hmin⟩ := (nextOf_eq_some_iff _ _ _).mp hn
    obtain ⟨j, hj, rfl⟩ := exists_origin hl.lt_right (hkept b hn)
    symm
    rw [Option.map_eq_some_iff]
    refine ⟨j, (nextOf_eq_some_iff _ _ _).mpr ⟨(link_withoutIndices hi hj).mpr hl, ?_, ?_⟩, rfl⟩
    · exact fun hm => hnv ((hvisited j hj).mpr hm)
    · intro k hkj hlk
      have hk := hbound hlk
      exact (hvisited k hk).mp
        (hmin _ (origin_lt_origin hkj hj) ((link_withoutIndices hi hk).mp hlk))

/-- The leaf is on the path, so it is kept, and it stays first. -/
private lemma origin_zero (hne : chain ≠ [])
    (hdrop : ∀ i ∈ issuancePath ext chain, drop i = false) :
    0 < (keptIndices drop chain).length ∧ origin drop chain 0 = 0 := by
  have h0 : drop 0 = false := hdrop 0 (List.mem_of_mem_head? (head?_issuancePath hne))
  obtain ⟨j, hj, he⟩ := exists_origin (List.length_pos_iff.mpr hne) h0
  rcases Nat.eq_zero_or_pos j with rfl | hpos
  · exact ⟨hj, he⟩
  · exact absurd (origin_lt_origin hpos hj) (by omega)

end Kept

/-- Deleting certificates off the path leaves the path's certificates as they were. -/
theorem pathCertificates_withoutIndices (hne : chain ≠ [])
    (hdrop : ∀ i ∈ issuancePath ext chain, drop i = false) :
    pathCertificates ext (withoutIndices drop chain) = pathCertificates ext chain := by
  obtain ⟨hpos, h0⟩ := origin_zero hne hdrop
  have hlen := @length_withoutIndices chain drop
  have hne' : withoutIndices drop chain ≠ [] := List.length_pos_iff.mp (hlen ▸ hpos)
  have hle : (keptIndices drop chain).length ≤ chain.length := by
    simpa [keptIndices] using List.length_filter_le (fun i => !drop i) (List.range chain.length)
  have hshort := @length_issuancePath_le ext (withoutIndices drop chain)
  have hwalk : issuancePath ext chain =
      (issuancePath ext (withoutIndices drop chain)).map (origin drop chain) := by
    have hmap := @Walk.walk_map _ _ (nextOf ext (withoutIndices drop chain)) (nextOf ext chain)
      (origin drop chain) (· < (keptIndices drop chain).length) (fun b => drop b = false)
      (fun visited i hi hv hk => nextOf_withoutIndices visited i hi hv hk)
      (fun _ _ _ h => hlen ▸ ((nextOf_eq_some_iff _ _ _).mp h).1.lt_right)
      (chain.length + 1) [] 0 hpos (by simp)
    rw [List.map_nil, h0, ← issuancePath_eq_walk hne] at hmap
    rw [hmap hdrop]
    rw [issuancePath_eq_walk hne'] at hshort ⊢
    obtain ⟨spare, hspare⟩ : ∃ spare, chain.length + 1 =
        (withoutIndices drop chain).length + 1 + spare :=
      ⟨chain.length - (withoutIndices drop chain).length, by omega⟩
    rw [hspare, Walk.walk_add_fuel _ spare _ _ (by omega)]
  rw [pathCertificates, pathCertificates, hwalk, List.filterMap_map]
  refine List.filterMap_congr fun j hj => ?_
  exact getElem?_withoutIndices (hlen ▸ lt_of_mem_issuancePath hj)

section Appended
variable {extra : List X509Certificate}

lemma link_append_left {i j : ℕ} (hi : i < chain.length) (hj : j < chain.length) :
    Link ext (chain ++ extra) i j ↔ Link ext chain i j := by
  simp only [Link, List.getElem?_append_left hi, List.getElem?_append_left hj]

/-- Whatever is appended, the walk first follows the whole path it had. -/
theorem issuancePath_extends (hne : chain ≠ []) :
    issuancePath ext chain <+: issuancePath ext (chain ++ extra) := by
  rw [issuancePath_eq_walk hne, issuancePath_eq_walk (List.append_ne_nil_of_left_ne_nil hne _)]
  refine Walk.walk_extends (P := (· < chain.length)) ?_ _ _ _ _ (List.length_pos_iff.mpr hne)
    (by simp)
  intro visited i j hi hn
  obtain ⟨hl, hv, hmin⟩ := (nextOf_eq_some_iff _ _ _).mp hn
  have hj := hl.lt_right
  refine ⟨(nextOf_eq_some_iff _ _ _).mpr ⟨(link_append_left hi hj).mpr hl, hv, ?_⟩, hj⟩
  exact fun k hk hlk => hmin k hk ((link_append_left hi (hk.trans hj)).mp hlk)

/-- Where the walk goes on after its old end, it goes to an appended certificate. -/
lemma issuancePath_continues {last i : ℕ} {rest : List ℕ}
    (hrest : issuancePath ext chain ++ i :: rest = issuancePath ext (chain ++ extra))
    (hlast : (issuancePath ext chain).getLast? = some last) :
    Link ext (chain ++ extra) last i ∧ chain.length ≤ i := by
  have hne : chain ≠ [] := by
    rintro rfl
    simp at hlast
  have hchain := @isChain_issuancePath ext (chain ++ extra)
  have hnodup := @issuancePath_nodup ext (chain ++ extra)
  rw [← hrest] at hchain hnodup
  have hl : Link ext (chain ++ extra) last i :=
    (List.isChain_append.mp hchain).2.2 last hlast i rfl
  refine ⟨hl, Nat.le_of_not_lt fun hi => ?_⟩
  obtain ⟨last', hlast', hended⟩ := @issuancePath_ended ext _ hne
  rw [hlast, Option.some.injEq] at hlast'
  have hmem := hended i (hlast' ▸ (link_append_left
    (lt_of_mem_issuancePath (List.mem_of_getLast? hlast)) hi).mp hl)
  exact (List.nodup_append.mp hnodup).2.2 i hmem i List.mem_cons_self rfl

/-- Appending certificates nothing on the path names leaves its certificates as they were. -/
theorem pathCertificates_append (hne : chain ≠ [])
    (hextra : ∀ certificate ∈ pathCertificates ext chain, ∀ added ∈ extra,
      subjectDn ext added ≠ issuerDn ext certificate) :
    pathCertificates ext (chain ++ extra) = pathCertificates ext chain := by
  obtain ⟨rest, hrest⟩ := @issuancePath_extends ext _ extra hne
  obtain ⟨last, hlast, -⟩ := @issuancePath_ended ext _ hne
  have hmem := List.mem_of_getLast? hlast
  have hlt := lt_of_mem_issuancePath hmem
  cases rest with
  | nil =>
    rw [pathCertificates, pathCertificates, ← hrest, List.append_nil]
    refine List.filterMap_congr fun i hi => ?_
    exact List.getElem?_append_left (lt_of_mem_issuancePath hi)
  | cons i rest =>
    obtain ⟨⟨a, b, ha, hb, -, he⟩, hi⟩ := issuancePath_continues hrest hlast
    rw [List.getElem?_append_left hlt] at ha
    rw [List.getElem?_append_right hi] at hb
    exact absurd he (hextra a (mem_pathCertificates.mpr ⟨last, hmem, ha⟩) b
      (List.mem_of_getElem? hb))

end Appended
end Portcall.Tls
