import Portcall.Tls.PathVerdict

/-! The walk without indices: which certificates a name leads to in a list. The walk by index
over the presented chain is shown to be this one. -/
namespace Portcall.Tls
variable (ext : Externals)

/-- The certificates a name leads to: the first one that bears it and, unless that one is
self-signed, those that its issuer's name leads to among the others. -/
def ledTo (dn : String) (certificates : List X509Certificate) : List X509Certificate :=
  match _h : certificates.find? (fun certificate => subjectDn ext certificate = dn) with
  | none => []
  | some certificate =>
    certificate ::
      if subjectDn ext certificate = issuerDn ext certificate then []
      else ledTo (issuerDn ext certificate)
        (certificates.eraseP (fun certificate => subjectDn ext certificate = dn))
termination_by certificates.length
decreasing_by
  have hm := List.mem_of_find?_eq_some _h
  have hp := List.find?_some _h
  rw [List.length_eraseP_of_mem hm hp]
  have := List.length_pos_of_mem hm
  omega

/-- Where the walk goes after a certificate, among the ones it has not visited. -/
def onward (certificate : X509Certificate) (others : List X509Certificate) :
    List X509Certificate :=
  if subjectDn ext certificate = issuerDn ext certificate then []
  else ledTo ext (issuerDn ext certificate) others

/-- The certificates not visited yet, in the order presented. -/
def unvisited (visited : List ℕ) (chain : List X509Certificate) : List X509Certificate :=
  withoutIndices (fun i => visited.contains i) chain

variable {ext} {chain : List X509Certificate}

lemma ledTo_of_find?_eq_none {dn : String} {certificates : List X509Certificate}
    (h : certificates.find? (fun certificate => subjectDn ext certificate = dn) = none) :
    ledTo ext dn certificates = [] := by
  rw [ledTo]
  split
  · rfl
  · rename_i h'
    rw [h] at h'
    cases h'

lemma ledTo_of_find?_eq_some {dn : String} {certificates : List X509Certificate}
    {certificate : X509Certificate}
    (h : certificates.find? (fun certificate => subjectDn ext certificate = dn) =
      some certificate) :
    ledTo ext dn certificates = certificate :: onward ext certificate
      (certificates.eraseP (fun certificate => subjectDn ext certificate = dn)) := by
  rw [ledTo]
  split
  · rename_i h'
    rw [h] at h'
    cases h'
  · rename_i found h'
    rw [h] at h'
    cases h'
    rfl

section Lists
variable {α β : Type*}

private lemma find?_filterMap_of_isSome {g : α → Option β} (p : β → Bool) {l : List α}
    (hg : ∀ a ∈ l, (g a).isSome) :
    (l.filterMap g).find? p = (l.find? (fun a => (g a).any p)).bind g := by
  induction l with
  | nil => rfl
  | cons a l ih =>
    obtain ⟨b, hb⟩ := Option.isSome_iff_exists.mp (hg a List.mem_cons_self)
    have ih := ih fun x hx => hg x (List.mem_cons_of_mem _ hx)
    rw [List.filterMap_cons, hb, List.find?_cons, List.find?_cons, hb, Option.any_some, ih]
    cases p b with
    | true => simp [hb]
    | false => rfl

private lemma eraseP_filterMap_of_isSome {g : α → Option β} (p : β → Bool) {l : List α}
    (hg : ∀ a ∈ l, (g a).isSome) :
    (l.filterMap g).eraseP p = (l.eraseP (fun a => (g a).any p)).filterMap g := by
  induction l with
  | nil => rfl
  | cons a l ih =>
    obtain ⟨b, hb⟩ := Option.isSome_iff_exists.mp (hg a List.mem_cons_self)
    have ih := ih fun x hx => hg x (List.mem_cons_of_mem _ hx)
    rw [List.filterMap_cons, hb, List.eraseP_cons, List.eraseP_cons, hb, Option.any_some, ih]
    cases p b with
    | true => rfl
    | false => simp [hb]

private lemma eraseP_eq_filter [DecidableEq α] {p : α → Bool} {l : List α} {a : α}
    (hnd : l.Nodup) (h : l.find? p = some a) : l.eraseP p = l.filter (fun b => b ≠ a) := by
  induction l with
  | nil => simp at h
  | cons b l ih =>
    obtain ⟨hb, hnd⟩ := List.nodup_cons.mp hnd
    rw [List.find?_cons] at h
    rw [List.eraseP_cons]
    cases hp : p b with
    | true =>
      rw [hp, Option.some.injEq] at h
      subst h
      rw [List.filter_cons_of_neg (by simp), cond_true]
      refine (List.filter_eq_self.mpr fun x hx => decide_eq_true ?_).symm
      rintro rfl
      exact hb hx
    | false =>
      rw [hp] at h
      have hba : b ≠ a := fun e => hb (e ▸ List.mem_of_find?_eq_some h)
      rw [List.filter_cons_of_pos (by simpa using hba), cond_false, ih hnd h]

end Lists

/-- The indices not visited, in order. -/
private def free (visited : List ℕ) (chain : List X509Certificate) : List ℕ :=
  (List.range chain.length).filter (fun i => !visited.contains i)

private lemma isSome_of_mem_free {visited : List ℕ} :
    ∀ i ∈ free visited chain, (chain[i]?).isSome := by
  intro i hi
  rw [List.getElem?_eq_getElem (List.mem_range.mp (List.mem_filter.mp hi).1)]
  rfl

private lemma free_cons {visited : List ℕ} {j : ℕ} :
    free (j :: visited) chain = (free visited chain).filter (fun i => i ≠ j) := by
  rw [free, free, List.filter_filter]
  refine List.filter_congr fun i _ => ?_
  simp only [List.contains_cons, Bool.not_or]
  by_cases hij : i = j <;> simp [hij]

private lemma nextOf_eq_find? {visited : List ℕ} {i : ℕ} {certificate : X509Certificate}
    (hi : chain[i]? = some certificate)
    (hself : subjectDn ext certificate ≠ issuerDn ext certificate) :
    nextOf ext chain visited i = (free visited chain).find? fun k =>
      (chain[k]?).any fun other => subjectDn ext other = issuerDn ext certificate := by
  simp only [nextOf, nextIndex, List.getElem?_map, hi, Option.map_some, Option.some.injEq,
    if_neg hself, List.length_map]
  rw [free, List.find?_filter]
  congr 1
  funext k
  cases chain[k]? with
  | none => simp
  | some other => simp [Bool.and_comm]

/-- One step of the walk, both ways: what is chosen is the first unvisited certificate that
bears the name, and what stays unvisited is the list without it. -/
private lemma nextOf_step {visited : List ℕ} {i : ℕ} {certificate : X509Certificate}
    (hi : chain[i]? = some certificate)
    (hself : subjectDn ext certificate ≠ issuerDn ext certificate) :
    (unvisited visited chain).find? (fun other => subjectDn ext other = issuerDn ext certificate) =
        (nextOf ext chain visited i).bind (chain[·]?) ∧
      ∀ j, nextOf ext chain visited i = some j →
        unvisited (j :: visited) chain = (unvisited visited chain).eraseP
          (fun other => subjectDn ext other = issuerDn ext certificate) := by
  have hnext := @nextOf_eq_find? ext chain visited _ _ hi hself
  have hsome := @isSome_of_mem_free chain visited
  refine ⟨?_, fun j hj => ?_⟩
  · rw [hnext]
    exact find?_filterMap_of_isSome _ hsome
  · rw [hnext] at hj
    have hnd : (free visited chain).Nodup := List.nodup_range.filter _
    have herase := eraseP_filterMap_of_isSome (g := (chain[·]?))
      (fun other => subjectDn ext other = issuerDn ext certificate) hsome
    rw [eraseP_eq_filter hnd hj, ← free_cons] at herase
    exact herase.symm

/-- Where the walk chooses nothing, the names lead nowhere. -/
lemma onward_of_nextOf_eq_none {visited : List ℕ} {i : ℕ} {certificate : X509Certificate}
    (hi : chain[i]? = some certificate) (hn : nextOf ext chain visited i = none) :
    onward ext certificate (unvisited visited chain) = [] := by
  rw [onward]
  split_ifs with hself
  · rfl
  · have hfind := (@nextOf_step ext chain visited _ _ hi hself).1
    rw [hn, Option.bind_none] at hfind
    exact ledTo_of_find?_eq_none hfind

/-- Where the walk chooses a certificate, the names lead to it and go on from there. -/
lemma onward_of_nextOf_eq_some {visited : List ℕ} {i j : ℕ} {certificate : X509Certificate}
    (hi : chain[i]? = some certificate) (hn : nextOf ext chain visited i = some j) :
    ∃ next, chain[j]? = some next ∧
      onward ext certificate (unvisited visited chain) =
        next :: onward ext next (unvisited (j :: visited) chain) ∧
      (unvisited (j :: visited) chain).length < (unvisited visited chain).length := by
  obtain ⟨⟨a, next, ha, hj, hself, -⟩, -⟩ := (nextOf_eq_some_iff _ _ _).mp hn
  rw [hi, Option.some.injEq] at ha
  subst ha
  obtain ⟨hfind, herase⟩ := @nextOf_step ext chain visited _ _ hi hself
  have herase := herase j hn
  rw [hn, Option.bind_some, hj] at hfind
  have hm := List.mem_of_find?_eq_some hfind
  refine ⟨next, hj, ?_, ?_⟩
  · rw [onward, if_neg hself, ledTo_of_find?_eq_some hfind, herase]
  · have hpos := List.length_pos_of_mem hm
    rw [herase, List.length_eraseP_of_mem hm (List.find?_some hfind)]
    omega

/-- The walk from any point, with any past: the certificates it meets are the ones its names
lead to among the unvisited. -/
theorem filterMap_walk : ∀ (fuel : ℕ) (visited : List ℕ) (i : ℕ) (certificate : X509Certificate),
    chain[i]? = some certificate → (unvisited (i :: visited) chain).length < fuel →
    (Walk.walk (nextOf ext chain) fuel visited i).filterMap (chain[·]?) =
      certificate :: onward ext certificate (unvisited (i :: visited) chain) := by
  intro fuel
  induction fuel with
  | zero => intro visited i certificate _ h; simp at h
  | succ fuel ih =>
    intro visited i certificate hi hfuel
    cases hn : nextOf ext chain (i :: visited) i with
    | none =>
      rw [Walk.walk_stop hn, onward_of_nextOf_eq_none hi hn]
      simp [hi]
    | some j =>
      obtain ⟨next, hj, honward, hlen⟩ := onward_of_nextOf_eq_some hi hn
      rw [Walk.walk_go hn, List.filterMap_cons, hi, honward]
      exact congrArg (certificate :: ·) (ih _ _ _ hj (by omega))

lemma length_unvisited_le (visited : List ℕ) :
    (unvisited visited chain).length ≤ chain.length := by
  rw [unvisited, withoutIndices]
  refine (List.length_filterMap_le _ _).trans ((List.length_filter_le _ _).trans ?_)
  simp

private lemma filterMap_range_getElem? {α : Type*} (l : List α) :
    (List.range l.length).filterMap (l[·]?) = l := by
  induction l with
  | nil => rfl
  | cons a l ih =>
    rw [List.length_cons, List.range_succ_eq_map, List.filterMap_cons, List.filterMap_map]
    exact congrArg (a :: ·) ih

/-- The path's certificates: the leaf, then what its issuer's name leads to among the rest. -/
theorem pathCertificates_cons (leaf : X509Certificate) (rest : List X509Certificate) :
    pathCertificates ext (leaf :: rest) = leaf :: onward ext leaf rest := by
  have hrest : unvisited [0] (leaf :: rest) = rest := by
    have hrange : (List.range (rest.length + 1)).filter (fun i => !([0].contains i)) =
        (List.range rest.length).map Nat.succ := by
      rw [List.range_succ_eq_map, List.filter_cons_of_neg (by simp), List.filter_eq_self]
      simp
    rw [unvisited, withoutIndices, List.length_cons, hrange, List.filterMap_map]
    exact filterMap_range_getElem? rest
  have hwalk := @filterMap_walk ext (leaf :: rest) ((leaf :: rest).length + 1)
    [] 0 leaf rfl (Nat.lt_succ_of_le (length_unvisited_le _))
  rw [pathCertificates, issuancePath_eq_walk (List.cons_ne_nil _ _), hwalk, hrest]

end Portcall.Tls
