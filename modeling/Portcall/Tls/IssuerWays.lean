import Portcall.Library.Ways
import Portcall.Tls.Leading

/-! The issuance path among the ways along issuers' names: it takes the first certificate each time,
and every way is the path of the same certificates in some order. -/
namespace Portcall.Tls
open Ways
variable (ext : Externals)

/-- The certificate is not self-signed, and the other one bears its issuer's name. -/
def IssuedBy (certificate issuer : X509Certificate) : Prop :=
  subjectDn ext certificate ≠ issuerDn ext certificate ∧
    subjectDn ext issuer = issuerDn ext certificate

/-- The class `classifyRoot` reports for a chain. -/
def rootClassOf (roots : CertificateIndex) (chain : List X509Certificate) : Option RootClass :=
  (classifyRoot ext chain roots).map RootVerdict.rootClass

variable {ext} {roots : CertificateIndex} {leaf : X509Certificate} {rest way : List X509Certificate}

/-- From a certificate the names lead nowhere, or to the first of the others that bears its issuer's
name and on from there. -/
lemma stuck_or_takesFirst (leaf : X509Certificate) (rest : List X509Certificate) :
    ((∀ other ∈ rest, ¬IssuedBy ext leaf other) ∧ onward ext leaf rest = []) ∨
      ∃ next left, TakesFirst (IssuedBy ext) (leaf, rest) (next, left) ∧
        onward ext leaf rest = next :: onward ext next left := by
  by_cases hself : subjectDn ext leaf = issuerDn ext leaf
  · exact Or.inl ⟨fun _ _ h => h.1 hself, by rw [onward, if_pos hself]⟩
  have hissued : ∀ other, IssuedBy ext leaf other ↔ subjectDn ext other = issuerDn ext leaf :=
    fun other => and_iff_right hself
  rw [onward, if_neg hself]
  cases hfind : rest.find? (fun other => subjectDn ext other = issuerDn ext leaf) with
  | none =>
    refine Or.inl ⟨fun other hm h => ?_, ledTo_of_find?_eq_none hfind⟩
    simpa [(hissued other).mp h] using List.find?_eq_none.mp hfind other hm
  | some next =>
    obtain ⟨hnext, before, after, rfl, hbefore⟩ := List.find?_eq_some_iff_append.mp hfind
    have hnext : subjectDn ext next = issuerDn ext leaf := by simpa using hnext
    have hbefore : ∀ other ∈ before, subjectDn ext other ≠ issuerDn ext leaf := by
      simpa using hbefore
    refine Or.inr ⟨next, before ++ after, ⟨before, after, rfl, rfl, (hissued next).mpr hnext,
      fun other hm h => hbefore other hm ((hissued other).mp h)⟩, ?_⟩
    rw [ledTo_of_find?_eq_some hfind, List.eraseP_append_right _ (by simpa using hbefore),
      List.eraseP_cons_of_pos (by simpa using hnext)]

lemma length_of_takesFirst {next : X509Certificate} {left : List X509Certificate}
    (h : TakesFirst (IssuedBy ext) (leaf, rest) (next, left)) : left.length < rest.length := by
  obtain ⟨before, after, hsplit, hleft, -⟩ := h
  rw [show rest = _ from hsplit, show left = _ from hleft]
  simp

/-- The path's certificates are those come to by taking the first one each time. -/
theorem mem_path_iff {certificate : X509Certificate} : certificate ∈ leaf :: onward ext leaf rest ↔
    ∃ left, Walks (IssuedBy ext) (leaf, rest) (certificate, left) := by
  induction hn : rest.length using Nat.strong_induction_on generalizing leaf rest with
  | _ n ih =>
    rcases stuck_or_takesFirst leaf rest with ⟨hstuck, honward⟩ | ⟨next, left, htakes, honward⟩
    · rw [honward, List.mem_singleton]
      constructor
      · rintro rfl
        exact ⟨rest, .refl⟩
      · rintro ⟨left, hwalk⟩
        rcases Relation.ReflTransGen.cases_head hwalk with heq | ⟨_, htakes, -⟩
        · exact (Prod.mk.inj heq).1.symm
        · exact absurd htakes (not_takesFirst_of_stuck hstuck)
    · rw [honward, List.mem_cons, ih _ (hn ▸ length_of_takesFirst htakes) rfl]
      constructor
      · rintro (rfl | ⟨left', hwalk⟩)
        · exact ⟨rest, .refl⟩
        · exact ⟨left', .head htakes hwalk⟩
      · rintro ⟨left', hwalk⟩
        rcases Relation.ReflTransGen.cases_head hwalk with heq | ⟨q, htakes', hwalk⟩
        · exact Or.inl (Prod.mk.inj heq).1.symm
        · rw [takesFirst_unique htakes' htakes] at hwalk
          exact Or.inr ⟨left', hwalk⟩

/-- Its last certificate is the one where nothing more can be taken. -/
theorem getLast?_path_iff {certificate : X509Certificate} :
    (leaf :: onward ext leaf rest).getLast? = some certificate ↔
      ∃ left, Walks (IssuedBy ext) (leaf, rest) (certificate, left) ∧
        ∀ other ∈ left, ¬IssuedBy ext certificate other := by
  induction hn : rest.length using Nat.strong_induction_on generalizing leaf rest with
  | _ n ih =>
    rcases stuck_or_takesFirst leaf rest with ⟨hstuck, honward⟩ | ⟨next, left, htakes, honward⟩
    · rw [honward, List.getLast?_singleton, Option.some.injEq]
      constructor
      · rintro rfl
        exact ⟨rest, .refl, hstuck⟩
      · rintro ⟨left, hwalk, -⟩
        rcases Relation.ReflTransGen.cases_head hwalk with heq | ⟨_, htakes, -⟩
        · exact (Prod.mk.inj heq).1
        · exact absurd htakes (not_takesFirst_of_stuck hstuck)
    · rw [honward, List.getLast?_cons_cons, ih _ (hn ▸ length_of_takesFirst htakes) rfl]
      constructor
      · rintro ⟨left', hwalk, hstuck⟩
        exact ⟨left', .head htakes hwalk, hstuck⟩
      · rintro ⟨left', hwalk, hstuck⟩
        rcases Relation.ReflTransGen.cases_head hwalk with heq | ⟨q, htakes', hwalk⟩
        · obtain ⟨rfl, rfl⟩ := Prod.mk.inj heq
          exact absurd htakes (not_takesFirst_of_stuck hstuck)
        · rw [takesFirst_unique htakes' htakes] at hwalk
          exact ⟨left', hwalk, hstuck⟩

/-- The path is a way. -/
theorem way_onward (leaf : X509Certificate) (rest : List X509Certificate) :
    Way (IssuedBy ext) leaf rest (leaf :: onward ext leaf rest) := by
  induction hn : rest.length using Nat.strong_induction_on generalizing leaf rest with
  | _ n ih =>
    rcases stuck_or_takesFirst leaf rest with ⟨hstuck, honward⟩ | ⟨next, left, htakes, honward⟩
    · rw [honward]
      exact .stop hstuck
    · have hlength := length_of_takesFirst htakes
      obtain ⟨before, after, hsplit, hleft, hnext, -⟩ := htakes
      obtain rfl : rest = _ := hsplit
      obtain rfl : left = _ := hleft
      rw [honward]
      exact .take hnext List.perm_middle (ih _ (hn ▸ hlength) next _ rfl)

/-- Every way is the path, once its certificates are sent in its own order. -/
theorem exists_onward_eq (h : Way (IssuedBy ext) leaf rest way) :
    ∃ rest', rest'.Perm rest ∧ leaf :: onward ext leaf rest' = way := by
  induction h with
  | @stop leaf rest hstuck =>
    refine ⟨rest, .refl rest, ?_⟩
    rcases stuck_or_takesFirst leaf rest with ⟨-, honward⟩ | ⟨next, left, htakes, -⟩
    · rw [honward]
    · exact absurd htakes (not_takesFirst_of_stuck hstuck)
  | @take leaf next rest left way hnext hothers _ ih =>
    obtain ⟨left', hleft, honward⟩ := ih
    refine ⟨next :: left', (hleft.cons next).trans hothers.symm, ?_⟩
    have hfind : (next :: left').find? (fun other => subjectDn ext other = issuerDn ext leaf) =
        some next := List.find?_cons_of_pos (by simpa using hnext.2)
    rw [onward, if_neg hnext.1, ledTo_of_find?_eq_some hfind,
      List.eraseP_cons_of_pos (by simpa using hnext.2), honward]

lemma rootClassOf_cons : rootClassOf ext roots (leaf :: rest) =
    (readPath ext roots (leaf :: onward ext leaf rest)).map Prod.fst := by
  rw [← pathCertificates_cons, ← classifyRoot_reading, Option.map_map]
  rfl

end Portcall.Tls
