import Mathlib.Data.List.Chain
import Mathlib.Data.List.Nodup
import Mathlib.Data.List.Perm.Subperm
import Mathlib.Logic.Relation

/-! Ways from item to item of a list along a relation, each item used once: all the ways there are,
which do not depend on the order of the list, and the one that takes the first item each time. -/
namespace Portcall.Ways
variable {α : Type*} (R : α → α → Prop)

/-- A way from an item among others, to where none of the others can be gone on to. -/
inductive Way : α → List α → List α → Prop
  | stop {a : α} {others : List α} (h : ∀ other ∈ others, ¬R a other) : Way a others [a]
  | take {a next : α} {others left way : List α} (h : R a next) (hothers : others.Perm (next :: left))
      (rest : Way next left way) : Way a others (a :: way)

/-- From an item and the others to the first of them that can be gone on to, and the rest. -/
def TakesFirst (p q : α × List α) : Prop :=
  ∃ before after, p.2 = before ++ q.1 :: after ∧ q.2 = before ++ after ∧ R p.1 q.1 ∧
    ∀ other ∈ before, ¬R p.1 other

/-- Taking the first item each time, any number of times. -/
abbrev Walks : α × List α → α × List α → Prop := Relation.ReflTransGen (TakesFirst R)

variable {R} {a b : α} {others others' left way : List α}

section Ways

lemma Way.perm (h : Way R a others way) (hperm : others'.Perm others) : Way R a others' way := by
  cases h with
  | stop h => exact .stop fun other hm => h other (hperm.mem_iff.mp hm)
  | take h hothers rest => exact .take h (hperm.trans hothers) rest

lemma Way.ne_nil (h : Way R a others way) : way ≠ [] := by
  cases h <;> exact List.cons_ne_nil _ _

/-- Any way can be gone to its end. -/
lemma exists_way (a : α) (others : List α) : ∃ way, Way R a others (a :: way) := by
  induction hn : others.length generalizing a others with
  | zero =>
    obtain rfl := List.length_eq_zero_iff.mp hn
    exact ⟨[], .stop fun _ hm => absurd hm List.not_mem_nil⟩
  | succ n ih =>
    by_cases hstuck : ∀ other ∈ others, ¬R a other
    · exact ⟨[], .stop hstuck⟩
    · push Not at hstuck
      obtain ⟨next, hm, hnext⟩ := hstuck
      obtain ⟨before, after, rfl⟩ := List.append_of_mem hm
      obtain ⟨way, hway⟩ := ih next (before ++ after) (by simp at hn; simp; omega)
      exact ⟨next :: way, .take hnext List.perm_middle hway⟩

/-- A chain of related items among the others is where some way begins. -/
lemma exists_way_of_isChain {items : List α} (h : (a :: items).IsChain R)
    (hothers : others.Perm (items ++ left)) : ∃ way, Way R a others (a :: items ++ way) := by
  induction items generalizing a others with
  | nil => exact exists_way a others
  | cons next items ih =>
    obtain ⟨hnext, hchain⟩ := List.isChain_cons_cons.mp h
    obtain ⟨way, hway⟩ := ih hchain (.refl (items ++ left))
    exact ⟨way, .take hnext hothers hway⟩

/-- What is reached is reached without coming to any item twice. -/
lemma exists_nodup_chain {S : α → α → Prop} (h : Relation.ReflTransGen S a b) :
    ∃ items, (a :: items).IsChain S ∧ (a :: items).Nodup ∧ b ∈ a :: items := by
  induction h with
  | refl => exact ⟨[], .singleton a, List.nodup_singleton a, List.mem_cons_self⟩
  | @tail b c _ hbc ih =>
    obtain ⟨items, hchain, hnodup, hb⟩ := ih
    by_cases hc : c ∈ a :: items
    · exact ⟨items, hchain, hnodup, hc⟩
    -- what comes after `b` is left away, and `c` put in its place
    obtain ⟨before, after, hsplit⟩ := List.append_of_mem hb
    have hstart : before ++ [b] <+: a :: items := ⟨after, by rw [hsplit]; simp⟩
    have hkept : (before ++ [b]).IsChain S := hchain.infix hstart.isInfix
    have hcut : (before ++ [b] ++ [c]).IsChain S :=
      List.isChain_append.mpr ⟨hkept, .singleton c, by simpa using hbc⟩
    have hfresh : (before ++ [b] ++ [c]).Nodup := by
      refine List.nodup_append.mpr ⟨hstart.sublist.nodup hnodup, List.nodup_singleton c, ?_⟩
      rintro x hx y hy rfl
      exact hc (List.mem_singleton.mp hy ▸ hstart.subset hx)
    cases before with
    | nil =>
      cases hsplit
      exact ⟨[c], hcut, hfresh, by simp⟩
    | cons first before =>
      cases hsplit
      exact ⟨before ++ [b] ++ [c], hcut, hfresh, by simp⟩

/-- What holds of whatever is gone on to holds of all that follow. -/
lemma mem_of_isChain {P : α → Prop} {items : List α} (h : (a :: items).IsChain fun _ y => P y) :
    ∀ c ∈ items, P c := by
  induction items generalizing a with
  | nil => exact List.forall_mem_nil _
  | cons next items ih =>
    obtain ⟨hnext, hchain⟩ := List.isChain_cons_cons.mp h
    exact List.forall_mem_cons.mpr ⟨hnext, ih hchain⟩

/-- Whatever can be reached among some items lies on some way. -/
theorem exists_way_through
    (h : Relation.ReflTransGen (fun x y => y ∈ a :: others ∧ R x y) a b) :
    ∃ way, Way R a others way ∧ b ∈ way := by
  obtain ⟨items, hchain, hnodup, hb⟩ := exists_nodup_chain h
  have hmem : ∀ c ∈ items, c ∈ a :: others := mem_of_isChain (hchain.imp fun _ _ hxy => hxy.1)
  have hsub : items ⊆ others := by
    intro c hc
    refine (List.mem_cons.mp (hmem c hc)).resolve_left ?_
    rintro rfl
    exact (List.nodup_cons.mp hnodup).1 hc
  obtain ⟨found, hfound, hsublist⟩ := List.subperm_of_subset (List.nodup_cons.mp hnodup).2 hsub
  obtain ⟨left, hleft⟩ := hsublist.exists_perm_append
  obtain ⟨way, hway⟩ := exists_way_of_isChain (hchain.imp fun _ _ hxy => hxy.2)
    (hleft.trans (hfound.append_right left))
  exact ⟨_, hway, List.mem_append_left _ hb⟩

/-- What lies on a way can be reached. -/
lemma Way.reaches (h : Way R a others way) {c : α} (hc : c ∈ way) :
    Relation.ReflTransGen (fun x y => y ∈ a :: others ∧ R x y) a c := by
  induction h with
  | stop => rw [List.mem_singleton.mp hc]
  | @take a next others left way h hothers _ ih =>
    rcases List.mem_cons.mp hc with rfl | hc
    · exact .refl
    · have hnext : next ∈ others := hothers.mem_iff.mpr List.mem_cons_self
      refine .head ⟨List.mem_cons_of_mem _ hnext, h⟩
        (Relation.ReflTransGen.mono (fun x y hxy => ⟨?_, hxy.2⟩) _ _ (ih hc))
      exact List.mem_cons_of_mem _ (hothers.mem_iff.mpr hxy.1)

/-- Where an item can be gone on to one of the others at the most, there is one way. -/
theorem Way.unique {β : Type*} (h : Way R a others way) (key key' : α → β)
    (hR : ∀ x y, R x y → key y = key' x) {way' : List α} (h' : Way R a others' way')
    (hperm : others.Perm others') (hnodup : (others.map key).Nodup) : way = way' := by
  induction h generalizing others' way' with
  | @stop a others hstuck =>
    cases h' with
    | stop => rfl
    | take hnext hothers _ =>
      exact absurd hnext (hstuck _ ((hperm.trans hothers).mem_iff.mpr List.mem_cons_self))
  | @take a next others left way hnext hothers _ ih =>
    cases h' with
    | stop hstuck =>
      exact absurd hnext (hstuck _ ((hperm.symm.trans hothers).mem_iff.mpr List.mem_cons_self))
    | @take _ next' _ left' way' hnext' hothers' hway' =>
      have hm : next ∈ others := hothers.mem_iff.mpr List.mem_cons_self
      have hm' : next' ∈ others := (hperm.trans hothers').mem_iff.mpr List.mem_cons_self
      have hsame : next = next' := List.inj_on_of_nodup_map hnodup hm hm'
        ((hR _ _ hnext).trans (hR _ _ hnext').symm)
      subst hsame
      have hleft : left.Perm left' :=
        (List.perm_cons next).mp (hothers.symm.trans (hperm.trans hothers'))
      have hnodup' : (left.map key).Nodup := by
        have hall := (hothers.map key).nodup_iff.mp hnodup
        exact (List.nodup_cons.mp hall).2
      rw [ih hway' hleft hnodup']

end Ways

section First

lemma takesFirst_unique : Relator.RightUnique (TakesFirst R) := by
  rintro ⟨a, others⟩ ⟨b, left⟩ ⟨b', left'⟩ ⟨before, after, hsplit, hleft, hb, hbefore⟩
    ⟨before', after', hsplit', hleft', hb', hbefore'⟩
  dsimp only at *
  rw [hsplit] at hsplit'
  rcases List.append_eq_append_iff.mp hsplit' with ⟨more, rfl, hmore⟩ | ⟨more, rfl, hmore⟩
  · cases more with
    | nil =>
      obtain ⟨rfl, rfl⟩ := List.cons.inj hmore
      rw [hleft, hleft', List.append_nil]
    | cons c more =>
      obtain ⟨rfl, -⟩ := List.cons.inj hmore
      exact absurd hb (hbefore' b (by simp))
  · cases more with
    | nil =>
      obtain ⟨rfl, rfl⟩ := List.cons.inj hmore
      rw [hleft, hleft', List.append_nil]
    | cons c more =>
      obtain ⟨rfl, -⟩ := List.cons.inj hmore
      exact absurd hb' (hbefore b' (by simp))

lemma not_takesFirst_of_stuck {p q : α × List α} (h : ∀ other ∈ p.2, ¬R p.1 other) :
    ¬TakesFirst R p q := by
  rintro ⟨before, after, hsplit, -, hnext, -⟩
  exact h q.1 (by rw [hsplit]; simp) hnext

/-- What stands behind the others is not taken before any of them. -/
lemma TakesFirst.append {p q : α × List α} (h : TakesFirst R p q) (more : List α) :
    TakesFirst R (p.1, p.2 ++ more) (q.1, q.2 ++ more) := by
  obtain ⟨before, after, hsplit, hleft, hnext, hbefore⟩ := h
  exact ⟨before, after ++ more, by simp [hsplit], by simp [hleft], hnext, hbefore⟩

/-- What nothing can be gone on to is passed over. -/
lemma TakesFirst.append_left (hstuck : ∀ other ∈ others, ¬R a other)
    (h : TakesFirst R (a, others') (b, left)) :
    TakesFirst R (a, others ++ others') (b, others ++ left) := by
  obtain ⟨before, after, hsplit, hleft, hnext, hbefore⟩ := h
  dsimp only at hsplit hleft
  refine ⟨others ++ before, after, by simp [hsplit], by simp [hleft], hnext, fun other hm => ?_⟩
  exact (List.mem_append.mp hm).elim (hstuck other) (hbefore other)

/-- What is taken from behind such others is taken there without them. -/
lemma TakesFirst.of_append_left {q : α × List α} (hstuck : ∀ other ∈ others, ¬R a other)
    (h : TakesFirst R (a, others ++ others') q) :
    ∃ left, TakesFirst R (a, others') (q.1, left) ∧ q.2 = others ++ left := by
  obtain ⟨before, after, hsplit, hleft, hnext, hbefore⟩ := h
  dsimp only at hsplit hnext hbefore
  have hfound : ∃ more, before = others ++ more ∧ others' = more ++ q.1 :: after := by
    rcases List.append_eq_append_iff.mp hsplit with ⟨more, rfl, hmore⟩ | ⟨more, rfl, hmore⟩
    · exact ⟨more, rfl, hmore⟩
    · cases more with
      | nil => exact ⟨[], by simp, by simpa using hmore.symm⟩
      | cons c more =>
        obtain ⟨rfl, -⟩ := List.cons.inj hmore
        exact absurd hnext (hstuck q.1 (by simp))
  obtain ⟨more, rfl, hothers⟩ := hfound
  refine ⟨more ++ after, ⟨more, after, hothers, rfl, hnext, ?_⟩, by rw [hleft, List.append_assoc]⟩
  exact fun other hm => hbefore other (List.mem_append_right _ hm)

lemma Walks.append {p q : α × List α} (h : Walks R p q) (more : List α) :
    Walks R (p.1, p.2 ++ more) (q.1, q.2 ++ more) :=
  h.lift (fun p => (p.1, p.2 ++ more)) fun _ _ h => h.append more

/-- What is come to among more items is come to without them, or lies beyond where one comes without
them. -/
lemma Walks.of_append {p q r : α × List α} {more : List α} (h : Walks R p q)
    (hlonger : Walks R (p.1, p.2 ++ more) r) :
    (∃ others, Walks R p (r.1, others)) ∨ Walks R (q.1, q.2 ++ more) r := by
  induction h using Relation.ReflTransGen.head_induction_on with
  | refl => exact Or.inr hlonger
  | @head p p' htakes _ ih =>
    rcases Relation.ReflTransGen.cases_head hlonger with rfl | ⟨q', htakes', hlonger⟩
    · exact Or.inl ⟨p.2, .refl⟩
    · rw [takesFirst_unique htakes' (htakes.append more)] at hlonger
      exact (ih hlonger).imp_left fun ⟨others, hwalk⟩ => ⟨others, .head htakes hwalk⟩

end First
end Portcall.Ways
