import Mathlib.Algebra.Ring.Nat
import Mathlib.Data.List.Basic
import Mathlib.Data.Prod.Basic

/-! Texts made of pieces behind separators, when it can be told where a piece ends: such a text has
one reading, and so have groups of pieces that are joined by two separators. -/
namespace Portcall.Delimited
variable {α : Type*}

section Cut
variable {p : α → Prop} {before before' after after' : List α}

/-- Two texts are cut at the same place where something begins that is not in the parts before. -/
theorem cut_unique (hbefore : ∀ c ∈ before, ¬p c) (hbefore' : ∀ c ∈ before', ¬p c)
    (hafter : ∀ c ∈ after.head?, p c) (hafter' : ∀ c ∈ after'.head?, p c)
    (h : before ++ after = before' ++ after') : before = before' ∧ after = after' := by
  induction before generalizing before' with
  | nil =>
    cases before' with
    | nil => exact ⟨rfl, h⟩
    | cons c before' =>
      rw [List.nil_append] at h
      refine absurd (hafter c ?_) (hbefore' c List.mem_cons_self)
      rw [h]
      rfl
  | cons c before ih =>
    cases before' with
    | nil =>
      rw [List.nil_append] at h
      refine absurd (hafter' c ?_) (hbefore c List.mem_cons_self)
      rw [← h]
      rfl
    | cons d before' =>
      rw [List.cons_append, List.cons_append, List.cons.injEq] at h
      obtain ⟨rfl, hrest⟩ := ih (List.forall_mem_cons.mp hbefore).2
        (List.forall_mem_cons.mp hbefore').2 h.2
      exact ⟨by rw [h.1], hrest⟩

/-- The cut at the first mark. -/
lemma cut_at {mark : α} (hbefore : mark ∉ before) (hbefore' : mark ∉ before')
    (h : before ++ mark :: after = before' ++ mark :: after') :
    before = before' ∧ after = after' := by
  obtain ⟨heq, hrest⟩ := @cut_unique _ (· = mark) _ _ (mark :: after) (mark :: after')
    (fun _ hm he => hbefore (he ▸ hm)) (fun _ hm he => hbefore' (he ▸ hm))
    (by simp) (by simp) h
  exact ⟨heq, (List.cons.inj hrest).2⟩

end Cut

section Chain
variable {S : α → Prop} {P : List α → Prop} {tokens tokens' : List (α × List α)}

/-- Every piece behind its separator. -/
def chain (tokens : List (α × List α)) : List α := tokens.flatMap fun token => token.1 :: token.2

def Over (S : α → Prop) (P : List α → Prop) (tokens : List (α × List α)) : Prop :=
  ∀ token ∈ tokens, S token.1 ∧ P token.2

/-- It can be told where a piece ends, if what follows is such a text. -/
def SelfDelimiting (S : α → Prop) (P : List α → Prop) : Prop :=
  ∀ ⦃piece piece' : List α⦄ ⦃tokens tokens' : List (α × List α)⦄, P piece → P piece' →
    Over S P tokens → Over S P tokens' → piece ++ chain tokens = piece' ++ chain tokens' →
      piece = piece'

@[simp] lemma chain_nil : chain ([] : List (α × List α)) = [] := rfl

lemma chain_cons (separator : α) (piece : List α) (rest : List (α × List α)) :
    chain ((separator, piece) :: rest) = separator :: (piece ++ chain rest) := rfl

lemma chain_append (before after : List (α × List α)) :
    chain (before ++ after) = chain before ++ chain after := List.flatMap_append

/-- A chain begins with a separator, if with anything. -/
lemma head?_chain (h : Over S P tokens) : ∀ c ∈ (chain tokens).head?, S c := by
  cases tokens with
  | nil => simp
  | cons token rest =>
    intro c hc
    obtain rfl := Option.some.inj hc
    exact (h token List.mem_cons_self).1

/-- A chain of such pieces has one reading. -/
theorem chain_injOn (hdelimits : SelfDelimiting S P) (h : Over S P tokens)
    (h' : Over S P tokens') (heq : chain tokens = chain tokens') : tokens = tokens' := by
  induction tokens generalizing tokens' with
  | nil =>
    cases tokens' with
    | nil => rfl
    | cons token' rest' => cases heq
  | cons token rest ih =>
    cases tokens' with
    | nil => cases heq
    | cons token' rest' =>
      obtain ⟨htoken, hrest⟩ := List.forall_mem_cons.mp h
      obtain ⟨htoken', hrest'⟩ := List.forall_mem_cons.mp h'
      rw [chain_cons, chain_cons, List.cons.injEq] at heq
      have hpiece := hdelimits htoken.2 htoken'.2 hrest hrest' heq.2
      rw [hpiece] at heq
      rw [Prod.ext heq.1 hpiece, ih hrest hrest' (List.append_cancel_left heq.2)]

/-- Pieces without separators. -/
theorem selfDelimiting_of_free (h : ∀ piece, P piece → ∀ c ∈ piece, ¬S c) : SelfDelimiting S P :=
  fun piece piece' _ _ hpiece hpiece' htokens htokens' heq =>
    (cut_unique (h piece hpiece) (h piece' hpiece') (head?_chain htokens) (head?_chain htokens')
      heq).1

/-- Pieces that hold one mark each, and no separator before it. -/
structure Marked (S : α → Prop) (mark : α) (front back : List α) : Prop where
  free : ∀ c ∈ front, ¬S c
  front : mark ∉ front
  back : mark ∉ back

/-- What stands between two marks is the end of a piece, a separator and the beginning of the next
piece, and is cut at its last separator. -/
lemma back_unique {mark separator separator' : α} (hmark : ¬S mark)
    {back back' next next' rest rest' : List α} (hback : mark ∉ back) (hback' : mark ∉ back')
    (hseparator : S separator) (hseparator' : S separator') (hfree : ∀ c ∈ next, ¬S c)
    (hfree' : ∀ c ∈ next', ¬S c) (hnext : mark ∉ next) (hnext' : mark ∉ next')
    (h : back ++ separator :: (next ++ mark :: rest) =
      back' ++ separator' :: (next' ++ mark :: rest')) : back = back' := by
  have hclean : ∀ {back next : List α} {separator : α}, mark ∉ back → S separator →
      mark ∉ next → mark ∉ back ++ separator :: next := by
    intro back next separator hback hseparator hnext
    simp only [List.mem_append, List.mem_cons, not_or]
    exact ⟨hback, fun he => hmark (he ▸ hseparator), hnext⟩
  have hbetween : back ++ separator :: next = back' ++ separator' :: next' := by
    refine (@cut_at _ _ _ rest rest' mark (hclean hback hseparator hnext)
      (hclean hback' hseparator' hnext') ?_).1
    simpa using h
  have hreversed : next.reverse ++ separator :: back.reverse =
      next'.reverse ++ separator' :: back'.reverse := by
    simpa using congrArg List.reverse hbetween
  obtain ⟨-, hcut⟩ := @cut_unique _ S _ _ (separator :: back.reverse) (separator' :: back'.reverse)
    (by simpa using hfree) (by simpa using hfree') (by simpa using hseparator)
    (by simpa using hseparator') hreversed
  exact List.reverse_injective (List.cons.inj hcut).2

/-- Pieces of a front and a back with a mark between them. -/
theorem selfDelimiting_of_mark {mark : α} (hmark : ¬S mark)
    (h : ∀ piece, P piece → ∃ front back, piece = front ++ mark :: back ∧ Marked S mark front back) :
    SelfDelimiting S P := by
  intro piece piece' tokens tokens' hpiece hpiece' htokens htokens' heq
  obtain ⟨front, back, rfl, hmarked⟩ := h piece hpiece
  obtain ⟨front', back', rfl, hmarked'⟩ := h piece' hpiece'
  rw [List.append_assoc, List.append_assoc, List.cons_append, List.cons_append] at heq
  obtain ⟨rfl, hbacks⟩ := cut_at hmarked.front hmarked'.front heq
  suffices back = back' by rw [this]
  have hmem : ∀ {token : α × List α} {rest : List (α × List α)}, Over S P (token :: rest) →
      mark ∈ chain (token :: rest) := by
    intro token rest hover
    obtain ⟨front, back, hsplit, -⟩ := h _ (hover token List.mem_cons_self).2
    rw [show token :: rest = (token.1, token.2) :: rest from rfl, chain_cons, hsplit]
    simp
  cases tokens with
  | nil =>
    cases tokens' with
    | nil => simpa using hbacks
    | cons token' rest' =>
      rw [chain_nil, List.append_nil] at hbacks
      refine absurd ?_ hmarked.back
      rw [hbacks]
      exact List.mem_append_right _ (hmem htokens')
  | cons token rest =>
    cases tokens' with
    | nil =>
      rw [chain_nil, List.append_nil] at hbacks
      refine absurd ?_ hmarked'.back
      rw [← hbacks]
      exact List.mem_append_right _ (hmem htokens)
    | cons token' rest' =>
      obtain ⟨separator, _⟩ := token
      obtain ⟨separator', _⟩ := token'
      obtain ⟨hseparator, hpiece⟩ := htokens _ List.mem_cons_self
      obtain ⟨hseparator', hpiece'⟩ := htokens' _ List.mem_cons_self
      obtain ⟨next, last, rfl, hnext⟩ := h _ hpiece
      obtain ⟨next', last', rfl, hnext'⟩ := h _ hpiece'
      refine back_unique hmark hmarked.back hmarked'.back hseparator hseparator' hnext.free
        hnext'.free hnext.front hnext'.front
        (?_ : back ++ separator :: (next ++ mark :: (last ++ chain rest)) =
          back' ++ separator' :: (next' ++ mark :: (last' ++ chain rest')))
      simpa [chain_cons] using hbacks

end Chain

section Groups
variable {outer inner : α} {P : List α → Prop} {groups groups' : List (List (List α))}

/-- Groups of pieces joined by two separators. -/
def joined (outer inner : α) (groups : List (List (List α))) : List α :=
  [outer].intercalate (groups.map [inner].intercalate)

/-- The first piece of a group stands behind the outer separator, the others behind the inner. -/
def groupTokens (outer inner : α) : List (List α) → List (α × List α)
  | [] => []
  | piece :: pieces => (outer, piece) :: pieces.map (Prod.mk inner)

/-- No group is empty, and all pieces have the property. -/
def Grouped (P : List α → Prop) (groups : List (List (List α))) : Prop :=
  ∀ group ∈ groups, group ≠ [] ∧ ∀ piece ∈ group, P piece

lemma cons_intercalate (separator : α) {pieces : List (List α)} (hne : pieces ≠ []) :
    separator :: [separator].intercalate pieces = chain (pieces.map (Prod.mk separator)) := by
  induction pieces with
  | nil => exact absurd rfl hne
  | cons piece pieces ih =>
    cases pieces with
    | nil => simp [chain]
    | cons next pieces =>
      rw [List.intercalate_cons_cons, List.map_cons, chain_cons, ← ih (List.cons_ne_nil _ _)]
      simp

lemma mem_intercalate {separator c : α} {pieces : List (List α)}
    (h : c ∈ [separator].intercalate pieces) : c = separator ∨ ∃ piece ∈ pieces, c ∈ piece := by
  cases pieces with
  | nil => exact absurd h List.not_mem_nil
  | cons piece rest =>
    have hm : c ∈ chain ((piece :: rest).map (Prod.mk separator)) := by
      rw [← cons_intercalate separator (List.cons_ne_nil _ _)]
      exact List.mem_cons_of_mem _ h
    obtain ⟨token, htoken, hc⟩ := List.mem_flatMap.mp hm
    obtain ⟨piece, hpiece, rfl⟩ := List.mem_map.mp htoken
    exact (List.mem_cons.mp hc).imp_right fun hc => ⟨piece, hpiece, hc⟩

lemma cons_joined (hne : groups ≠ []) (h : ∀ group ∈ groups, group ≠ []) :
    outer :: joined outer inner groups = chain (groups.flatMap (groupTokens outer inner)) := by
  have hgroup : ∀ {group : List (List α)}, group ≠ [] →
      outer :: [inner].intercalate group = chain (groupTokens outer inner group) := by
    intro group hgroup
    cases group with
    | nil => exact absurd rfl hgroup
    | cons piece pieces =>
      rw [groupTokens, chain_cons]
      cases pieces with
      | nil => simp
      | cons next pieces =>
        rw [← cons_intercalate inner (List.cons_ne_nil _ _), List.intercalate_cons_cons]
        simp
  rw [joined, cons_intercalate outer (by simpa using hne)]
  clear hne
  induction groups with
  | nil => rfl
  | cons group groups ih =>
    obtain ⟨hfirst, hrest⟩ := List.forall_mem_cons.mp h
    rw [List.map_cons, List.map_cons, chain_cons, List.flatMap_cons, chain_append, ← hgroup hfirst,
      ih hrest]
    rfl

lemma over_tokens (h : Grouped P groups) :
    Over (fun c => c = outer ∨ c = inner) P (groups.flatMap (groupTokens outer inner)) := by
  intro token hm
  obtain ⟨group, hgroup, hm⟩ := List.mem_flatMap.mp hm
  obtain ⟨-, hpieces⟩ := h group hgroup
  cases group with
  | nil => exact absurd hm List.not_mem_nil
  | cons piece pieces =>
    obtain ⟨hpiece, hpieces⟩ := List.forall_mem_cons.mp hpieces
    rcases List.mem_cons.mp hm with rfl | hm
    · exact ⟨.inl rfl, hpiece⟩
    · obtain ⟨next, hnext, rfl⟩ := List.mem_map.mp hm
      exact ⟨.inr rfl, hpieces next hnext⟩

/-- The separators tell where a group ends. -/
lemma groupTokens_injOn (hne : outer ≠ inner) (h : ∀ group ∈ groups, group ≠ [])
    (h' : ∀ group ∈ groups', group ≠ [])
    (heq : groups.flatMap (groupTokens outer inner) = groups'.flatMap (groupTokens outer inner)) :
    groups = groups' := by
  have hhead : ∀ {groups : List (List (List α))}, (∀ group ∈ groups, group ≠ []) →
      ∀ token ∈ (groups.flatMap (groupTokens outer inner)).head?, token.1 = outer := by
    intro groups h token hm
    cases groups with
    | nil => cases hm
    | cons group groups =>
      cases group with
      | nil => exact absurd rfl (h [] List.mem_cons_self)
      | cons piece pieces =>
        obtain rfl := Option.some.inj hm
        rfl
  have hinner : ∀ (pieces : List (List α)), ∀ token ∈ pieces.map (Prod.mk inner),
      ¬token.1 = outer := by
    intro pieces token hm
    obtain ⟨piece, -, rfl⟩ := List.mem_map.mp hm
    exact hne.symm
  induction groups generalizing groups' with
  | nil =>
    cases groups' with
    | nil => rfl
    | cons group' groups' =>
      cases group' with
      | nil => exact absurd rfl (h' [] List.mem_cons_self)
      | cons piece' pieces' => cases heq
  | cons group groups ih =>
    cases group with
    | nil => exact absurd rfl (h [] List.mem_cons_self)
    | cons piece pieces =>
      cases groups' with
      | nil => cases heq
      | cons group' groups' =>
        cases group' with
        | nil => exact absurd rfl (h' [] List.mem_cons_self)
        | cons piece' pieces' =>
          obtain ⟨-, hrest⟩ := List.forall_mem_cons.mp h
          obtain ⟨-, hrest'⟩ := List.forall_mem_cons.mp h'
          rw [List.flatMap_cons, List.flatMap_cons, groupTokens, groupTokens, List.cons_append,
            List.cons_append, List.cons.injEq, Prod.mk.injEq] at heq
          obtain ⟨⟨-, rfl⟩, heq⟩ := heq
          obtain ⟨hpieces, hgroups⟩ := @cut_unique _ (fun token : α × List α => token.1 = outer)
            _ _ _ _ (hinner pieces) (hinner pieces') (hhead hrest) (hhead hrest') heq
          rw [List.map_injective_iff.mpr (Prod.mk_right_injective inner) hpieces,
            ih hrest hrest' hgroups]

/-- Joined groups of such pieces have one reading. -/
theorem joined_injOn (hne : outer ≠ inner) (hpiece : ∀ piece, P piece → piece ≠ [])
    (hdelimits : SelfDelimiting (fun c => c = outer ∨ c = inner) P) (h : Grouped P groups)
    (h' : Grouped P groups') (heq : joined outer inner groups = joined outer inner groups') :
    groups = groups' := by
  have hempty : ∀ {groups : List (List (List α))}, Grouped P groups → groups ≠ [] →
      joined outer inner groups ≠ [] := by
    intro groups h hgroups hnil
    have hjoined := @cons_joined _ outer inner _ hgroups fun group hm => (h group hm).1
    rw [hnil] at hjoined
    obtain ⟨group, groups, rfl⟩ := List.exists_cons_of_ne_nil hgroups
    obtain ⟨hgroup, hpieces⟩ := h group List.mem_cons_self
    obtain ⟨piece, pieces, rfl⟩ := List.exists_cons_of_ne_nil hgroup
    refine hpiece piece (hpieces piece List.mem_cons_self) ?_
    rw [List.flatMap_cons, groupTokens, List.cons_append, chain_cons, List.cons.injEq] at hjoined
    exact (List.append_eq_nil_iff.mp hjoined.2.symm).1
  by_cases hgroups : groups = []
  · subst hgroups
    by_contra hgroups'
    exact hempty h' (Ne.symm hgroups') heq.symm
  · by_cases hgroups' : groups' = []
    · subst hgroups'
      exact absurd heq (hempty h hgroups)
    · have htokens := congrArg (outer :: ·) heq
      rw [cons_joined hgroups fun group hm => (h group hm).1,
        cons_joined hgroups' fun group hm => (h' group hm).1] at htokens
      exact groupTokens_injOn hne (fun group hm => (h group hm).1) (fun group hm => (h' group hm).1)
        (chain_injOn hdelimits (over_tokens h) (over_tokens h') htokens)

end Groups

section Pieces
variable {p : α → Bool} {separator : α} {pieces : List (List α)}

/-- Every character that ends a piece begins another. -/
lemma length_splitOnP (p : α → Bool) (text : List α) :
    (text.splitOnP p).length = text.countP p + 1 := by
  induction text with
  | nil => rw [List.splitOnP_nil, List.length_singleton, List.countP_nil]
  | cons c rest ih =>
    rw [List.splitOnP_cons_eq_if_modifyHead, List.countP_cons]
    split_ifs
    · rw [List.length_cons, ih]
    · rw [List.length_modifyHead, ih, Nat.add_zero]

/-- Cut again, the pieces come to as many more as they have ends in them. -/
lemma length_splitOnP_intercalate (hp : p separator = true) (hne : pieces ≠ []) :
    (([separator].intercalate pieces).splitOnP p).length =
      pieces.length + (pieces.map (List.countP p)).sum := by
  rw [length_splitOnP]
  induction pieces with
  | nil => exact absurd rfl hne
  | cons piece pieces ih =>
    by_cases hnil : pieces = []
    · rw [hnil, List.intercalate_singleton, List.map_singleton, List.sum_singleton,
        List.length_singleton, Nat.add_comm]
    · rw [List.intercalate_cons_of_ne_nil hnil, List.countP_append, List.countP_append,
        List.countP_singleton, if_pos hp, Nat.add_assoc, ih hnil, List.length_cons, List.map_cons,
        List.sum_cons]
      omega

lemma length_splitOnP_intercalate_iff (hp : p separator = true) (hne : pieces ≠ []) :
    (([separator].intercalate pieces).splitOnP p).length = pieces.length ↔
      ∀ piece ∈ pieces, ∀ c ∈ piece, p c = false := by
  rw [length_splitOnP_intercalate hp hne, Nat.add_eq_left, List.sum_eq_zero_iff_forall_eq_nat,
    List.forall_mem_map]
  simp only [List.countP_eq_zero, Bool.not_eq_true]

/-- The pieces are found again where none of them has an end in it. -/
theorem splitOnP_intercalate_iff (hp : p separator = true) (hne : pieces ≠ []) :
    ([separator].intercalate pieces).splitOnP p = pieces ↔
      ∀ piece ∈ pieces, ∀ c ∈ piece, p c = false := by
  constructor
  · exact fun h => (length_splitOnP_intercalate_iff hp hne).mp (congrArg List.length h)
  · intro h
    induction pieces with
    | nil => exact absurd rfl hne
    | cons piece pieces ih =>
      rw [List.forall_mem_cons] at h
      by_cases hnil : pieces = []
      · rw [hnil, List.intercalate_singleton, List.splitOnP_eq_singleton h.1]
      · rw [List.intercalate_cons_of_ne_nil hnil, List.append_assoc, List.singleton_append,
          List.splitOnP_append_cons_of_forall_mem h.1 separator hp, ih hnil h.2]

/-- What stands between two ends is a piece of every text around it. -/
lemma mem_splitOnP_of_infix {c d : α} {piece text : List α} (hc : p c = true) (hd : p d = true)
    (hpiece : ∀ x ∈ piece, p x = false) (h : c :: (piece ++ [d]) <:+: text) :
    piece ∈ text.splitOnP p := by
  obtain ⟨before, after, rfl⟩ := h
  rw [List.append_assoc, List.cons_append, List.append_assoc, List.singleton_append,
    List.splitOnP_append_cons before _ hc,
    List.splitOnP_append_cons_of_forall_mem hpiece d hd]
  exact List.mem_append_right _ List.mem_cons_self

lemma infix_intercalate {piece : List α} (hm : piece ∈ pieces) :
    piece <:+: [separator].intercalate pieces := by
  induction pieces with
  | nil => exact absurd hm List.not_mem_nil
  | cons first pieces ih =>
    by_cases hnil : pieces = []
    · subst hnil
      rw [List.intercalate_singleton]
      exact List.mem_singleton.mp hm ▸ List.infix_rfl
    · rw [List.intercalate_cons_of_ne_nil hnil]
      rcases List.mem_cons.mp hm with rfl | hm
      · rw [List.append_assoc]
        exact (List.prefix_append _ _).isInfix
      · exact (ih hm).trans (List.suffix_append _ _).isInfix

end Pieces
end Portcall.Delimited
