import Mathlib.Data.List.Perm.Basic

/-! Lists that differ in their order, in one member or by one member: what a function of a list
keeps when its argument is rearranged. -/
namespace Portcall.Rearrangement
variable {α β γ : Type*} {R : α → β → Prop} {l : List α} {l' : List β}

/-- The members are related one to one, whatever the order. -/
def Shuffled (R : α → β → Prop) (l : List α) (l' : List β) : Prop :=
  Relation.Comp (List.Forall₂ R) List.Perm l l'

/-- One member was replaced by a related one. -/
inductive Changed (R : α → α → Prop) : List α → List α → Prop
  | intro {before after : List α} {a a' : α} (h : R a a') :
      Changed R (before ++ a :: after) (before ++ a' :: after)

/-- One member was added, at any position. -/
inductive Inserted (a : α) : List α → List α → Prop
  | intro {before after : List α} : Inserted a (before ++ after) (before ++ a :: after)

section Shuffled

lemma Shuffled.of_forall₂ (h : List.Forall₂ R l l') : Shuffled R l l' := ⟨l', h, List.Perm.refl _⟩

lemma Shuffled.imp {S : α → β → Prop} (hrs : ∀ a b, R a b → S a b) (h : Shuffled R l l') :
    Shuffled S l l' := by
  obtain ⟨middle, hr, hperm⟩ := h
  exact ⟨middle, hr.imp hrs, hperm⟩

lemma Shuffled.length_eq (h : Shuffled R l l') : l.length = l'.length := by
  obtain ⟨middle, hr, hperm⟩ := h
  exact hr.length_eq.trans hperm.length_eq

lemma Shuffled.isEmpty_eq (h : Shuffled R l l') : l.isEmpty = l'.isEmpty := by
  rw [Bool.eq_iff_iff, List.isEmpty_iff_length_eq_zero, List.isEmpty_iff_length_eq_zero,
    h.length_eq]

lemma Shuffled.filter {p : α → Bool} {q : β → Bool} (hpq : ∀ a b, R a b → p a = q b)
    (h : Shuffled R l l') : Shuffled R (l.filter p) (l'.filter q) := by
  obtain ⟨middle, hr, hperm⟩ := h
  refine ⟨middle.filter q, List.rel_filter (fun a b hab => ?_) hr, hperm.filter q⟩
  exact Bool.eq_iff_iff.mp (hpq a b hab)

lemma Shuffled.map {δ : Type*} {S : γ → δ → Prop} {f : α → γ} {g : β → δ}
    (hfg : ∀ a b, R a b → S (f a) (g b)) (h : Shuffled R l l') :
    Shuffled S (l.map f) (l'.map g) := by
  obtain ⟨middle, hr, hperm⟩ := h
  exact ⟨middle.map g, List.rel_map (fun a b hab => hfg a b hab) hr, hperm.map g⟩

/-- Lists that related members give, put together, are the same up to order. -/
lemma Shuffled.perm_flatMap {f : α → List γ} {g : β → List γ}
    (hfg : ∀ a b, R a b → (f a).Perm (g b)) (h : Shuffled R l l') :
    (l.flatMap f).Perm (l'.flatMap g) := by
  obtain ⟨middle, hr, hperm⟩ := h
  refine List.Perm.trans ?_ (hperm.flatMap_right g)
  clear hperm
  induction hr with
  | nil => exact List.Perm.refl _
  | cons hab _ ih =>
    rw [List.flatMap_cons, List.flatMap_cons]
    exact (hfg _ _ hab).append ih

lemma Shuffled.perm_filterMap {f : α → Option γ} {g : β → Option γ}
    (hfg : ∀ a b, R a b → f a = g b) (h : Shuffled R l l') :
    (l.filterMap f).Perm (l'.filterMap g) := by
  rw [List.filterMap_eq_flatMap_toList, List.filterMap_eq_flatMap_toList]
  exact h.perm_flatMap fun a b hab => by rw [hfg a b hab]

/-- The relation the other way round. -/
lemma Shuffled.symm {S : β → α → Prop} (hrs : ∀ a b, R a b → S b a) (h : Shuffled R l l') :
    Shuffled S l' l := by
  rw [Shuffled, List.forall₂_comp_perm_eq_perm_comp_forall₂] at h
  obtain ⟨middle, hperm, hr⟩ := h
  exact ⟨middle, (hr.imp hrs).flip, hperm.symm⟩

/-- Each member has a related one on the other side. -/
lemma Shuffled.exists_mem {a : α} (h : Shuffled R l l') (ha : a ∈ l) : ∃ b ∈ l', R a b := by
  obtain ⟨middle, hr, hperm⟩ := h
  suffices hmem : ∃ b ∈ middle, R a b by
    obtain ⟨b, hb, hab⟩ := hmem
    exact ⟨b, hperm.subset hb, hab⟩
  clear hperm
  induction hr with
  | nil => simp at ha
  | cons hab _ ih =>
    rcases List.mem_cons.mp ha with rfl | ha
    · exact ⟨_, List.mem_cons_self, hab⟩
    · obtain ⟨b, hb, hab⟩ := ih ha
      exact ⟨b, List.mem_cons_of_mem _ hb, hab⟩

lemma Shuffled.any_eq {p : α → Bool} {q : β → Bool} (hpq : ∀ a b, R a b → p a = q b)
    (h : Shuffled R l l') : l.any p = l'.any q := by
  rw [Bool.eq_iff_iff, List.any_eq_true, List.any_eq_true]
  constructor
  · rintro ⟨a, ha, hp⟩
    obtain ⟨b, hb, hab⟩ := h.exists_mem ha
    exact ⟨b, hb, hpq a b hab ▸ hp⟩
  · rintro ⟨b, hb, hq⟩
    obtain ⟨a, ha, hab⟩ := (h.symm (S := fun b a => R a b) fun a b hab => hab).exists_mem hb
    exact ⟨a, ha, (hpq a b hab).symm ▸ hq⟩

end Shuffled

section OneMember
variable {a : α} {l l' : List α}

/-- Position by position, each member stayed or was replaced by a related one. -/
lemma Changed.forall₂ {R : α → α → Prop} (h : Changed R l l') :
    List.Forall₂ (Relation.ReflGen R) l l' := by
  obtain ⟨h⟩ := h
  exact List.rel_append (List.forall₂_refl _) (.cons (.single h) (List.forall₂_refl _))

lemma Changed.mem {R : α → α → Prop} (h : Changed R l l') {b : α} (hb : b ∈ l') :
    b ∈ l ∨ ∃ a ∈ l, R a b := by
  obtain ⟨hr⟩ := h
  simp only [List.mem_append, List.mem_cons] at hb ⊢
  rcases hb with hb | rfl | hb
  · exact Or.inl (Or.inl hb)
  · exact Or.inr ⟨_, Or.inr (Or.inl rfl), hr⟩
  · exact Or.inl (Or.inr (Or.inr hb))

lemma Inserted.mem_iff (h : Inserted a l l') {b : α} : b ∈ l' ↔ b = a ∨ b ∈ l := by
  obtain ⟨⟩ := h
  simp only [List.mem_append, List.mem_cons]
  tauto

lemma Inserted.subset (h : Inserted a l l') : l ⊆ l' := fun _ hm => h.mem_iff.mpr (Or.inr hm)

end OneMember
end Portcall.Rearrangement
