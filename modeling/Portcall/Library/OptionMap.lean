import Mathlib.Data.List.Forall2
import Mathlib.Data.List.Nodup
import Mathlib.Data.List.ReduceOption

/-! Mapping a partial function over a list: when the whole map is defined, and what its result
holds; and a sum over a list in which one member contributes. -/
namespace Portcall.OptionMap
variable {α β : Type*} {f : α → Option β} {l : List α} {bs : List β}

/-- The map is defined and gives `bs` exactly when it does so member by member. -/
theorem mapM_eq_some_iff : l.mapM f = some bs ↔ List.Forall₂ (fun a b => f a = some b) l bs := by
  induction l generalizing bs with
  | nil =>
    rw [List.mapM_nil, List.forall₂_nil_left_iff]
    exact ⟨fun h => (Option.some.inj h).symm, fun h => h ▸ rfl⟩
  | cons a l ih =>
    rw [List.mapM_cons, List.forall₂_cons_left_iff]
    constructor
    · intro h
      obtain ⟨b, hb, h⟩ := Option.bind_eq_some_iff.mp h
      obtain ⟨rest, hrest, h⟩ := Option.bind_eq_some_iff.mp h
      exact ⟨b, rest, hb, ih.mp hrest, (Option.some.inj h).symm⟩
    · rintro ⟨b, rest, hb, hrest, rfl⟩
      simp [hb, ih.mpr hrest]

theorem mapM_isSome_iff : (l.mapM f).isSome ↔ ∀ a ∈ l, (f a).isSome := by
  induction l with
  | nil => simp
  | cons a l ih =>
    rw [List.mapM_cons, List.forall_mem_cons, ← ih]
    cases ha : f a with
    | none => simp
    | some b =>
      cases hl : l.mapM f with
      | none => simp
      | some bs => simp

lemma mem_of_forall₂ (h : List.Forall₂ (fun a b => f a = some b) l bs) (b : β) :
    b ∈ bs ↔ ∃ a ∈ l, f a = some b := by
  induction h with
  | nil => simp
  | cons hab _ ih => simp [ih, hab, eq_comm]

/-- The members of the result are the values of the members. -/
theorem mem_of_mapM_eq_some (h : l.mapM f = some bs) (b : β) : b ∈ bs ↔ ∃ a ∈ l, f a = some b :=
  mem_of_forall₂ (mapM_eq_some_iff.mp h) b

/-- Reading two lists with related members at the same positions. -/
lemma forall₂_filterMap_getElem? {R : α → β → Prop} (h : List.Forall₂ R l bs)
    (positions : List ℕ) :
    List.Forall₂ R (positions.filterMap (l[·]?)) (positions.filterMap (bs[·]?)) := by
  induction positions with
  | nil => exact .nil
  | cons i positions ih =>
    by_cases hi : i < l.length
    · have hi' : i < bs.length := h.length_eq ▸ hi
      rw [List.filterMap_cons_some (List.getElem?_eq_getElem hi),
        List.filterMap_cons_some (List.getElem?_eq_getElem hi')]
      exact .cons (h.get hi hi') ih
    · have hi' : ¬i < bs.length := h.length_eq ▸ hi
      rwa [List.filterMap_cons_none (List.getElem?_eq_none (Nat.le_of_not_lt hi)),
        List.filterMap_cons_none (List.getElem?_eq_none (Nat.le_of_not_lt hi'))]

/-- Two partial maps over lists with related members: what then holds of the values holds of the
results. -/
lemma forall₂_of_mapM {α' γ : Type*} {R : α → α' → Prop} {l' : List α'} {g : α' → Option γ}
    {cs : List γ} {S : β → γ → Prop} (hl : List.Forall₂ R l l') (hb : l.mapM f = some bs)
    (hc : l'.mapM g = some cs)
    (h : ∀ a a' b c, R a a' → f a = some b → g a' = some c → S b c) : List.Forall₂ S bs cs := by
  rw [mapM_eq_some_iff] at hb hc
  induction hl generalizing bs cs with
  | nil =>
    cases hb
    cases hc
    exact .nil
  | cons hr _ ih =>
    obtain ⟨b, rest, hab, hrest, rfl⟩ := List.forall₂_cons_left_iff.mp hb
    obtain ⟨c, rest', hac, hrest', rfl⟩ := List.forall₂_cons_left_iff.mp hc
    exact .cons (h _ _ _ _ hr hab hac) (ih hrest hrest')

/-- The values that are there, in order. -/
lemma reduceOption_of_mapM {f : α → Option (Option β)} {bs : List (Option β)}
    (h : l.mapM f = some bs) : bs.reduceOption = l.filterMap fun a => (f a).join := by
  rw [mapM_eq_some_iff] at h
  induction h with
  | nil => rfl
  | @cons a b _ _ hab _ ih =>
    cases b with
    | none => rw [List.reduceOption_cons_of_none, ih, List.filterMap_cons, hab, Option.join_some]
    | some b => rw [List.reduceOption_cons_of_some, ih, List.filterMap_cons, hab, Option.join_some]

/-- Where one member of a list without repetition contributes, the sum is its contribution. -/
lemma flatMap_eq_of_nodup {g : α → List β} {a : α} (hnd : l.Nodup) (ha : a ∈ l)
    (h : ∀ b ∈ l, b ≠ a → g b = []) : l.flatMap g = g a := by
  induction l with
  | nil => simp at ha
  | cons c l ih =>
    obtain ⟨hc, hnd⟩ := List.nodup_cons.mp hnd
    rw [List.flatMap_cons]
    rcases List.mem_cons.mp ha with rfl | ha
    · have hrest : l.flatMap g = [] := by
        rw [List.flatMap_eq_nil_iff]
        exact fun b hb => h b (List.mem_cons_of_mem _ hb) fun e => hc (e ▸ hb)
      rw [hrest, List.append_nil]
    · rw [h c List.mem_cons_self fun e => hc (e ▸ ha), List.nil_append]
      exact ih hnd ha fun b hb => h b (List.mem_cons_of_mem _ hb)

/-- The same, for the results of a partial map. -/
theorem filter_flatten_of_nodup {γ : Type*} {f : α → Option (List γ)} {bs : List (List γ)}
    {p : γ → Bool} {a : α} {b : List γ} (hbs : l.mapM f = some bs) (hnd : l.Nodup) (ha : a ∈ l)
    (hab : f a = some b) (h : ∀ a' ∈ l, a' ≠ a → ∀ b', f a' = some b' → b'.filter p = []) :
    bs.flatten.filter p = b.filter p := by
  have hmap : bs = l.map fun a => (f a).getD [] := by
    have hforall := mapM_eq_some_iff.mp hbs
    clear hbs hnd ha hab h
    induction hforall with
    | nil => rfl
    | cons hab _ ih => rw [List.map_cons, hab, ← ih, Option.getD_some]
  have hflat : bs.flatten.filter p = l.flatMap fun a => ((f a).getD []).filter p := by
    rw [hmap, List.filter_flatten, List.map_map, List.flatMap_def]
    rfl
  rw [hflat, flatMap_eq_of_nodup hnd ha, hab, Option.getD_some]
  intro a' ha' hne
  cases hf : f a' with
  | none => rfl
  | some b' => exact h a' ha' hne b' hf

/-- Every copy of a member brings what its value holds. -/
theorem count_mul_countP_le {γ : Type*} [BEq α] [LawfulBEq α] {f : α → Option (List γ)}
    {bs : List (List γ)} {a : α} {b : List γ} (hbs : l.mapM f = some bs) (hab : f a = some b)
    (p : γ → Bool) : l.count a * b.countP p ≤ bs.flatten.countP p := by
  rw [mapM_eq_some_iff] at hbs
  induction hbs with
  | nil => simp
  | @cons a' b' l _ hab' _ ih =>
    rw [List.flatten_cons, List.countP_append, List.count_cons, Nat.add_mul, Nat.add_comm]
    refine Nat.add_le_add ?_ ih
    split_ifs with heq
    · obtain rfl := eq_of_beq heq
      rw [hab, Option.some.injEq] at hab'
      exact Nat.le_of_eq (by rw [hab', Nat.one_mul])
    · rw [Nat.zero_mul]
      exact Nat.zero_le _

end Portcall.OptionMap
