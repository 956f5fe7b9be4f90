import Mathlib.Data.List.Induction
import Mathlib.Data.List.Sort

/-! Maps that remember insertion order: a new key goes last, an old key keeps its place.
Grouping a list by a key is the one way such a map is built here. -/
namespace Portcall

/-- An association list without repeated keys, in order of first insertion. -/
structure InsertionMap (κ α : Type*) where
  entries : List (κ × α)
  nodup : (entries.map Prod.fst).Nodup

namespace InsertionMap
variable {κ α β γ : Type*}

def keys (m : InsertionMap κ α) : List κ := m.entries.map Prod.fst
def values (m : InsertionMap κ α) : List α := m.entries.map Prod.snd

def empty : InsertionMap κ α := ⟨[], by simp⟩

variable [DecidableEq κ]

def lookup (k : κ) : List (κ × α) → Option α
  | [] => none
  | e :: rest => if e.1 = k then some e.2 else lookup k rest

def get? (m : InsertionMap κ α) (k : κ) : Option α := lookup k m.entries

/-- Rewrite the value at a key in place, or append the key with a fresh value. -/
def upsertEntries (k : κ) (f : Option α → α) : List (κ × α) → List (κ × α)
  | [] => [(k, f none)]
  | e :: rest => if e.1 = k then (e.1, f (some e.2)) :: rest else e :: upsertEntries k f rest

lemma keys_upsertEntries (k : κ) (f : Option α → α) (es : List (κ × α)) :
    (upsertEntries k f es).map Prod.fst =
      if k ∈ es.map Prod.fst then es.map Prod.fst else es.map Prod.fst ++ [k] := by
  induction es with
  | nil => simp [upsertEntries]
  | cons e rest ih =>
    by_cases he : e.1 = k
    · simp [upsertEntries, he]
    · have hk : ¬ k = e.1 := fun h => he h.symm
      simp only [upsertEntries, he, if_false, List.map_cons, ih, List.mem_cons, hk, false_or]
      split_ifs <;> simp

lemma upsertEntries_of_not_mem {k : κ} (f : Option α → α) (es : List (κ × α))
    (h : k ∉ es.map Prod.fst) : upsertEntries k f es = es ++ [(k, f none)] := by
  induction es with
  | nil => rfl
  | cons e rest ih =>
    rw [List.map_cons, List.mem_cons, not_or] at h
    simp [upsertEntries, Ne.symm h.1, ih h.2]

def upsert (m : InsertionMap κ α) (k : κ) (f : Option α → α) : InsertionMap κ α where
  entries := upsertEntries k f m.entries
  nodup := by
    rw [keys_upsertEntries]
    split_ifs with h
    · exact m.nodup
    · refine List.nodup_append.mpr ⟨m.nodup, List.nodup_singleton k, ?_⟩
      intro a ha b hb hab
      rw [List.mem_singleton] at hb
      exact h (hb ▸ hab ▸ ha)

lemma lookup_upsertEntries (k j : κ) (f : Option α → α) (es : List (κ × α)) :
    lookup j (upsertEntries k f es) = if j = k then some (f (lookup k es)) else lookup j es := by
  induction es with
  | nil =>
    by_cases h : j = k
    · simp [upsertEntries, lookup, h]
    · simp [upsertEntries, lookup, h, Ne.symm h]
  | cons e rest ih =>
    by_cases he : e.1 = k <;> by_cases hj : j = k
    · simp [upsertEntries, lookup, he, hj]
    · have hk : ¬ k = j := fun h => hj h.symm
      simp [upsertEntries, lookup, he, hj, hk]
    · subst hj
      simp [upsertEntries, lookup, he, ih]
    · simp [upsertEntries, lookup, he, ih, hj]

@[simp] theorem get?_upsert (m : InsertionMap κ α) (k j : κ) (f : Option α → α) :
    (m.upsert k f).get? j = if j = k then some (f (m.get? k)) else m.get? j :=
  lookup_upsertEntries k j f m.entries

@[simp] lemma get?_empty (k : κ) : (empty : InsertionMap κ α).get? k = none := rfl

lemma mem_keys_upsert (m : InsertionMap κ α) (k j : κ) (f : Option α → α) :
    j ∈ (m.upsert k f).keys ↔ j = k ∨ j ∈ m.keys := by
  simp only [keys, upsert, keys_upsertEntries]
  split_ifs with h
  · exact ⟨Or.inr, fun hj => hj.elim (fun e => e ▸ h) id⟩
  · simp only [List.mem_append, List.mem_singleton]
    exact or_comm

lemma lookup_eq_some_iff {es : List (κ × α)} (hnd : (es.map Prod.fst).Nodup) (k : κ) (a : α) :
    lookup k es = some a ↔ (k, a) ∈ es := by
  induction es with
  | nil => simp [lookup]
  | cons e rest ih =>
    rw [List.map_cons, List.nodup_cons] at hnd
    by_cases he : e.1 = k
    · subst he
      simp only [lookup, if_true, Option.some.injEq, List.mem_cons]
      constructor
      · rintro rfl; exact Or.inl rfl
      · rintro (h | h)
        · exact (congrArg Prod.snd h).symm
        · exact absurd (List.mem_map_of_mem h) hnd.1
    · have hne : (k, a) ≠ e := fun h => he (congrArg Prod.fst h).symm
      simp [lookup, he, ih hnd.2, hne]

theorem get?_eq_some_iff (m : InsertionMap κ α) (k : κ) (a : α) :
    m.get? k = some a ↔ (k, a) ∈ m.entries := lookup_eq_some_iff m.nodup k a

theorem mem_values_iff (m : InsertionMap κ α) (a : α) :
    a ∈ m.values ↔ ∃ k, m.get? k = some a := by
  simp [values, get?_eq_some_iff]

lemma mem_keys_iff (m : InsertionMap κ α) (k : κ) : k ∈ m.keys ↔ ∃ a, m.get? k = some a := by
  simp [keys, get?_eq_some_iff]

/-- Group a list by key: the first item of a group starts its value, later ones are added. -/
def group (key : β → κ) (start : β → α) (add : α → β → α) (items : List β) : InsertionMap κ α :=
  items.foldl (fun m b => m.upsert (key b) (fun old => (old.map (add · b)).getD (start b))) empty

section Group
variable (key : β → κ) (start : β → α) (add : α → β → α)

lemma group_append_singleton (items : List β) (b : β) :
    group key start add (items ++ [b]) = (group key start add items).upsert (key b)
      (fun old => (old.map (add · b)).getD (start b)) := by
  simp [group]

/-- The value at a key is the fold of the items that carry the key, in order. -/
theorem get?_group (items : List β) (k : κ) :
    (group key start add items).get? k =
      match items.filter (fun b => key b = k) with
      | [] => none
      | b :: rest => some (rest.foldl add (start b)) := by
  induction items using List.reverseRecOn with
  | nil => rfl
  | append_singleton items b ih =>
    rw [group_append_singleton, get?_upsert, List.filter_append]
    by_cases h : k = key b
    · subst h
      simp only [if_true, ih, List.filter_cons, List.filter_nil, decide_true]
      cases hf : items.filter (fun c => key c = key b) with
      | nil => simp
      | cons c rest => simp
    · have hb : ¬ key b = k := fun e => h e.symm
      simp [h, hb, ih]

@[simp] theorem mem_keys_group (items : List β) (k : κ) :
    k ∈ (group key start add items).keys ↔ ∃ b ∈ items, key b = k := by
  induction items using List.reverseRecOn with
  | nil => simp [group, keys, empty]
  | append_singleton items b ih =>
    rw [group_append_singleton, mem_keys_upsert, ih]
    simp only [List.mem_append, List.mem_singleton, or_and_right, exists_or, exists_eq_left]
    rw [or_comm, eq_comm]

/-- Every stored value comes from a nonempty group of items with one key. -/
theorem exists_of_mem_values_group {items : List β} {a : α}
    (h : a ∈ (group key start add items).values) :
    ∃ b rest, (b :: rest).Sublist items ∧ (∀ c ∈ rest, key c = key b) ∧
      a = rest.foldl add (start b) := by
  obtain ⟨k, hk⟩ := (mem_values_iff _ a).mp h
  rw [get?_group] at hk
  cases hf : items.filter (fun b => key b = k) with
  | nil => simp [hf] at hk
  | cons b rest =>
    have hall : ∀ c ∈ b :: rest, key c = k := fun c hc => by
      rw [← hf] at hc; simpa using (List.mem_filter.mp hc).2
    refine ⟨b, rest, hf ▸ List.filter_sublist, fun c hc => ?_, ?_⟩
    · rw [hall c (List.mem_cons_of_mem _ hc), hall b List.mem_cons_self]
    · simpa [hf] using hk.symm

lemma foldl_feature {δ : Type*} {f : α → δ} (hadd : ∀ a b, f (add a b) = f a) (rest : List β)
    (a : α) : f (rest.foldl add a) = f a := by
  induction rest generalizing a with
  | nil => rfl
  | cons b rest ih => exact (ih _).trans (hadd a b)

/-- A feature of the items that adding to a group leaves alone is a feature of the group. -/
lemma exists_of_feature {δ : Type*} {f : α → δ} {g : β → δ} {items : List β} {a : α}
    (h : a ∈ (group key start add items).values) (hstart : ∀ b, f (start b) = g b)
    (hadd : ∀ a b, f (add a b) = f a) : ∃ b ∈ items, f a = g b := by
  obtain ⟨b, rest, hsub, -, rfl⟩ := exists_of_mem_values_group key start add h
  exact ⟨b, hsub.subset List.mem_cons_self, (foldl_feature add hadd rest _).trans (hstart b)⟩

/-- Groups that keep the key of their items have distinct keys. -/
lemma nodup_map_values_group {keyOf : α → κ} (hstart : ∀ b, keyOf (start b) = key b)
    (hadd : ∀ a b, keyOf (add a b) = keyOf a) (items : List β) :
    ((group key start add items).values.map keyOf).Nodup := by
  have hkeys : (group key start add items).values.map keyOf = (group key start add items).keys := by
    rw [values, keys, List.map_map]
    refine List.map_congr_left fun entry hm => ?_
    have hget := ((group key start add items).get?_eq_some_iff entry.1 entry.2).mpr hm
    rw [get?_group] at hget
    cases hfilter : items.filter (fun b => key b = entry.1) with
    | nil =>
      rw [hfilter] at hget
      cases hget
    | cons b rest =>
      rw [hfilter, Option.some.injEq] at hget
      have hmem : b ∈ items.filter fun b => key b = entry.1 := hfilter ▸ List.mem_cons_self
      rw [Function.comp_apply, ← hget, foldl_feature add hadd, hstart]
      simpa using (List.mem_filter.mp hmem).2
  rw [hkeys]
  exact (group key start add items).nodup

lemma flatMap_upsertEntries (k : κ) (b : β) (g : α → List γ) (h : β → γ)
    (hstart : g (start b) = [h b]) (hadd : ∀ a, g (add a b) = g a ++ [h b])
    (es : List (κ × α)) :
    ((upsertEntries k (fun old => (old.map (add · b)).getD (start b)) es).flatMap
      (fun e => g e.2)).Perm (es.flatMap (fun e => g e.2) ++ [h b]) := by
  induction es with
  | nil => simp [upsertEntries, hstart]
  | cons e rest ih =>
    by_cases he : e.1 = k
    · simp only [upsertEntries, he, if_true, List.flatMap_cons, Option.map_some,
        Option.getD_some, hadd, List.append_assoc]
      exact (List.Perm.append_left _ List.perm_append_comm)
    · simp only [upsertEntries, he, if_false, List.flatMap_cons, List.append_assoc]
      exact List.Perm.append_left _ ih

/-- Grouping loses and duplicates nothing: what the groups collect is a permutation of what
the items contribute. -/
theorem flatMap_values_group (g : α → List γ) (h : β → γ)
    (hstart : ∀ b, g (start b) = [h b]) (hadd : ∀ a b, g (add a b) = g a ++ [h b])
    (items : List β) :
    ((group key start add items).values.flatMap g).Perm (items.map h) := by
  induction items using List.reverseRecOn with
  | nil => simp [group, values, empty]
  | append_singleton items b ih =>
    rw [group_append_singleton, List.map_append]
    have hstep := flatMap_upsertEntries start add (key b) b g h (hstart b) (fun a => hadd a b)
      (group key start add items).entries
    simp only [values, List.flatMap_map] at ih ⊢
    exact hstep.trans (ih.append_right _)

lemma entries_group_of_nodup {items : List β} (hnd : (items.map key).Nodup) :
    (group key start add items).entries = items.map (fun b => (key b, start b)) := by
  induction items using List.reverseRecOn with
  | nil => rfl
  | append_singleton items b ih =>
    rw [List.map_append, List.nodup_append] at hnd
    have hfresh : key b ∉ items.map key := fun hm => hnd.2.2 _ hm (key b) (by simp) rfl
    have hentries := ih hnd.1
    rw [group_append_singleton, List.map_append]
    simp only [upsert, hentries]
    rw [upsertEntries_of_not_mem _ _ (by simpa [List.map_map, Function.comp_def] using hfresh)]
    simp

/-- With pairwise distinct keys every item starts a group of its own. -/
theorem values_group_of_nodup {items : List β} (hnd : (items.map key).Nodup) :
    (group key start add items).values = items.map start := by
  simp [values, entries_group_of_nodup key start add hnd, List.map_map, Function.comp_def]

end Group
end InsertionMap
end Portcall
