import Mathlib.Data.List.Forall2
import Portcall.Library.InsertionMap

/-! The classes a list falls into, and the grouping by a key that finds them. -/
namespace Portcall

/-- The items of a list class by class: those of one class are related, those of two are not. -/
structure Classes {β : Type*} (R : β → β → Prop) (items : List β) (classes : List (List β)) :
    Prop where
  perm : classes.flatten.Perm items
  ne_nil : ∀ members ∈ classes, members ≠ []
  rel : ∀ members ∈ classes, ∀ a ∈ members, ∀ b ∈ members, R a b
  apart : classes.Pairwise fun left right => ∀ a ∈ left, ∀ b ∈ right, ¬R a b

section Classes
variable {β : Type*} {R S : β → β → Prop} {items : List β} {classes : List (List β)}

lemma Classes.mem (h : Classes R items classes) {members : List β} (hm : members ∈ classes)
    {a : β} (ha : a ∈ members) : a ∈ items :=
  h.perm.subset (List.mem_flatten_of_mem hm ha)

/-- Only what the relation says of the items counts. -/
theorem Classes.congr (h : Classes R items classes)
    (hiff : ∀ a ∈ items, ∀ b ∈ items, R a b ↔ S a b) : Classes S items classes where
  perm := h.perm
  ne_nil := h.ne_nil
  rel members hm a ha b hb := (hiff a (h.mem hm ha) b (h.mem hm hb)).mp (h.rel members hm a ha b hb)
  apart := h.apart.imp_of_mem fun hleft hright hrel a ha b hb hab =>
    hrel a ha b hb ((hiff a (h.mem hleft ha) b (h.mem hright hb)).mpr hab)

/-- What goes in step with the classes may use what holds within one. -/
lemma Classes.forall₂ (h : Classes R items classes) {α : Type*} {values : List α}
    {P Q : List β → α → Prop} (hvalues : List.Forall₂ P classes values)
    (himp : ∀ members a, (∀ b ∈ members, b ∈ items) → (∀ b ∈ members, ∀ c ∈ members, R b c) →
      P members a → Q members a) : List.Forall₂ Q classes values := by
  rw [List.forall₂_iff_zip] at hvalues ⊢
  refine ⟨hvalues.1, fun {members a} hm => ?_⟩
  have hclass := (List.of_mem_zip hm).1
  exact himp members a (fun b hb => h.mem hclass hb) (h.rel members hclass) (hvalues.2 hm)

end Classes

namespace InsertionMap
variable {κ α β γ : Type*} [DecidableEq κ]

section InStep
variable {R : α → γ → Prop}

lemma forall₂_upsertEntries (k : κ) {f : Option α → α} {g : Option γ → γ}
    (hstart : R (f none) (g none)) (hadd : ∀ a c, R a c → R (f (some a)) (g (some c)))
    {es : List (κ × α)} {cs : List (κ × γ)}
    (h : List.Forall₂ (fun e c => e.1 = c.1 ∧ R e.2 c.2) es cs) :
    List.Forall₂ (fun e c => e.1 = c.1 ∧ R e.2 c.2) (upsertEntries k f es)
      (upsertEntries k g cs) := by
  induction h with
  | nil => exact .cons ⟨rfl, hstart⟩ .nil
  | @cons e c es cs hec hrest ih =>
    rw [upsertEntries, upsertEntries, hec.1]
    split_ifs
    · exact .cons ⟨rfl, hadd _ _ hec.2⟩ hrest
    · exact .cons hec ih

/-- Two groupings of one list by one key go in step. -/
theorem forall₂_group (key : β → κ) {start : β → α} {add : α → β → α} {start' : β → γ}
    {add' : γ → β → γ} (hstart : ∀ b, R (start b) (start' b))
    (hadd : ∀ a c b, R a c → R (add a b) (add' c b)) (items : List β) :
    List.Forall₂ R (group key start add items).values (group key start' add' items).values := by
  have hentries : List.Forall₂ (fun (e : κ × α) (c : κ × γ) => e.1 = c.1 ∧ R e.2 c.2)
      (group key start add items).entries (group key start' add' items).entries := by
    induction items using List.reverseRecOn with
    | nil => exact .nil
    | append_singleton items b ih =>
      rw [group_append_singleton, group_append_singleton]
      exact forall₂_upsertEntries (key b) (hstart b) (fun a c hac => hadd a c b hac) ih
  rw [values, values, List.forall₂_map_left_iff, List.forall₂_map_right_iff]
  exact hentries.imp fun _ _ h => h.2

end InStep
section ClassesBy
variable (key : β → κ)

/-- The items under each key, in order. -/
def classesBy (items : List β) : List (List β) :=
  (group key (fun b => [b]) (fun members b => members ++ [b]) items).values

lemma foldl_collect (rest members : List β) :
    rest.foldl (fun members b => members ++ [b]) members = members ++ rest := by
  induction rest generalizing members with
  | nil => exact (List.append_nil members).symm
  | cons b rest ih => rw [List.foldl_cons, ih, List.append_assoc, List.singleton_append]

/-- A class is what has its key. -/
lemma get?_group_list {items : List β} {k : κ} {members : List β}
    (h : (group key (fun b => [b]) (fun members b => members ++ [b]) items).get? k =
      some members) : members = items.filter (fun b => key b = k) ∧ members ≠ [] := by
  rw [get?_group] at h
  cases hfilter : items.filter fun b => key b = k with
  | nil =>
    rw [hfilter] at h
    cases h
  | cons b rest =>
    rw [hfilter] at h
    rw [← Option.some.inj h, foldl_collect]
    exact ⟨rfl, List.cons_ne_nil _ _⟩

theorem classes_classesBy (items : List β) :
    Classes (fun a b => key a = key b) items (classesBy key items) := by
  have hmem : ∀ entry ∈ (group key (fun b => [b]) (fun members b => members ++ [b]) items).entries,
      entry.2 = items.filter (fun b => key b = entry.1) ∧ entry.2 ≠ [] := fun entry hm =>
    get?_group_list key ((get?_eq_some_iff _ _ _).mpr hm)
  have hkey : ∀ entry ∈ (group key (fun b => [b]) (fun members b => members ++ [b]) items).entries,
      ∀ a ∈ entry.2, key a = entry.1 := by
    intro entry hm a ha
    rw [(hmem entry hm).1] at ha
    exact of_decide_eq_true (List.mem_filter.mp ha).2
  refine ⟨?_, ?_, ?_, ?_⟩
  · have hflat := flatMap_values_group key (fun b => [b]) (fun members b => members ++ [b])
      (fun members : List β => members) (fun b : β => b) (fun _ => rfl) (fun _ _ => rfl) items
    rwa [List.flatMap_id', List.map_id'] at hflat
  · intro members hm
    obtain ⟨entry, he, rfl⟩ := List.mem_map.mp hm
    exact (hmem entry he).2
  · intro members hm a ha b hb
    obtain ⟨entry, he, rfl⟩ := List.mem_map.mp hm
    exact (hkey entry he a ha).trans (hkey entry he b hb).symm
  · rw [classesBy, values, List.pairwise_map]
    refine (List.pairwise_map.mp (InsertionMap.nodup _)).imp_of_mem ?_
    intro left right hleft hright hne a ha b hb hab
    exact hne ((hkey left hleft a ha).symm.trans (hab.trans (hkey right hright b hb)))

/-- The value is what its class collects. -/
def Collects (start : β → α) (add : α → β → α) (members : List β) (a : α) : Prop :=
  ∃ b rest, members = b :: rest ∧ a = rest.foldl add (start b)

theorem forall₂_classesBy (start : β → α) (add : α → β → α) (items : List β) :
    List.Forall₂ (Collects start add) (classesBy key items) (group key start add items).values := by
  refine forall₂_group key (fun b => ⟨b, [], rfl, rfl⟩) ?_ items
  rintro _ _ b ⟨first, rest, rfl, rfl⟩
  exact ⟨first, rest ++ [b], rfl, (List.foldl_concat ..).symm⟩

end ClassesBy
end InsertionMap
end Portcall
