import Mathlib.Data.List.Chain
import Mathlib.Data.List.Flatten
import Mathlib.Tactic.SplitIfs

/-! Items put in groups, in their order, one group open at a time. An item goes on the open group
as long as it fits behind what is there, and opens a group of its own when it does not. -/
namespace Portcall.GreedyFill
variable {α : Type*} (fits : List α → α → Prop) {items group more : List α}
  {groups : List (List α)}

/-- A grouping that leaves no item out and opens no group before it has to. -/
structure Greedy (items : List α) (groups : List (List α)) : Prop where
  flatten : groups.flatten = items
  nonempty : [] ∉ groups
  fitted : ∀ front item back, front ++ item :: back ∈ groups → front ≠ [] → fits front item
  full : groups.IsChain fun group next => ∃ item ∈ next.head?, ¬fits group item

variable {fits} in
lemma Greedy.tail (h : Greedy fits items (group :: groups)) :
    Greedy fits groups.flatten groups :=
  ⟨rfl, fun hnil => h.nonempty (List.mem_cons_of_mem _ hnil),
    fun front item back hm => h.fitted front item back (List.mem_cons_of_mem _ hm), h.full.tail⟩

variable [∀ group item, Decidable (fits group item)]

/-- The groups from an open one on. -/
def fillFrom (group : List α) : List α → List (List α)
  | [] => [group]
  | item :: rest =>
    if fits group item then fillFrom (group ++ [item]) rest else group :: fillFrom [item] rest

def fill : List α → List (List α)
  | [] => []
  | item :: rest => fillFrom fits [item] rest

variable {fits}

/-- The open group is kept, and may grow. -/
lemma fillFrom_eq_cons (group items : List α) :
    ∃ more groups, fillFrom fits group items = (group ++ more) :: groups := by
  induction items generalizing group with
  | nil => exact ⟨[], [], by rw [fillFrom, List.append_nil]⟩
  | cons item rest ih =>
    rw [fillFrom]
    split_ifs
    · obtain ⟨more, groups, h⟩ := ih (group ++ [item])
      exact ⟨item :: more, groups, by rw [h, List.append_assoc, List.singleton_append]⟩
    · exact ⟨[], _, by rw [List.append_nil]⟩

lemma flatten_fillFrom (group items : List α) :
    (fillFrom fits group items).flatten = group ++ items := by
  induction items generalizing group with
  | nil => rw [fillFrom, List.flatten_singleton, List.append_nil]
  | cons item rest ih =>
    rw [fillFrom]
    split_ifs
    · rw [ih, List.append_assoc, List.singleton_append]
    · rw [List.flatten_cons, ih, List.singleton_append]

lemma nil_notMem_fillFrom (hgroup : group ≠ []) : [] ∉ fillFrom fits group items := by
  induction items generalizing group with
  | nil => simpa [fillFrom] using hgroup.symm
  | cons item rest ih =>
    rw [fillFrom]
    split_ifs
    · exact ih (List.append_ne_nil_of_right_ne_nil _ (List.cons_ne_nil _ _))
    · rw [List.mem_cons, not_or]
      exact ⟨hgroup.symm, ih (List.cons_ne_nil _ _)⟩

/-- Behind the first item of a group stand only items that fitted there. -/
lemma fitted_fillFrom
    (hgroup : ∀ front item back, group = front ++ item :: back → front ≠ [] → fits front item)
    {front back : List α} {item : α} (hm : front ++ item :: back ∈ fillFrom fits group items)
    (hfront : front ≠ []) : fits front item := by
  induction items generalizing group with
  | nil => exact hgroup front item back (List.mem_singleton.mp hm).symm hfront
  | cons next rest ih =>
    rw [fillFrom] at hm
    split_ifs at hm with hfit
    · refine ih ?_ hm
      intro front item back he hfront
      -- The last item of the grown group is the one that was just tried.
      rcases List.eq_nil_or_concat back with rfl | ⟨back, last, rfl⟩
      · obtain ⟨rfl, hitem⟩ := List.append_inj' he rfl
        rwa [← List.singleton_inj.mp hitem]
      · rw [List.concat_eq_append, ← List.cons_append, ← List.append_assoc] at he
        exact hgroup front item back (List.append_inj' he rfl).1 hfront
    · rcases List.mem_cons.mp hm with he | hm
      · exact hgroup front item back he.symm hfront
      · refine ih ?_ hm
        intro front item back he hfront
        cases front with
        | nil => exact absurd rfl hfront
        | cons first front => simp at he

lemma full_fillFrom (group items : List α) :
    (fillFrom fits group items).IsChain fun group next => ∃ item ∈ next.head?, ¬fits group item := by
  induction items generalizing group with
  | nil => exact List.isChain_singleton _
  | cons item rest ih =>
    rw [fillFrom]
    split_ifs with hfit
    · exact ih (group ++ [item])
    · obtain ⟨more, groups, h⟩ := @fillFrom_eq_cons _ fits _ [item] rest
      have hrest := ih [item]
      rw [h] at hrest ⊢
      exact List.isChain_cons_cons.mpr ⟨⟨item, rfl, hfit⟩, hrest⟩

theorem fill_greedy (items : List α) : Greedy fits items (fill fits items) := by
  cases items with
  | nil => exact ⟨rfl, List.not_mem_nil, nofun, List.IsChain.nil⟩
  | cons item rest =>
    refine ⟨flatten_fillFrom [item] rest, nil_notMem_fillFrom (List.cons_ne_nil _ _), ?_,
      full_fillFrom [item] rest⟩
    intro front next back hm hfront
    refine fitted_fillFrom ?_ hm hfront
    intro front next back he hfront
    cases front with
    | nil => exact absurd rfl hfront
    | cons first front => simp at he

/-- Filling goes on from an open group as every greedy grouping does. -/
lemma Greedy.fillFrom_eq (h : Greedy fits (group ++ items) ((group ++ more) :: groups))
    (hgroup : group ≠ []) : fillFrom fits group items = (group ++ more) :: groups := by
  have hitems : items = more ++ groups.flatten := by
    have hflatten := h.flatten
    rw [List.flatten_cons, List.append_assoc] at hflatten
    exact (List.append_cancel_left hflatten).symm
  induction items generalizing group more groups with
  | nil =>
    obtain ⟨rfl, hrest⟩ := List.append_eq_nil_iff.mp hitems.symm
    cases groups with
    | nil => rw [fillFrom, List.append_nil]
    | cons next groups =>
      rw [List.flatten_cons, List.append_eq_nil_iff] at hrest
      exact absurd (by simp [hrest.1]) h.nonempty
  | cons item rest ih =>
    rw [fillFrom]
    cases more with
    | cons next more =>
      obtain ⟨rfl, hrest⟩ := List.cons.inj hitems
      rw [if_pos (h.fitted group item more List.mem_cons_self hgroup)]
      have hnext : group ++ item :: more = group ++ [item] ++ more := by simp
      rw [hnext] at h ⊢
      rw [← List.singleton_append, ← List.append_assoc] at h
      exact ih h (List.append_ne_nil_of_right_ne_nil _ (List.cons_ne_nil _ _)) hrest
    | nil =>
      cases groups with
      | nil => simp at hitems
      | cons next groups =>
        cases next with
        | nil => exact absurd (by simp) h.nonempty
        | cons first more =>
          rw [List.nil_append, List.flatten_cons, List.cons_append] at hitems
          obtain ⟨rfl, hrest⟩ := List.cons.inj hitems
          obtain ⟨next, hnext, hfit⟩ := (List.isChain_cons_cons.mp h.full).1
          obtain rfl : item = next := Option.some.inj hnext
          rw [List.append_nil] at hfit ⊢
          have htail := h.tail
          rw [List.flatten_cons, List.cons_append, ← hrest] at htail
          have hnext : fillFrom fits [item] rest = ([item] ++ more) :: groups :=
            ih htail (List.cons_ne_nil _ _) hrest
          rw [if_neg hfit, hnext]
          rfl

/-- There is one greedy grouping of the items. -/
theorem greedy_iff : Greedy fits items groups ↔ groups = fill fits items := by
  constructor
  · intro h
    cases groups with
    | nil =>
      obtain rfl : [] = items := h.flatten
      rfl
    | cons group groups =>
      cases group with
      | nil => exact absurd List.mem_cons_self h.nonempty
      | cons item more =>
        obtain rfl := h.flatten
        have hfill : fillFrom fits [item] (more ++ groups.flatten) = ([item] ++ more) :: groups :=
          Greedy.fillFrom_eq h (List.cons_ne_nil _ _)
        exact hfill.symm
  · rintro rfl
    exact fill_greedy items

end Portcall.GreedyFill
