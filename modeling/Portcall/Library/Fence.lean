import Mathlib.Data.List.Infix

/-! Texts cut by fences, a fence being a run of one mark. Nothing in a stretch between two fences
is a fence, but a stretch may begin or end with the mark, so that a fence can be read at more than
one place. -/
namespace Portcall.Fence
variable {α : Type*} {mark : α} {width m : ℕ} {stretch left right rest : List α}
  {stretches : List (List α)}

/-- Without a fence. -/
def Quiet (mark : α) (width : ℕ) (stretch : List α) : Prop :=
  ¬List.replicate width mark <:+: stretch

/-- Every stretch behind a fence. -/
def fenced (mark : α) (width : ℕ) (stretches : List (List α)) : List α :=
  stretches.flatMap fun stretch => List.replicate width mark ++ stretch

/-- A fence between two stretches takes marks of one of them at the most. -/
def Apart (mark : α) (left right : List α) : Prop :=
  mark ∉ left.getLast? ∨ mark ∉ right.head?

@[simp] lemma fenced_nil : fenced mark width [] = [] := rfl

lemma fenced_cons : fenced mark width (stretch :: stretches) =
    List.replicate width mark ++ (stretch ++ fenced mark width stretches) := by
  rw [fenced, List.flatMap_cons, List.append_assoc]
  rfl

namespace Quiet

lemma of_append_right (h : Quiet mark width (left ++ right)) : Quiet mark width right :=
  fun hfence => h (hfence.trans (List.suffix_append left right).isInfix)

/-- Stretches without the mark. -/
lemma of_free (hwidth : 0 < width) (h : mark ∉ stretch) : Quiet mark width stretch := by
  intro hfence
  refine h (hfence.subset (List.mem_replicate.mpr ⟨by omega, rfl⟩))

/-- A fence begins with the mark, so it does not begin in front of a stretch that has none. -/
lemma append_of_free (hwidth : 0 < width) (hfree : mark ∉ left) (h : Quiet mark width right) :
    Quiet mark width (left ++ right) := by
  induction left with
  | nil => exact h
  | cons c left ih =>
    rw [List.mem_cons, not_or] at hfree
    intro hfence
    rw [List.cons_append, List.infix_cons_iff] at hfence
    rcases hfence with hfence | hfence
    · obtain ⟨n, rfl⟩ := Nat.exists_eq_add_of_lt hwidth
      rw [Nat.zero_add, List.replicate_succ, List.cons_prefix_cons] at hfence
      exact hfree.1 hfence.1
    · exact ih hfree.2 hfence

/-- Too few marks for a fence stay too few in front of a stretch that does not go on with them. -/
lemma replicate_append (hm : m < width) (hhead : mark ∉ stretch.head?)
    (h : Quiet mark width stretch) : Quiet mark width (List.replicate m mark ++ stretch) := by
  induction m with
  | zero => exact h
  | succ m ih =>
    intro hfence
    rw [List.replicate_succ, List.cons_append, List.infix_cons_iff] at hfence
    rcases hfence with hfence | hfence
    · rw [← List.cons_append, ← List.replicate_succ,
        show width = (m + 1) + (width - (m + 1) - 1 + 1) by omega, List.replicate_add,
        List.prefix_append_right_inj, List.replicate_succ] at hfence
      obtain ⟨more, rfl⟩ := hfence
      exact hhead rfl
    · exact ih (by omega) hfence

end Quiet

/-- The marks at the end of a stretch and the stretch after it, if they are not at one fence. -/
lemma Apart.quiet (hm : m < width) (hapart : Apart mark (left ++ List.replicate m mark) right)
    (h : Quiet mark width right) : Quiet mark width (List.replicate m mark ++ right) := by
  cases m with
  | zero => exact h
  | succ m =>
    refine Quiet.replicate_append hm (hapart.resolve_left (not_not_intro ?_)) h
    rw [List.replicate_succ', ← List.append_assoc, List.getLast?_append]
    rfl

/-- A stretch is known up to marks at its end by what is written before a fence: the fence that
follows the stretch is the one that was read, or the read one begins some marks earlier. -/
theorem cut (hwidth : 0 < width) (hquiet : Quiet mark width stretch) (hfree : mark ∉ left)
    (h : stretch ++ fenced mark width stretches =
      left ++ (List.replicate width mark ++ rest)) :
    ∃ next following m, stretches = next :: following ∧ m < width ∧
      stretch = left ++ List.replicate m mark ∧
      rest = List.replicate m mark ++ (next ++ fenced mark width following) := by
  induction left generalizing stretch with
  | nil =>
    rw [List.nil_append] at h
    rcases List.append_eq_append_iff.mp h with ⟨more, hfence, hmore⟩ | ⟨more, hstretch, -⟩
    · obtain ⟨hlength, hmarks, hmore'⟩ := List.append_eq_replicate_iff.mp hfence.symm
      have hlt : stretch.length < width := by
        rcases Nat.lt_or_ge stretch.length width with hlt | hge
        · exact hlt
        · refine absurd ?_ hquiet
          rw [hmarks, show stretch.length = width by omega]
      obtain ⟨n, rfl⟩ : ∃ n, width = n + 1 + stretch.length :=
        ⟨width - stretch.length - 1, by omega⟩
      obtain rfl : more = List.replicate (n + 1) mark := by
        rw [hmore', show more.length = n + 1 by omega]
      cases stretches with
      | nil =>
        rw [fenced_nil, List.replicate_succ] at hmore
        cases hmore
      | cons next following =>
        refine ⟨next, following, stretch.length, rfl, hlt, hmarks, ?_⟩
        rw [fenced_cons, List.replicate_add, List.append_assoc] at hmore
        exact (List.append_cancel_left hmore).symm
    · exact absurd ⟨[], more, by simpa using hstretch.symm⟩ hquiet
  | cons c left ih =>
    rw [List.mem_cons, not_or] at hfree
    cases stretch with
    | nil =>
      cases stretches with
      | nil => cases h
      | cons next following =>
        obtain ⟨n, rfl⟩ := Nat.exists_eq_add_of_lt hwidth
        rw [fenced_cons, Nat.zero_add, List.replicate_succ] at h
        exact absurd (List.cons.inj h).1 hfree.1
    | cons d stretch =>
      rw [List.cons_append, List.cons_append, List.cons.injEq] at h
      obtain ⟨rfl, h⟩ := h
      obtain ⟨next, following, m, hnext, hm, hstretch, hrest⟩ :=
        ih (Quiet.of_append_right (show Quiet mark width ([d] ++ stretch) from hquiet)) hfree.2 h
      exact ⟨next, following, m, hnext, hm, by rw [hstretch, List.cons_append], hrest⟩

end Portcall.Fence
