import Mathlib.Data.List.Chain
import Mathlib.Data.List.Nodup

/-! Walks that go on to a chosen node until nothing is left to choose. The choice may depend
on everything visited so far, which is how a walk avoids its own past. -/
namespace Portcall.Walk
variable {α β : Type*}

/-- The nodes met from `a`, in order. `choose visited a` is where the walk goes from `a`, and
`visited` holds `a` itself. -/
def walk (choose : List α → α → Option α) : ℕ → List α → α → List α
  | 0, _, _ => []
  | fuel + 1, visited, a =>
    a :: match choose (a :: visited) a with
      | none => []
      | some b => walk choose fuel (a :: visited) b

variable {choose : List α → α → Option α}

lemma walk_stop {visited : List α} {a : α} (h : choose (a :: visited) a = none) (fuel : ℕ) :
    walk choose (fuel + 1) visited a = [a] := by
  simp [walk, h]

lemma walk_go {visited : List α} {a b : α} (h : choose (a :: visited) a = some b) (fuel : ℕ) :
    walk choose (fuel + 1) visited a = a :: walk choose fuel (a :: visited) b := by
  simp [walk, h]

lemma head?_walk (choose : List α → α → Option α) (fuel : ℕ) (visited : List α) (a : α) :
    (walk choose (fuel + 1) visited a).head? = some a := rfl

/-- A step lemma for membership: what holds at the start and is kept by every choice holds of
every node of the walk. -/
theorem forall_mem_walk {P : α → Prop}
    (hstep : ∀ visited a b, P a → choose visited a = some b → P b) :
    ∀ (fuel : ℕ) (visited : List α) (a : α), P a → ∀ x ∈ walk choose fuel visited a, P x := by
  intro fuel
  induction fuel with
  | zero => intro visited a _ x hx; simp [walk] at hx
  | succ fuel ih =>
    intro visited a ha x hx
    cases hc : choose (a :: visited) a with
    | none =>
      rw [walk_stop hc, List.mem_singleton] at hx
      exact hx ▸ ha
    | some b =>
      rw [walk_go hc, List.mem_cons] at hx
      rcases hx with rfl | hx
      · exact ha
      · exact ih _ _ (hstep _ _ _ ha hc) x hx

/-- The choice never returns to a visited node. -/
def Fresh (choose : List α → α → Option α) : Prop :=
  ∀ visited a b, choose visited a = some b → b ∉ visited

theorem walk_fresh (hf : Fresh choose) : ∀ (fuel : ℕ) (visited : List α) (a : α), a ∉ visited →
    (walk choose fuel visited a).Nodup ∧ ∀ x ∈ walk choose fuel visited a, x ∉ visited := by
  intro fuel
  induction fuel with
  | zero => intro visited a _; simp [walk]
  | succ fuel ih =>
    intro visited a ha
    cases hc : choose (a :: visited) a with
    | none => rw [walk_stop hc]; simpa using ha
    | some b =>
      obtain ⟨hnd, hout⟩ := ih (a :: visited) b (hf _ _ _ hc)
      rw [walk_go hc]
      refine ⟨List.nodup_cons.mpr ⟨fun hm => hout a hm List.mem_cons_self, hnd⟩, ?_⟩
      intro x hx
      rcases List.mem_cons.mp hx with rfl | hx
      · exact ha
      · exact fun hv => hout x hx (List.mem_cons_of_mem _ hv)

/-- Consecutive nodes are related by whatever every choice respects. -/
theorem isChain_walk {R : α → α → Prop}
    (hR : ∀ visited a b, choose visited a = some b → R a b) :
    ∀ (fuel : ℕ) (visited : List α) (a : α), (walk choose fuel visited a).IsChain R := by
  intro fuel
  induction fuel with
  | zero => intro visited a; simp [walk]
  | succ fuel ih =>
    intro visited a
    cases hc : choose (a :: visited) a with
    | none => rw [walk_stop hc]; exact List.isChain_singleton a
    | some b =>
      rw [walk_go hc]
      refine List.IsChain.cons (ih _ _) ?_
      intro y hy
      cases fuel with
      | zero => simp [walk] at hy
      | succ fuel =>
        rw [head?_walk] at hy
        cases hy
        exact hR _ _ _ hc

/-- A walk that did not use up its fuel stopped because there was nothing left to choose. -/
theorem walk_ended : ∀ (fuel : ℕ) (visited : List α) (a : α),
    (walk choose fuel visited a).length < fuel →
    ∃ last, (walk choose fuel visited a).getLast? = some last ∧
      choose ((walk choose fuel visited a).reverse ++ visited) last = none := by
  intro fuel
  induction fuel with
  | zero => intro visited a h; simp at h
  | succ fuel ih =>
    intro visited a h
    cases hc : choose (a :: visited) a with
    | none =>
      rw [walk_stop hc]
      exact ⟨a, rfl, by simpa using hc⟩
    | some b =>
      rw [walk_go hc] at h ⊢
      obtain ⟨last, hl, hn⟩ := ih (a :: visited) b (by simpa using h)
      refine ⟨last, ?_, by simpa using hn⟩
      rw [List.getLast?_cons, hl]
      rfl

/-- Spare fuel changes nothing. -/
theorem walk_add_fuel : ∀ (fuel extra : ℕ) (visited : List α) (a : α),
    (walk choose fuel visited a).length < fuel →
    walk choose (fuel + extra) visited a = walk choose fuel visited a := by
  intro fuel
  induction fuel with
  | zero => intro extra visited a h; simp at h
  | succ fuel ih =>
    intro extra visited a h
    rw [Nat.succ_add]
    cases hc : choose (a :: visited) a with
    | none => rw [walk_stop hc, walk_stop hc]
    | some b =>
      rw [walk_go hc] at h ⊢
      rw [walk_go hc, ih extra _ _ (by simpa using h)]

/-- Where a second choice agrees with every choice the first one makes, the first walk is a
prefix of the second. -/
theorem walk_extends {choose' : List α → α → Option α} {P : α → Prop}
    (hstep : ∀ visited a b, P a → choose visited a = some b → choose' visited a = some b ∧ P b) :
    ∀ (fuel fuel' : ℕ) (visited : List α) (a : α), P a → fuel ≤ fuel' →
    walk choose fuel visited a <+: walk choose' fuel' visited a := by
  intro fuel
  induction fuel with
  | zero => intro fuel' visited a _ _; exact List.nil_prefix
  | succ fuel ih =>
    intro fuel' visited a ha hle
    obtain ⟨fuel', rfl⟩ : ∃ k, fuel' = k + 1 := ⟨fuel' - 1, by omega⟩
    cases hc : choose (a :: visited) a with
    | none =>
      rw [walk_stop hc]
      simp [walk]
    | some b =>
      obtain ⟨hc', hb⟩ := hstep _ _ _ ha hc
      rw [walk_go hc, walk_go hc']
      exact List.cons_prefix_cons.mpr ⟨rfl, ih _ _ _ hb (by omega)⟩

/-- Renaming nodes by `f` carries one walk to the other, as long as the second choice is
the renamed first one wherever its own outcome stays among the nodes `K`. -/
theorem walk_map {choose' : List β → β → Option β} {f : α → β} {P : α → Prop} {K : β → Prop}
    (hstep : ∀ visited a, P a → (∀ x ∈ visited, P x) →
      (∀ b, choose' (visited.map f) (f a) = some b → K b) →
      choose' (visited.map f) (f a) = (choose visited a).map f)
    (hP : ∀ visited a b, choose visited a = some b → P b) :
    ∀ (fuel : ℕ) (visited : List α) (a : α), P a → (∀ x ∈ visited, P x) →
    (∀ y ∈ walk choose' fuel (visited.map f) (f a), K y) →
    walk choose' fuel (visited.map f) (f a) = (walk choose fuel visited a).map f := by
  intro fuel
  induction fuel with
  | zero => intro visited a _ _ _; rfl
  | succ fuel ih =>
    intro visited a ha hv hK
    have hv' : ∀ x ∈ a :: visited, P x := by
      intro x hx
      rcases List.mem_cons.mp hx with rfl | hx
      · exact ha
      · exact hv x hx
    cases fuel with
    | zero => simp only [walk]; split <;> split <;> rfl
    | succ fuel =>
      have hkept : ∀ b, choose' ((a :: visited).map f) (f a) = some b → K b := by
        intro b hb
        apply hK
        rw [walk_go (by simpa using hb)]
        exact List.mem_cons_of_mem _ List.mem_cons_self
      have hc := hstep (a :: visited) a ha hv' hkept
      rw [List.map_cons] at hc
      cases hd : choose (a :: visited) a with
      | none =>
        rw [hd] at hc
        rw [walk_stop hc, walk_stop hd]
        rfl
      | some b =>
        rw [hd] at hc
        rw [walk_go hc] at hK ⊢
        rw [walk_go hd, List.map_cons]
        refine congrArg (f a :: ·) (ih (a :: visited) b (hP _ _ _ hd) hv' ?_)
        exact fun y hy => hK y (List.mem_cons_of_mem _ hy)

/-- Where every node has at most one successor, of two chains from one node the shorter is where the
longer begins. -/
theorem prefix_or_prefix {R : α → α → Prop} (hR : ∀ a b c, R a b → R a c → b = c) {l l' : List α}
    (h : l.IsChain R) (h' : l'.IsChain R) (hhead : l.head? = l'.head?) : l <+: l' ∨ l' <+: l := by
  induction l generalizing l' with
  | nil => exact Or.inl List.nil_prefix
  | cons a l ih =>
    cases l' with
    | nil => exact Or.inr List.nil_prefix
    | cons a' l' =>
      cases hhead
      rw [List.isChain_cons] at h h'
      simp only [List.cons_prefix_cons, true_and]
      cases l with
      | nil => exact Or.inl List.nil_prefix
      | cons b l =>
        cases l' with
        | nil => exact Or.inr List.nil_prefix
        | cons b' l' =>
          have hb := hR a b b' (h.1 b rfl) (h'.1 b' rfl)
          exact ih h.2 h'.2 (congrArg some hb)

end Portcall.Walk
