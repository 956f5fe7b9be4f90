import Mathlib
import Portcall.Library.Threads

/-! What programs side by side hold: a program closes all it opens, and uses nothing it does not
hold. What it holds is its own, so that the others can be left out of its proof. -/
namespace Portcall.Threads

/-- What an action opens with its reply, what it closes, and what it needs open. -/
structure Ledger (Op : Type → Type) (R : Type) where
  opened : {β : Type} → Op β → β → Option R
  closed : {β : Type} → Op β → Option R
  used : {β : Type} → Op β → Set R
  closed_used : ∀ {β : Type} {op : Op β} {r : R}, closed op = some r → r ∈ used op

section
variable {Op : Type → Type} {R : Type} (ledger : Ledger Op R)

/-- What is open after an action. -/
def Ledger.after {β : Type} (op : Op β) (reply : β) (held : Set R) : Set R :=
  {r | (r ∈ held ∧ ledger.closed op ≠ some r) ∨ ledger.opened op reply = some r}

/-- The program that holds these uses no others, and `post` holds of its value and of what it holds
at its end. Programs side by side end with nothing. -/
def Owns : {α : Type} → Prog Op α → Set R → (α → Set R → Prop) → Prop
  | _, .done value, held, post => post value held
  | _, .act op next, held, post => ledger.used op ⊆ held ∧ ∀ reply,
    (∀ r, ledger.opened op reply = some r → r ∉ held) →
      Owns (next reply) (ledger.after op reply held) post
  | _, @Prog.all _ _ n _ threads next, held, post => ∃ parts : Fin n → Set R,
    (∀ i, Owns (threads i) (parts i) fun _ left => left = ∅) ∧
      (Pairwise fun i j => Disjoint (parts i) (parts j)) ∧ held = ⋃ i, parts i ∧
      ∀ values, Owns (next values) ∅ post

variable {ledger} {α β γ : Type} {program : Prog Op α} {held : Set R} {post : α → Set R → Prop}

lemma Owns.bind {f : α → Prog Op β} {mid : α → Set R → Prop} {post : β → Set R → Prop}
    (h : Owns ledger program held mid)
    (hf : ∀ value left, mid value left → Owns ledger (f value) left post) :
    Owns ledger (program >>= f) held post := by
  induction program generalizing held with
  | done value => exact hf value held h
  | act op next ih => exact ⟨h.1, fun reply hfresh => ih reply (h.2 reply hfresh) hf⟩
  | all threads next ih ihnext =>
    obtain ⟨parts, hthreads, hdisjoint, hheld, hnext⟩ := h
    exact ⟨parts, hthreads, hdisjoint, hheld, fun values => ihnext values (hnext values) hf⟩

lemma Owns.weaken {mid : α → Set R → Prop} (h : Owns ledger program held mid)
    (hpost : ∀ value left, mid value left → post value left) : Owns ledger program held post := by
  induction program generalizing held with
  | done value => exact hpost value held h
  | act op next ih => exact ⟨h.1, fun reply hfresh => ih reply (h.2 reply hfresh) hpost⟩
  | all threads next ih ihnext =>
    obtain ⟨parts, hthreads, hdisjoint, hheld, hnext⟩ := h
    exact ⟨parts, hthreads, hdisjoint, hheld, fun values => ihnext values (hnext values) hpost⟩

/-- Programs that start and end with nothing do so side by side. -/
lemma owns_all {n : ℕ} {β : Fin n → Type} {threads : (i : Fin n) → Prog Op (β i)}
    {next : ((i : Fin n) → β i) → Prog Op α}
    (h : ∀ i, Owns ledger (threads i) ∅ fun _ left => left = ∅)
    (hnext : ∀ values, Owns ledger (next values) ∅ post) :
    Owns ledger (.all threads next) ∅ post :=
  ⟨fun _ => ∅, h, fun _ _ _ => Set.disjoint_empty _, Set.iUnion_empty.symm, hnext⟩

lemma owns_concurrently {f : γ → Prog Op β} {items : List γ}
    (h : ∀ item ∈ items, Owns ledger (f item) ∅ fun _ left => left = ∅) :
    Owns ledger (.concurrently f items) ∅ fun _ left => left = ∅ :=
  owns_all (fun _ => h _ (List.getElem_mem _)) fun _ => rfl

lemma owns_both {first : Prog Op α} {second : Prog Op β}
    (h : Owns ledger first ∅ fun _ left => left = ∅)
    (h' : Owns ledger second ∅ fun _ left => left = ∅) :
    Owns ledger (.both first second) ∅ fun _ left => left = ∅ := by
  refine owns_all (fun i => ?_) fun _ => rfl
  match i with
  | 0 => exact h
  | 1 => exact h'

end

/-- A state keeps the ledger: what it has open changes by what is done, and by nothing else. -/
structure World.Accounts {σ : Type} {Op : Type → Type} {R : Type} (world : World σ Op)
    (ledger : Ledger Op R) (live : σ → Set R) : Prop where
  fresh : ∀ {β : Type} {s s' : σ} {op : Op β} {reply : β}, world.step s op reply s' →
    ∀ r, ledger.opened op reply = some r → r ∉ live s
  step : ∀ {β : Type} {s s' : σ} {op : Op β} {reply : β}, world.step s op reply s' →
    live s' = ledger.after op reply (live s)
  drift : ∀ {s s' : σ}, world.drift s s' → live s' = live s

section Runs
variable {σ : Type} {Op : Type → Type} {R : Type} {world : World σ Op} {ledger : Ledger Op R}
  {live : σ → Set R} {α β : Type} {program left : Prog Op α} {held : Set R}
  {post : α → Set R → Prop} {s s' : σ}

/-- An action leaves alone what others hold. -/
lemma Ledger.after_union {op : Op β} {reply : β} {frame : Set R} (hused : ledger.used op ⊆ held)
    (hdisjoint : Disjoint held frame) :
    ledger.after op reply (held ∪ frame) = ledger.after op reply held ∪ frame := by
  have hother : ∀ r ∈ frame, ledger.closed op ≠ some r := fun r hr hclosed =>
    Set.disjoint_left.mp hdisjoint (hused (ledger.closed_used hclosed)) hr
  ext r
  simp only [Ledger.after, Set.mem_ofPred_eq, Set.mem_union]
  constructor
  · rintro (⟨hheld | hframe, hopen⟩ | hopened)
    · exact Or.inl (Or.inl ⟨hheld, hopen⟩)
    · exact Or.inr hframe
    · exact Or.inl (Or.inr hopened)
  · rintro ((⟨hheld, hopen⟩ | hopened) | hframe)
    · exact Or.inl ⟨Or.inl hheld, hopen⟩
    · exact Or.inr hopened
    · exact Or.inl ⟨Or.inr hframe, hother r hframe⟩

lemma Ledger.disjoint_after {op : Op β} {reply : β} {frame : Set R} (hdisjoint : Disjoint held frame)
    (hfresh : ∀ r, ledger.opened op reply = some r → r ∉ frame) :
    Disjoint (ledger.after op reply held) frame := by
  rw [Set.disjoint_left]
  rintro r (⟨hheld, -⟩ | hopened)
  · exact Set.disjoint_left.mp hdisjoint hheld
  · exact hfresh r hopened

lemma iUnion_update {n : ℕ} (parts : Fin n → Set R) (i : Fin n) (part : Set R) :
    ⋃ j, Function.update parts i part j = part ∪ ⋃ j ∈ {j | j ≠ i}, parts j := by
  ext r
  simp only [Set.mem_iUnion, Set.mem_union, Set.mem_ofPred_eq, exists_prop]
  constructor
  · rintro ⟨j, hj⟩
    by_cases hji : j = i
    · subst hji
      rw [Function.update_self] at hj
      exact Or.inl hj
    · rw [Function.update_of_ne hji] at hj
      exact Or.inr ⟨j, hji, hj⟩
  · rintro (hpart | ⟨j, hji, hj⟩)
    · exact ⟨i, by rwa [Function.update_self]⟩
    · exact ⟨j, by rwa [Function.update_of_ne hji]⟩

/-- A step of a program among others changes only what it holds itself. -/
theorem Owns.step (haccounts : world.Accounts ledger live) (h : Owns ledger program held post)
    (hstep : Step world s program s' left) {frame : Set R} (hdisjoint : Disjoint held frame)
    (hlive : live s = held ∪ frame) :
    ∃ held', Owns ledger left held' post ∧ Disjoint held' frame ∧ live s' = held' ∪ frame := by
  induction hstep generalizing held frame with
  | act hreply =>
    have hfresh := haccounts.fresh hreply
    rw [hlive] at hfresh
    refine ⟨_, h.2 _ fun r hr hheld => hfresh r hr (Or.inl hheld), ?_, ?_⟩
    · exact Ledger.disjoint_after hdisjoint fun r hr hframe => hfresh r hr (Or.inr hframe)
    · rw [haccounts.step hreply, hlive, Ledger.after_union h.1 hdisjoint]
  | thread i _ ih =>
    obtain ⟨parts, hthreads, hpairs, rfl, hnext⟩ := h
    -- to thread `i`, the others and the frame are one frame
    have hself := iUnion_update parts i (parts i)
    rw [Function.update_eq_self] at hself
    set others : Set _ := ⋃ j ∈ {j | j ≠ i}, parts j with hothers
    have hparts : Disjoint (parts i) others := by
      rw [hothers, Set.disjoint_iUnion₂_right]
      exact fun j hj => hpairs (Ne.symm hj)
    rw [hself, Set.disjoint_union_left] at hdisjoint
    rw [hself, Set.union_assoc] at hlive
    obtain ⟨part, hpart, hpartDisjoint, hlive'⟩ := ih (hthreads i)
      (Set.disjoint_union_right.mpr ⟨hparts, hdisjoint.1⟩) hlive
    rw [Set.disjoint_union_right] at hpartDisjoint
    refine ⟨⋃ j, Function.update parts i part j, ⟨_, fun j => ?_, fun j k hjk => ?_, rfl, hnext⟩,
      ?_, ?_⟩
    · by_cases hj : j = i
      · subst hj
        rw [Function.update_self, Function.update_self]
        exact hpart
      · rw [Function.update_of_ne hj, Function.update_of_ne hj]
        exact hthreads j
    · have hother : ∀ k ≠ i, Disjoint part (parts k) := fun k hk =>
        (Set.disjoint_iUnion₂_right.mp hpartDisjoint.1) k hk
      change Disjoint (Function.update parts i part j) (Function.update parts i part k)
      by_cases hj : j = i
      · subst hj
        rw [Function.update_self, Function.update_of_ne hjk.symm]
        exact hother k hjk.symm
      · by_cases hk : k = i
        · subst hk
          rw [Function.update_self, Function.update_of_ne hj]
          exact (hother j hj).symm
        · rw [Function.update_of_ne hj, Function.update_of_ne hk]
          exact hpairs hjk
    · rw [iUnion_update, Set.disjoint_union_left]
      exact ⟨hpartDisjoint.2, hdisjoint.2⟩
    · rw [iUnion_update, Set.union_assoc]
      exact hlive'
  | join hdone =>
    obtain ⟨parts, hthreads, -, rfl, hnext⟩ := h
    have hempty : ⋃ i, parts i = ∅ := by
      refine Set.iUnion_eq_empty.mpr fun i => ?_
      have hthread := hthreads i
      rw [hdone i] at hthread
      exact hthread
    rw [hempty] at hdisjoint hlive
    exact ⟨∅, hnext _, hdisjoint, hlive⟩
  | drift hdrift => exact ⟨held, h, hdisjoint, (haccounts.drift hdrift).trans hlive⟩

/-- In every order of the steps, what is open is what is left of the program holds. -/
theorem Owns.run (haccounts : world.Accounts ledger live) (h : Owns ledger program ∅ post)
    (hlive : live s = ∅) (hrun : Reaches world s program s' left) :
    Owns ledger left (live s') post := by
  induction hrun with
  | refl => rwa [hlive]
  | step _ hstep ih =>
    obtain ⟨held, hleft, -, hheld⟩ := ih.step haccounts hstep (Set.disjoint_empty _)
      (Set.union_empty _).symm
    rwa [hheld, Set.union_empty]

/-- Nothing is used that is not open. -/
theorem Owns.poised {op : Op β} (h : Owns ledger program held post) (hop : Poised op program) :
    ledger.used op ⊆ held := by
  induction hop generalizing held with
  | act => exact h.1
  | thread i _ ih =>
    obtain ⟨parts, hthreads, -, rfl, -⟩ := h
    exact (ih (hthreads i)).trans (Set.subset_iUnion parts i)

end Runs
end Portcall.Threads
