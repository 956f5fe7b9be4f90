import Mathlib.Data.List.Basic

/-! Walks in a tree of names. A place is given by the names on the way down to it; a step stays
where it is, goes up or goes down to a name. -/
namespace Portcall.PathWalk
variable {ν : Type*}

inductive Step (ν : Type*) where
  | here
  | up
  | down (name : ν)
  deriving DecidableEq, Repr

/-- Where a step leads. Above the root there is only the root. -/
def Step.lead (place : List ν) : Step ν → List ν
  | .here => place
  | .up => place.dropLast
  | .down name => place ++ [name]

def walk (place : List ν) (steps : List (Step ν)) : List ν := steps.foldl Step.lead place

@[simp] lemma walk_nil (place : List ν) : walk place [] = place := rfl

@[simp] lemma walk_cons (place : List ν) (step : Step ν) (steps : List (Step ν)) :
    walk place (step :: steps) = walk (step.lead place) steps := rfl

lemma walk_down (place names : List ν) : walk place (names.map .down) = place ++ names := by
  induction names generalizing place with
  | nil => simp
  | cons name names ih => simp [Step.lead, ih]

/-- A name on the place a walk leads to was there before, or was stepped down to. -/
lemma mem_walk {name : ν} {steps : List (Step ν)} {place : List ν}
    (h : name ∈ walk place steps) : name ∈ place ∨ .down name ∈ steps := by
  induction steps generalizing place with
  | nil => exact Or.inl h
  | cons step steps ih =>
    rcases ih h with hm | hm
    · cases step with
      | here => exact Or.inl hm
      | up => exact Or.inl (List.dropLast_subset _ hm)
      | down other =>
        rcases List.mem_append.mp hm with hm | hm
        · exact Or.inl hm
        · rw [List.mem_singleton.mp hm]
          exact Or.inr List.mem_cons_self
    · exact Or.inr (List.mem_cons_of_mem _ hm)

section Relative
variable [DecidableEq ν]

/-- The way from one place to another: up to the last place on both ways, then down. -/
def relative : List ν → List ν → List (Step ν)
  | a :: origin, b :: destination =>
    if a = b then relative origin destination
    else (a :: origin).map (fun _ => .up) ++ (b :: destination).map .down
  | origin, destination => origin.map (fun _ => .up) ++ destination.map .down

lemma relative_append (origin below : List ν) :
    relative origin (origin ++ below) = below.map .down := by
  induction origin with
  | nil => cases below <;> rfl
  | cons name origin ih => rw [List.cons_append, relative, if_pos rfl, ih]

/-- The way to a place that is not below begins upwards. -/
lemma relative_of_not_prefix {origin destination : List ν} (h : ¬origin <+: destination) :
    ∃ rest, relative origin destination = .up :: rest := by
  induction origin generalizing destination with
  | nil => exact absurd List.nil_prefix h
  | cons name origin ih =>
    cases destination with
    | nil => exact ⟨_, rfl⟩
    | cons name' destination =>
      rw [relative]
      split_ifs with hname
      · exact ih fun hstarts => h (hname ▸ List.cons_prefix_cons.mpr ⟨rfl, hstarts⟩)
      · exact ⟨_, rfl⟩

end Relative
end Portcall.PathWalk
