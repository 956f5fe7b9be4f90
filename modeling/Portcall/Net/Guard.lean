import Portcall.Library.InsertionMap
import Portcall.Profile

/-! The network policy: a host is contacted only when the profile names it, or when it was admitted
with a reason. -/
namespace Portcall.Net

/-- DoH is served on one port; the probe never picks another. -/
def dohPort : ℕ := 443

/-- One host that may be contacted, the ports it may be contacted on in the order they were
admitted, and why. -/
structure PermittedHost where
  host : String
  ports : List ℕ
  reason : String
  deriving DecidableEq, Repr

/-- Why a connection was refused; no port when the denial was of a host. -/
structure NetworkPolicyError where
  host : String
  port : Option ℕ
  deriving DecidableEq, Repr

def NetworkPolicyError.message (error : NetworkPolicyError) : String :=
  "refusing to connect to " ++
    (match error.port with
    | none => error.host
    | some port => error.host ++ ":" ++ toString port) ++
    ": not named in the active profile. Portcall only contacts hosts the profile declares."

/-- A host's name as the guard knows it. -/
def guardKey (ext : Externals) (host : String) : String := ext.toLowerCase (Text.trim host)

/-- The permitted hosts by their keys: each under its own, and on some port. -/
structure NetworkGuard where
  allowed : InsertionMap String PermittedHost
  keyed : ∀ key entry, allowed.get? key = some entry → entry.host = key ∧ entry.ports ≠ []

namespace NetworkGuard

def empty : NetworkGuard := ⟨.empty, fun _ _ h => by cases h⟩

/-- The entry of a host once it is admitted on this port; the first reason stays. -/
def permitEntry (key : String) (port : ℕ) (reason : String) : Option PermittedHost → PermittedHost
  | none => ⟨key, [port], reason⟩
  | some existing =>
    if port ∈ existing.ports then existing
    else { existing with ports := existing.ports ++ [port] }

lemma permitEntry_keyed {key : String} {port : ℕ} {reason : String} {found : Option PermittedHost}
    (h : ∀ entry, found = some entry → entry.host = key ∧ entry.ports ≠ []) :
    (permitEntry key port reason found).host = key ∧
      (permitEntry key port reason found).ports ≠ [] := by
  cases found with
  | none => exact ⟨rfl, List.cons_ne_nil _ _⟩
  | some existing =>
    obtain ⟨hhost, hports⟩ := h existing rfl
    rw [permitEntry]
    split_ifs
    · exact ⟨hhost, hports⟩
    · exact ⟨hhost, List.append_ne_nil_of_left_ne_nil hports _⟩

section
variable (ext : Externals) (guard : NetworkGuard)

def permit (host : String) (port : ℕ) (reason : String) : NetworkGuard where
  allowed := guard.allowed.upsert (guardKey ext host) (permitEntry (guardKey ext host) port reason)
  keyed key entry h := by
    rw [InsertionMap.get?_upsert] at h
    by_cases hkey : key = guardKey ext host
    · rw [if_pos hkey, Option.some.injEq] at h
      rw [hkey, ← h]
      exact permitEntry_keyed fun entry hfound => guard.keyed _ entry hfound
    · rw [if_neg hkey] at h
      exact guard.keyed key entry h

/-- Everything a profile declares, admitted before the first probe runs. -/
def ofProfile (profile : Profile) : NetworkGuard :=
  profile.dohResolvers.foldl (fun guard host => guard.permit ext host dohPort "profile DoH resolver")
    (profile.endpoints.foldl (fun guard endpoint =>
      guard.permit ext endpoint.host endpoint.port ("profile endpoint: " ++ endpoint.purpose)) empty)

def isAllowed (host : String) (port : ℕ) : Bool :=
  (guard.allowed.get? (guardKey ext host)).any fun entry => port ∈ entry.ports

/-- For a host that has no port yet. -/
def isHostAllowed (host : String) : Bool := (guard.allowed.get? (guardKey ext host)).isSome

/-- Every host this run may contact, for disclosure. -/
def permitted (localeCompare : String → String → ℤ) : List PermittedHost :=
  guard.allowed.values.insertionSort fun left right => localeCompare left.host right.host ≤ 0

end

/-- One guard permits what the other does, under the same names and for the same reasons. -/
instance : Preorder NetworkGuard where
  le guard guard' := ∀ key entry, guard.allowed.get? key = some entry →
    ∃ entry', guard'.allowed.get? key = some entry' ∧ entry'.reason = entry.reason ∧
      entry.ports ⊆ entry'.ports
  le_refl _ _ entry h := ⟨entry, h, rfl, List.Subset.refl _⟩
  le_trans _ _ _ h h' key entry hentry := by
    obtain ⟨entry', hentry', hreason, hports⟩ := h key entry hentry
    obtain ⟨entry'', hentry'', hreason', hports'⟩ := h' key entry' hentry'
    exact ⟨entry'', hentry'', hreason'.trans hreason, List.Subset.trans hports hports'⟩

section Permit
variable {ext : Externals} {guard guard' : NetworkGuard} {host host' : String} {port port' : ℕ}
  {reason : String}

lemma mem_ports_permitEntry {key : String} {found : Option PermittedHost} :
    port' ∈ (permitEntry key port reason found).ports ↔
      port' = port ∨ found.any fun entry => port' ∈ entry.ports := by
  cases found with
  | none => simp [permitEntry]
  | some existing =>
    rw [permitEntry]
    split_ifs with h
    · constructor
      · exact fun hm => Or.inr (by simpa using hm)
      · rintro (rfl | hm)
        · exact h
        · simpa using hm
    · simp [or_comm]

/-- To permit a host on a port is to allow that, and nothing else. -/
theorem isAllowed_permit : (guard.permit ext host port reason).isAllowed ext host' port' = true ↔
    (guardKey ext host' = guardKey ext host ∧ port' = port) ∨
      guard.isAllowed ext host' port' = true := by
  simp only [isAllowed, permit, InsertionMap.get?_upsert]
  by_cases hkey : guardKey ext host' = guardKey ext host
  · rw [if_pos hkey, hkey, Option.any_some, decide_eq_true_iff, mem_ports_permitEntry]
    simp
  · rw [if_neg hkey]
    simp [hkey]

lemma isHostAllowed_of_isAllowed (h : guard.isAllowed ext host port = true) :
    guard.isHostAllowed ext host = true := by
  obtain ⟨entry, hentry, -⟩ := (Option.any_eq_true _ _).mp h
  rw [isHostAllowed, hentry]
  rfl

/-- A host is allowed when it is on some port. -/
lemma isHostAllowed_iff :
    guard.isHostAllowed ext host = true ↔ ∃ port, guard.isAllowed ext host port = true := by
  refine ⟨fun h => ?_, fun ⟨_, h⟩ => isHostAllowed_of_isAllowed h⟩
  obtain ⟨entry, hentry⟩ := Option.isSome_iff_exists.mp h
  obtain ⟨port, hport⟩ := List.exists_mem_of_ne_nil _ (guard.keyed _ _ hentry).2
  refine ⟨port, ?_⟩
  rw [isAllowed, hentry, Option.any_some]
  exact decide_eq_true hport

lemma le_permit : guard ≤ guard.permit ext host port reason := by
  intro key entry hentry
  simp only [permit, InsertionMap.get?_upsert]
  by_cases hkey : key = guardKey ext host
  · rw [if_pos hkey]
    refine ⟨_, rfl, ?_, fun port' hport => ?_⟩
    · rw [← hkey, hentry, permitEntry]
      split_ifs <;> rfl
    · rw [mem_ports_permitEntry, ← hkey, hentry]
      exact Or.inr (by simpa using hport)
  · rw [if_neg hkey]
    exact ⟨entry, hentry, rfl, List.Subset.refl _⟩

lemma isAllowed_of_le (hle : guard ≤ guard') (h : guard.isAllowed ext host port = true) :
    guard'.isAllowed ext host port = true := by
  obtain ⟨entry, hentry, hport⟩ := (Option.any_eq_true _ _).mp h
  obtain ⟨entry', hentry', -, hsubset⟩ := hle _ entry hentry
  rw [isAllowed, hentry', Option.any_some]
  exact decide_eq_true (hsubset (of_decide_eq_true hport))

lemma isHostAllowed_of_le (hle : guard ≤ guard') (h : guard.isHostAllowed ext host = true) :
    guard'.isHostAllowed ext host = true := by
  obtain ⟨port, hport⟩ := isHostAllowed_iff.mp h
  exact isHostAllowed_of_isAllowed (isAllowed_of_le hle hport)

lemma isAllowed_permit_self : (guard.permit ext host port reason).isAllowed ext host port = true :=
  isAllowed_permit.mpr (Or.inl ⟨rfl, rfl⟩)

end Permit

section Profile
variable {ext : Externals} {host : String} {port : ℕ}

lemma isAllowed_foldl_permit {α : Type*} (hostOf : α → String) (portOf : α → ℕ)
    (reasonOf : α → String) (items : List α) (guard : NetworkGuard) :
    (items.foldl (fun guard item => guard.permit ext (hostOf item) (portOf item) (reasonOf item))
        guard).isAllowed ext host port = true ↔
      (∃ item ∈ items, guardKey ext host = guardKey ext (hostOf item) ∧ port = portOf item) ∨
        guard.isAllowed ext host port = true := by
  induction items generalizing guard with
  | nil => simp
  | cons item items ih =>
    rw [List.foldl_cons, ih, isAllowed_permit, List.exists_mem_cons_iff]
    constructor
    · rintro (hitems | hitem | hguard)
      · exact Or.inl (Or.inr hitems)
      · exact Or.inl (Or.inl hitem)
      · exact Or.inr hguard
    · rintro ((hitem | hitems) | hguard)
      · exact Or.inr (Or.inl hitem)
      · exact Or.inl hitems
      · exact Or.inr (Or.inr hguard)

/-- The hosts and ports a profile declares. -/
def Declares (ext : Externals) (profile : Profile) (host : String) (port : ℕ) : Prop :=
  (∃ endpoint ∈ profile.endpoints,
      guardKey ext host = guardKey ext endpoint.host ∧ port = endpoint.port) ∨
    ∃ resolver ∈ profile.dohResolvers, guardKey ext host = guardKey ext resolver ∧ port = dohPort

theorem isAllowed_ofProfile {profile : Profile} :
    (ofProfile ext profile).isAllowed ext host port = true ↔ Declares ext profile host port := by
  have hempty : ¬empty.isAllowed ext host port = true := by simp [isAllowed, empty]
  have hdoh := @isAllowed_foldl_permit ext host port _ (fun resolver => resolver)
    (fun _ => dohPort) (fun _ => "profile DoH resolver") profile.dohResolvers
  have hendpoints := @isAllowed_foldl_permit ext host port _ Endpoint.host Endpoint.port
    (fun endpoint => "profile endpoint: " ++ endpoint.purpose) profile.endpoints empty
  rw [ofProfile, hdoh, hendpoints, Declares, or_iff_left hempty]
  exact or_comm

end Profile

section Disclosure
variable {ext : Externals} {guard : NetworkGuard} {host : String} {port : ℕ}
  (localeCompare : String → String → ℤ)

lemma mem_permitted_iff {entry : PermittedHost} :
    entry ∈ guard.permitted localeCompare ↔ guard.allowed.get? entry.host = some entry := by
  rw [permitted, List.mem_insertionSort, InsertionMap.mem_values_iff]
  constructor
  · rintro ⟨key, hentry⟩
    rwa [(guard.keyed key entry hentry).1]
  · exact fun hentry => ⟨entry.host, hentry⟩

/-- A host is listed once: it is its own key. -/
lemma nodup_permitted : ((guard.permitted localeCompare).map PermittedHost.host).Nodup := by
  have hkeys : guard.allowed.values.map PermittedHost.host = guard.allowed.keys := by
    rw [InsertionMap.values, InsertionMap.keys, List.map_map]
    refine List.map_congr_left fun one hm => ?_
    exact (guard.keyed one.1 one.2 ((InsertionMap.get?_eq_some_iff _ _ _).mpr hm)).1
  have hperm := (List.perm_insertionSort
    (fun left right : PermittedHost => localeCompare left.host right.host ≤ 0)
    guard.allowed.values).map PermittedHost.host
  rw [permitted, hperm.nodup_iff, hkeys]
  exact guard.allowed.nodup

lemma isAllowed_iff_permitted : guard.isAllowed ext host port = true ↔
    ∃ entry ∈ guard.permitted localeCompare, entry.host = guardKey ext host ∧
      port ∈ entry.ports := by
  rw [isAllowed, Option.any_eq_true]
  constructor
  · rintro ⟨entry, hentry, hport⟩
    have hhost := (guard.keyed _ _ hentry).1
    exact ⟨entry, (mem_permitted_iff localeCompare).mpr (hhost ▸ hentry), hhost,
      of_decide_eq_true hport⟩
  · rintro ⟨entry, hm, hhost, hport⟩
    exact ⟨entry, hhost ▸ (mem_permitted_iff localeCompare).mp hm, decide_eq_true hport⟩

/-- What a call of `permit` is given. -/
structure Admission where
  host : String
  port : ℕ
  reason : String

def admitAll (ext : Externals) (guard : NetworkGuard) (admissions : List Admission) :
    NetworkGuard :=
  admissions.foldl (fun guard admission =>
    guard.permit ext admission.host admission.port admission.reason) guard

lemma le_admitAll (admissions : List Admission) : guard ≤ admitAll ext guard admissions := by
  induction admissions generalizing guard with
  | nil => exact le_rfl
  | cons admission admissions ih => exact le_permit.trans ih

/-- Whatever is admitted in a run and in whatever order, the guard allows what the profile declares
and what was admitted, the disclosure lists exactly that with each host once, and no host that was
listed at some moment of the run is later listed for another reason. -/
theorem permitted_discloses (profile : Profile) (admissions : List Admission) :
    (((admitAll ext (ofProfile ext profile) admissions).permitted localeCompare).map
      PermittedHost.host).Nodup ∧
    (∀ host port, (admitAll ext (ofProfile ext profile) admissions).isAllowed ext host port = true ↔
      Declares ext profile host port ∨ ∃ admission ∈ admissions,
        guardKey ext host = guardKey ext admission.host ∧ port = admission.port) ∧
    (∀ host port, (admitAll ext (ofProfile ext profile) admissions).isAllowed ext host port = true ↔
      ∃ entry ∈ (admitAll ext (ofProfile ext profile) admissions).permitted localeCompare,
        entry.host = guardKey ext host ∧ port ∈ entry.ports) ∧
    ∀ earlier later, admissions = earlier ++ later →
      ∀ entry ∈ (admitAll ext (ofProfile ext profile) earlier).permitted localeCompare,
      ∃ entry' ∈ (admitAll ext (ofProfile ext profile) admissions).permitted localeCompare,
        entry'.host = entry.host ∧ entry'.reason = entry.reason ∧ entry.ports ⊆ entry'.ports := by
  refine ⟨nodup_permitted localeCompare, fun host port => ?_,
    fun host port => isAllowed_iff_permitted localeCompare, ?_⟩
  · have hadmitted := @isAllowed_foldl_permit ext host port _ Admission.host Admission.port
      Admission.reason admissions (ofProfile ext profile)
    rw [admitAll, hadmitted, isAllowed_ofProfile]
    exact or_comm
  · rintro earlier later rfl entry hm
    have hentry := (mem_permitted_iff localeCompare).mp hm
    obtain ⟨entry', hentry', hreason, hports⟩ :=
      @le_admitAll ext (admitAll ext (ofProfile ext profile) earlier) later _ _ hentry
    have hrun : admitAll ext (ofProfile ext profile) (earlier ++ later) =
        admitAll ext (admitAll ext (ofProfile ext profile) earlier) later := List.foldl_append
    rw [← hrun] at hentry'
    have hhost := (NetworkGuard.keyed _ _ _ hentry').1
    exact ⟨entry', (mem_permitted_iff localeCompare).mpr (hhost ▸ hentry'), hhost, hreason, hports⟩

end Disclosure
end NetworkGuard
end Portcall.Net
