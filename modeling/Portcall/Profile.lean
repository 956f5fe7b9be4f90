import Mathlib.Data.List.Dedup
import Portcall.Externals

/-! Profiles: the schema's refinements, the duplicate check, and what a loaded profile is. -/
namespace Portcall

/-- `[a-z0-9]([a-z0-9-]{0,61}[a-z0-9])?`, ignoring case. -/
def isHostLabel (label : List Char) : Bool :=
  1 ≤ label.length && label.length ≤ 63 &&
    label.all (fun c => Text.isAlphanumeric c || c = '-') &&
    label.head?.all Text.isAlphanumeric && label.getLast?.all Text.isAlphanumeric

/-- The schema's `HOSTNAME`: dot-separated labels, at most 253 characters in all. -/
def isHostname (host : String) : Bool :=
  1 ≤ host.toList.length && host.toList.length ≤ 253 &&
    (Text.splitChars '.' host.toList).all isHostLabel

inductive Runtime where
  | node
  | python
  | java
  | go
  deriving DecidableEq, Repr

inductive TlsVersion where
  | v10
  | v11
  | v12
  | v13
  deriving DecidableEq, Repr

def TlsVersion.text : TlsVersion → String
  | .v10 => "1.0"
  | .v11 => "1.1"
  | .v12 => "1.2"
  | .v13 => "1.3"

structure Endpoint where
  host : String
  port : ℕ
  purpose : String
  required : Bool := true
  deriving DecidableEq, Repr

structure TlsPolicy where
  minVersion : TlsVersion := .v12
  interceptionTolerated : Bool := true
  deriving DecidableEq, Repr

structure Profile where
  name : String
  endpoints : List Endpoint
  dohResolvers : List String := []
  runtimes : List Runtime
  tls : TlsPolicy := {}
  pacUrl : Option String := none
  deriving DecidableEq, Repr

def endpointSchema (endpoint : Endpoint) : Bool :=
  isHostname endpoint.host && 1 ≤ endpoint.port && endpoint.port ≤ 65535 &&
    endpoint.purpose != ""

/-- The refinements `profileSchema` puts on a value that already has the profile's shape. -/
def profileSchema (ext : Externals) (profile : Profile) : Bool :=
  profile.name != "" &&
    !profile.endpoints.isEmpty && profile.endpoints.all endpointSchema &&
    profile.dohResolvers.all isHostname && profile.dohResolvers.length ≤ 4 &&
    !profile.runtimes.isEmpty &&
    profile.pacUrl.all (fun url => (ext.parseUrl url).isSome)

/-- Case-insensitive `host:port` identity. -/
def hostPortKey (ext : Externals) (host : String) (port : ℕ) : String :=
  ext.toLowerCase host ++ ":" ++ toString port

/-- The keys met a second time, in order; `seen` holds the ones met before. -/
def repeatedKeys (seen : List String) : List String → List String
  | [] => []
  | key :: rest =>
    if key ∈ seen then key :: repeatedKeys (key :: seen) rest else repeatedKeys (key :: seen) rest

def findDuplicateEndpoints (ext : Externals) (endpoints : List Endpoint) : List String :=
  Text.sorted
    (repeatedKeys [] (endpoints.map fun endpoint =>
      hostPortKey ext endpoint.host endpoint.port)).dedup

lemma repeatedKeys_eq_nil_iff (seen keys : List String) :
    repeatedKeys seen keys = [] ↔ keys.Nodup ∧ ∀ key ∈ keys, key ∉ seen := by
  induction keys generalizing seen with
  | nil => simp [repeatedKeys]
  | cons key rest ih =>
    by_cases h : key ∈ seen
    · simp [repeatedKeys, h]
    · rw [List.forall_mem_cons]
      simp only [repeatedKeys, h, if_false, ih, List.nodup_cons, List.mem_cons, not_or]
      constructor
      · rintro ⟨hnd, hout⟩
        exact ⟨⟨fun hm => (hout key hm).1 rfl, hnd⟩, not_false, fun k hk => (hout k hk).2⟩
      · rintro ⟨⟨hk, hnd⟩, -, hout⟩
        exact ⟨hnd, fun k hm => ⟨fun e => hk (e ▸ hm), hout k hm⟩⟩

lemma sorted_eq_nil_iff (parts : List String) : Text.sorted parts = [] ↔ parts = [] := by
  rw [← List.length_eq_zero_iff, Text.sorted, List.length_insertionSort, List.length_eq_zero_iff]

/-- The duplicate check is silent exactly on pairwise distinct `host:port` keys. -/
theorem findDuplicateEndpoints_eq_nil_iff (ext : Externals) (endpoints : List Endpoint) :
    findDuplicateEndpoints ext endpoints = [] ↔
      (endpoints.map fun endpoint => hostPortKey ext endpoint.host endpoint.port).Nodup := by
  rw [findDuplicateEndpoints, sorted_eq_nil_iff, List.dedup_eq_nil, repeatedKeys_eq_nil_iff]
  simp only [List.not_mem_nil, not_false_eq_true, implies_true, and_true]

inductive ProfileSource where
  | builtin
  | file
  deriving DecidableEq, Repr

/-- A loaded profile carries the two checks it passed. -/
structure LoadedProfile (ext : Externals) where
  id : String
  source : ProfileSource
  profile : Profile
  schema : profileSchema ext profile = true
  distinct : findDuplicateEndpoints ext profile.endpoints = []

/-- Validation after the YAML text has been read into a profile-shaped value. -/
def parseProfile (ext : Externals) (id : String) (source : ProfileSource) (raw : Profile) :
    Option (LoadedProfile ext) :=
  if hschema : profileSchema ext raw = true then
    if hdistinct : findDuplicateEndpoints ext raw.endpoints = [] then
      some ⟨id, source, raw, hschema, hdistinct⟩
    else none
  else none

namespace LoadedProfile
variable {ext : Externals} (loaded : LoadedProfile ext)

/-- Distinct endpoints of a loaded profile have distinct keys. -/
theorem keys_nodup :
    (loaded.profile.endpoints.map fun endpoint =>
      hostPortKey ext endpoint.host endpoint.port).Nodup :=
  (findDuplicateEndpoints_eq_nil_iff ext _).mp loaded.distinct

theorem endpoints_ne_nil : loaded.profile.endpoints ≠ [] := by
  have hs := loaded.schema
  simp only [profileSchema, Bool.and_eq_true, Bool.not_eq_true', List.isEmpty_eq_false_iff] at hs
  exact hs.1.1.1.1.1.2

theorem isHostname_of_mem {endpoint : Endpoint} (h : endpoint ∈ loaded.profile.endpoints) :
    isHostname endpoint.host = true := by
  have hs := loaded.schema
  simp only [profileSchema, Bool.and_eq_true, List.all_eq_true] at hs
  have he := hs.1.1.1.1.2 endpoint h
  simp only [endpointSchema, Bool.and_eq_true] at he
  exact he.1.1.1

end LoadedProfile
end Portcall
