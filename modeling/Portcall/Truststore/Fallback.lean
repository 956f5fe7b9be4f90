import Portcall.Net.Completeness
import Portcall.Truststore.CrossCheck

/-! What a runtime falls back to when no variable names a store that can be read: whether the reader
still returns that store, and the cross-check still judges it. -/
namespace Portcall.Truststore
open Net

/-- The store a runtime consults by itself. -/
def defaultKind : Platform → Runtime → Option RuntimeStoreKind
  | _, .node => some .nodeBundled
  | _, .python => some .pythonCertifi
  | _, .java => some .javaCacerts
  | .darwin, .go | .win32, .go => some .platformVerifier
  | .linux, .go => some .goSystemBundle
  | .other _, .go => none

/-- No store that replaces the others was read. -/
def NoneReplaces (outcomes : List RuntimeStoreOutcome) : Prop :=
  ∀ outcome ∈ outcomes, outcome.combines = .replaces → outcome.failure ≠ none

/-- Where a store was read the cross-check judges it: as a set of its own, or by leaving the
verdict to the platform. -/
def IsJudged (runtime : Runtime) (outcomes : List RuntimeStoreOutcome)
    (store : RuntimeStoreOutcome) : Prop :=
  store.failure = none → asksPlatform outcomes = true ∨
    trustSetOf outcomes runtime store ∈ trustSets runtime outcomes

section Reader
variable (ext : Externals) (fs : FileSystem) (lookup : Lookup) (publicRootPems : List String)

/-- Whatever is requested along with a runtime, while nothing that was read replaces its default
store that store is returned, and judged. -/
def KeepsDefault (runtime : Runtime) : Prop :=
  ∀ runtimes outcomes, runtime ∈ runtimes →
    read ext fs lookup publicRootPems runtimes = some outcomes →
    NoneReplaces (outcomes.filter fun outcome => outcome.runtime = runtime) →
    ∀ kind ∈ defaultKind lookup.platform runtime,
      ∃ store ∈ outcomes.filter (fun outcome => outcome.runtime = runtime),
        store.kind = kind ∧
          IsJudged runtime (outcomes.filter fun outcome => outcome.runtime = runtime) store

/-- A file that opens within the bound and holds a certificate. -/
def ReadsPems (path : String) : Prop :=
  ∃ size text, fs.stat path = .ok size ∧ size ≤ lookup.maxBytes ∧ fs.readText path = .ok text ∧
    pemBlocks text ≠ []

/-- One of Go's two variables names a store that is read. -/
def GoOverrideReads : Prop :=
  (∃ path, envValue lookup.env "SSL_CERT_FILE" = some path ∧ ReadsPems fs lookup path) ∨
    ∃ dir entries, envValue lookup.env "SSL_CERT_DIR" = some dir ∧ fs.readdir dir = .ok entries ∧
      ∃ file ∈ capped (certificateFiles ext lookup dir entries), ReadsPems fs lookup file

end Reader

section Read
variable {ext : Externals} {fs : FileSystem} {lookup : Lookup} {publicRootPems : List String}
  {runtime : Runtime} {stores : List RuntimeStoreOutcome}

lemma readPemFile_pems_ne_nil_iff {path : String} :
    (readPemFile fs path lookup.maxBytes).pems ≠ [] ↔ ReadsPems fs lookup path := by
  unfold readPemFile ReadsPems
  cases hstat : fs.stat path with
  | error errno => simp
  | ok size =>
    dsimp only
    split_ifs with hsize
    · simp [Nat.not_le.mpr hsize]
    · cases htext : fs.readText path with
      | error errno => simp
      | ok text => simp [Nat.le_of_not_lt hsize]

lemma readPemFile_failure_iff {path : String} :
    (readPemFile fs path lookup.maxBytes).failure = none ↔ ReadsPems fs lookup path := by
  rw [← readPemFile_pems_ne_nil_iff]
  unfold readPemFile
  cases hstat : fs.stat path with
  | error errno => simp
  | ok size =>
    dsimp only
    split_ifs with hsize
    · simp
    · cases htext : fs.readText path with
      | error errno => simp
      | ok text => simp

/-- A file that a variable names is read exactly when it opens and holds a certificate. -/
lemma envFileStore_failure_iff {kind : RuntimeStoreKind} {name : String}
    {combines : StoreCombination} :
    (envFileStore fs lookup runtime kind name combines).failure = none ↔
      ∃ path, envValue lookup.env name = some path ∧ ReadsPems fs lookup path := by
  unfold envFileStore
  cases envValue lookup.env name with
  | none => simp
  | some path => simp [pemOutcome, readPemFile_failure_iff]

lemma certDirStore_failure_iff : (certDirStore ext fs lookup runtime).failure = none ↔
    ∃ dir entries, envValue lookup.env "SSL_CERT_DIR" = some dir ∧ fs.readdir dir = .ok entries ∧
      ∃ file ∈ capped (certificateFiles ext lookup dir entries), ReadsPems fs lookup file := by
  unfold certDirStore
  cases envValue lookup.env "SSL_CERT_DIR" with
  | none => simp
  | some dir =>
    cases hentries : fs.readdir dir with
    | error errno => simp [statFailure, hentries]
    | ok entries => simp [hentries, readPemFile_pems_ne_nil_iff]

/-- What an outcome is about does not depend on what was read. -/
lemma envFileStore_spec (runtime : Runtime) (kind : RuntimeStoreKind) (name : String)
    (combines : StoreCombination) :
    (envFileStore fs lookup runtime kind name combines).runtime = runtime ∧
      (envFileStore fs lookup runtime kind name combines).kind = kind ∧
      (envFileStore fs lookup runtime kind name combines).combines = combines := by
  unfold envFileStore
  cases envValue lookup.env name <;> exact ⟨rfl, rfl, rfl⟩

lemma certDirStore_spec (runtime : Runtime) :
    (certDirStore ext fs lookup runtime).runtime = runtime ∧
      (certDirStore ext fs lookup runtime).kind = .goSslCertDir ∧
      (certDirStore ext fs lookup runtime).combines = .replaces := by
  unfold certDirStore
  cases envValue lookup.env "SSL_CERT_DIR" with
  | none => exact ⟨rfl, rfl, rfl⟩
  | some dir => cases hentries : fs.readdir dir <;> simp only [hentries] <;> exact ⟨rfl, rfl, rfl⟩

/-- The store of the system's bundle, whether or not there is one. -/
lemma goSystemBundleLoop_spec (fs : FileSystem) (maxBytes : ℕ) (paths tried : List String) :
    (goSystemBundleLoop fs maxBytes tried paths).runtime = .go ∧
      (goSystemBundleLoop fs maxBytes tried paths).kind = .goSystemBundle ∧
      (goSystemBundleLoop fs maxBytes tried paths).combines = .standalone := by
  induction paths generalizing tried with
  | nil => exact ⟨rfl, rfl, rfl⟩
  | cons path paths ih =>
    rw [goSystemBundleLoop]
    split_ifs
    · exact ⟨rfl, rfl, rfl⟩
    · exact ih _

/-- What a search for stores returns: at least one outcome, each of the kind searched for. -/
structure Searched (runtime : Runtime) (kind : RuntimeStoreKind)
    (stores : List RuntimeStoreOutcome) : Prop where
  ne_nil : stores ≠ []
  runtime : ∀ store ∈ stores, store.runtime = runtime
  kind : ∀ store ∈ stores, store.kind = kind ∧ store.combines = .standalone

lemma searched_certifiStores (h : certifiStores ext fs lookup = some stores) :
    Searched .python .pythonCertifi stores := by
  obtain ⟨found, -, hstores⟩ := Option.bind_eq_some_iff.mp h
  split_ifs at hstores with hempty
  · obtain rfl := Option.some.inj hstores
    exact ⟨List.cons_ne_nil _ _, List.forall_mem_singleton.mpr rfl,
      List.forall_mem_singleton.mpr ⟨rfl, rfl⟩⟩
  · obtain rfl := Option.some.inj hstores
    refine ⟨?_, List.forall_mem_map.mpr fun _ _ => rfl, List.forall_mem_map.mpr fun _ _ => ⟨rfl, rfl⟩⟩
    simpa [capped, maxDiscoveryMatches] using hempty

lemma searched_javaStores (h : javaStores ext fs lookup = some stores) :
    Searched .java .javaCacerts stores := by
  obtain ⟨found, -, hstores⟩ := Option.bind_eq_some_iff.mp h
  split_ifs at hstores with hempty
  · obtain rfl := Option.some.inj hstores
    exact ⟨List.cons_ne_nil _ _, List.forall_mem_singleton.mpr rfl,
      List.forall_mem_singleton.mpr ⟨rfl, rfl⟩⟩
  · obtain rfl := Option.some.inj hstores
    refine ⟨?_, List.forall_mem_map.mpr fun _ _ => rfl, List.forall_mem_map.mpr fun _ _ => ⟨rfl, rfl⟩⟩
    simpa [capped, maxDiscoveryMatches] using hempty

/-- An outcome is about the runtime it was read for. -/
lemma runtime_of_mem_runtimeStores
    (h : runtimeStores ext fs lookup publicRootPems runtime = some stores) :
    ∀ store ∈ stores, store.runtime = runtime := by
  cases runtime with
  | node =>
    obtain rfl := Option.some.inj h
    exact List.forall_mem_cons.mpr
      ⟨rfl, List.forall_mem_singleton.mpr (envFileStore_spec _ _ _ _).1⟩
  | go =>
    obtain rfl := Option.some.inj h
    have hbundle := (goSystemBundleLoop_spec fs lookup.maxBytes linuxCaBundlePaths []).1
    unfold goStores goSystemBundleStore
    dsimp only
    split_ifs <;> simp [envFileStore_spec, certDirStore_spec, hbundle, outcome]
  | python =>
    obtain ⟨certifi, hcertifi, rfl⟩ := Option.map_eq_some_iff.mp h
    refine List.forall_mem_append.mpr ⟨?_, (searched_certifiStores hcertifi).runtime⟩
    exact List.forall_mem_cons.mpr
      ⟨(envFileStore_spec _ _ _ _).1, List.forall_mem_singleton.mpr (envFileStore_spec _ _ _ _).1⟩
  | java => exact (searched_javaStores h).runtime

/-- Go's stores hold the default one unless a variable is set. -/
lemma exists_default_go (hfile : envValue lookup.env "SSL_CERT_FILE" = none)
    (hdir : envValue lookup.env "SSL_CERT_DIR" = none) {kind : RuntimeStoreKind}
    (hkind : defaultKind lookup.platform .go = some kind) :
    ∃ store ∈ goStores ext fs lookup, store.kind = kind ∧ store.combines = .standalone := by
  have hbundle := (goSystemBundleLoop_spec fs lookup.maxBytes linuxCaBundlePaths []).2
  unfold goStores
  simp only [hfile, hdir, Option.isSome_none, Bool.or_self, Bool.not_false, Bool.true_and]
  cases hplatform : lookup.platform with
  | darwin | win32 =>
    rw [hplatform] at hkind
    obtain rfl := Option.some.inj hkind
    exact ⟨_, List.mem_cons_of_mem _ (List.mem_cons_of_mem _ List.mem_cons_self), rfl, rfl⟩
  | linux =>
    rw [hplatform] at hkind
    obtain rfl := Option.some.inj hkind
    exact ⟨_, List.mem_cons_of_mem _ (List.mem_cons_of_mem _ List.mem_cons_self), hbundle⟩
  | other name =>
    rw [hplatform] at hkind
    cases hkind

lemma Searched.exists_mem {kind : RuntimeStoreKind} (h : Searched runtime kind stores) :
    ∃ store ∈ stores, store.kind = kind ∧ store.combines = .standalone := by
  obtain ⟨store, hm⟩ := List.exists_mem_of_ne_nil _ h.ne_nil
  exact ⟨store, hm, h.kind store hm⟩

lemma exists_default (h : runtimeStores ext fs lookup publicRootPems runtime = some stores)
    (hruntime : runtime ≠ .go) {kind : RuntimeStoreKind}
    (hkind : defaultKind lookup.platform runtime = some kind) :
    ∃ store ∈ stores, store.kind = kind ∧ store.combines = .standalone := by
  cases runtime with
  | node =>
    obtain rfl := Option.some.inj h
    obtain rfl := Option.some.inj hkind
    exact ⟨_, List.mem_cons_self, rfl, rfl⟩
  | go => exact absurd rfl hruntime
  | python =>
    obtain ⟨certifi, hcertifi, rfl⟩ := Option.map_eq_some_iff.mp h
    obtain rfl := Option.some.inj hkind
    obtain ⟨store, hm, hstore⟩ := (searched_certifiStores hcertifi).exists_mem
    exact ⟨store, List.mem_append_right _ hm, hstore⟩
  | java =>
    obtain rfl := Option.some.inj hkind
    exact (searched_javaStores h).exists_mem

lemma judged_of_noneReplaces {own : List RuntimeStoreOutcome} {store : RuntimeStoreOutcome}
    (h : NoneReplaces own) (hm : store ∈ own) (hcombines : store.combines = .standalone) :
    IsJudged runtime own store := by
  intro hread
  by_cases hverifier : store.kind = .platformVerifier
  · exact Or.inl (List.any_eq_true.mpr ⟨store, hm, decide_eq_true hverifier⟩)
  · have hnone : replacing own = [] := by
      rw [replacing, List.filter_eq_nil_iff]
      intro outcome ho hreplaces
      obtain ⟨ho, hfailure, -⟩ := mem_readable.mp ho
      exact h outcome ho (of_decide_eq_true hreplaces) hfailure
    refine Or.inr (List.mem_map_of_mem ?_)
    rw [bases, hnone, List.length_nil, if_neg (Nat.lt_irrefl 0), List.mem_filter]
    exact ⟨mem_readable.mpr ⟨hm, hread, hverifier⟩, decide_eq_true hcombines⟩

/-- With a variable set and nothing it names read, what the reader returns for Go holds neither a
store that replaces the others nor a default one. -/
lemma goStores_overridden (hset : envValue lookup.env "SSL_CERT_FILE" ≠ none ∨
      envValue lookup.env "SSL_CERT_DIR" ≠ none)
    (hreads : ¬GoOverrideReads ext fs lookup) :
    NoneReplaces (goStores ext fs lookup) ∧ ∀ store ∈ goStores ext fs lookup,
      some store.kind ≠ defaultKind lookup.platform .go := by
  have hstores : goStores ext fs lookup =
      [envFileStore fs lookup .go .goSslCertFile "SSL_CERT_FILE" .replaces,
        certDirStore ext fs lookup .go] := by
    have hoverridden : ((envValue lookup.env "SSL_CERT_FILE").isSome ||
        (envValue lookup.env "SSL_CERT_DIR").isSome) = true := by
      simpa [Option.isSome_iff_ne_none] using hset
    simp [goStores, hoverridden]
  have hfile : (envFileStore fs lookup .go .goSslCertFile "SSL_CERT_FILE" .replaces).failure ≠ none :=
    fun hnone => hreads (.inl (envFileStore_failure_iff.mp hnone))
  have hdir : (certDirStore ext fs lookup .go).failure ≠ none :=
    fun hnone => hreads (.inr (certDirStore_failure_iff.mp hnone))
  rw [hstores]
  constructor
  · exact List.forall_mem_cons.mpr
      ⟨fun _ => hfile, List.forall_mem_singleton.mpr fun _ => hdir⟩
  · refine List.forall_mem_cons.mpr ⟨?_, List.forall_mem_singleton.mpr ?_⟩
    · rw [(envFileStore_spec _ _ _ _).2.1]
      cases lookup.platform <;> simp [defaultKind]
    · rw [(certDirStore_spec _).2.1]
      cases lookup.platform <;> simp [defaultKind]

/-- A store that is read where a variable names it replaces the others. -/
lemma not_noneReplaces (hreads : GoOverrideReads ext fs lookup) :
    ¬NoneReplaces (goStores ext fs lookup) := by
  have hmem : envFileStore fs lookup .go .goSslCertFile "SSL_CERT_FILE" .replaces ∈
      goStores ext fs lookup ∧ certDirStore ext fs lookup .go ∈ goStores ext fs lookup := by
    unfold goStores
    dsimp only
    split_ifs <;> simp
  intro h
  rcases hreads with hfile | hdir
  · exact h _ hmem.1 (envFileStore_spec _ _ _ _).2.2 (envFileStore_failure_iff.mpr hfile)
  · exact h _ hmem.2 (certDirStore_spec _).2.2 (certDirStore_failure_iff.mpr hdir)

end Read

section Fallback
variable {ext : Externals} {fs : FileSystem} {lookup : Lookup} {publicRootPems : List String}
  {runtime : Runtime}

/-- The outcomes of a runtime that was read, whichever others were. -/
lemma exists_read {runtimes : List Runtime} {outcomes : List RuntimeStoreOutcome}
    (hread : read ext fs lookup publicRootPems runtimes = some outcomes)
    (hm : runtime ∈ runtimes) :
    ∃ stores, runtimeStores ext fs lookup publicRootPems runtime = some stores := by
  obtain ⟨all, hall, -⟩ := Option.map_eq_some_iff.mp hread
  exact Option.isSome_iff_exists.mp
    (OptionMap.mapM_isSome_iff.mp (Option.isSome_of_eq_some hall) runtime hm)

/-- A default store among the outcomes of a runtime is kept, whatever else was requested. -/
lemma keepsDefault_of_exists (h : ∀ stores, NoneReplaces stores →
      runtimeStores ext fs lookup publicRootPems runtime = some stores →
      ∀ kind ∈ defaultKind lookup.platform runtime,
        ∃ store ∈ stores, store.kind = kind ∧ store.combines = .standalone) :
    KeepsDefault ext fs lookup publicRootPems runtime := by
  intro runtimes outcomes hm hread hnone kind hkind
  obtain ⟨stores, hstores⟩ := exists_read hread hm
  have hown : ∀ store ∈ stores, store ∈ outcomes.filter fun outcome => outcome.runtime = runtime :=
    fun store hs => List.mem_filter.mpr
      ⟨(mem_read hread).mpr ⟨runtime, hm, stores, hstores, hs⟩,
        decide_eq_true (runtime_of_mem_runtimeStores hstores store hs)⟩
  obtain ⟨store, hs, hstore, hcombines⟩ :=
    h stores (fun outcome ho => hnone outcome (hown outcome ho)) hstores kind hkind
  exact ⟨store, hown store hs, hstore, judged_of_noneReplaces hnone (hown store hs) hcombines⟩

/-- Go's default store survives a variable only where one that is set names a store that is read. -/
lemma KeepsDefault.goOverrideReads (h : KeepsDefault ext fs lookup publicRootPems .go)
    (hdefault : defaultKind lookup.platform .go ≠ none)
    (hset : envValue lookup.env "SSL_CERT_FILE" ≠ none ∨
      envValue lookup.env "SSL_CERT_DIR" ≠ none) : GoOverrideReads ext fs lookup := by
  by_contra hreads
  obtain ⟨hnone, hother⟩ := goStores_overridden hset hreads
  obtain ⟨kind, hkind⟩ := Option.ne_none_iff_exists'.mp hdefault
  have hread : read ext fs lookup publicRootPems [.go] = some (goStores ext fs lookup) := by
    simp [Net.read, runtimeStores]
  obtain ⟨store, hm, rfl, -⟩ := h [.go] _ List.mem_cons_self hread
    (fun outcome ho => hnone outcome (List.mem_of_mem_filter ho)) kind hkind
  exact hother store (List.mem_of_mem_filter hm) hkind.symm

/-- The default store of a runtime survives unless the runtime is Go, on a platform on which it has
one, a variable is set, and none that is set names a store that can be read. -/
theorem keepsDefault_iff : KeepsDefault ext fs lookup publicRootPems runtime ↔
    (runtime = .go → defaultKind lookup.platform .go ≠ none →
      (envValue lookup.env "SSL_CERT_FILE" ≠ none ∨ envValue lookup.env "SSL_CERT_DIR" ≠ none) →
      GoOverrideReads ext fs lookup) := by
  constructor
  · rintro h rfl hdefault hset
    exact h.goOverrideReads hdefault hset
  · intro h
    refine keepsDefault_of_exists fun stores hnone hstores kind hkind => ?_
    by_cases hruntime : runtime = .go
    · subst hruntime
      obtain rfl := Option.some.inj hstores
      by_cases hset : envValue lookup.env "SSL_CERT_FILE" ≠ none ∨
          envValue lookup.env "SSL_CERT_DIR" ≠ none
      · exact absurd hnone (not_noneReplaces (h rfl (by rw [hkind]; nofun) hset))
      · rw [not_or, not_not, not_not] at hset
        exact exists_default_go hset.1 hset.2 hkind
    · exact exists_default hstores hruntime hkind

/-- A machine on which no file opens and `SSL_CERT_FILE` names one. -/
def staleLookup : Lookup :=
  ⟨.linux, fun name => if name = "SSL_CERT_FILE" then some "/old/roots.pem" else none,
    maxRuntimeStoreBytes⟩

def missingFiles : FileSystem where
  stat _ := .error (some "ENOENT")
  readdir _ := .error (some "ENOENT")
  readText _ := .error (some "ENOENT")
  readBytes _ := .error (some "ENOENT")

/-- A variable that names a missing file takes the system's bundle from Go's stores. -/
theorem stale_variable_drops_default : ¬∀ ext fs lookup publicRootPems runtime,
    KeepsDefault ext fs lookup publicRootPems runtime := by
  intro h
  have hreads := (h fixtureExternals missingFiles staleLookup [] .go).goOverrideReads (by decide)
    (Or.inl (by decide))
  rcases hreads with ⟨path, -, size, text, hstat, -⟩ | ⟨dir, entries, hdir, -⟩
  · cases hstat
  · cases hdir

end Fallback

end Portcall.Truststore
