import Mathlib.Data.List.Duplicate
import Mathlib.Data.List.Perm.Subperm
import Portcall.Profile
import Portcall.Truststore.Fallback
import Portcall.Truststore.Totality
import Portcall.Truststore.Verdicts

/-! How often one run reports what the truststore probe found about one store. -/
namespace Portcall.Truststore
open Net

/-- What a finding about a runtime is about. -/
inductive Topic where
  | store
  | verdict
  | platformVerifier
  | storeNotFound
  deriving DecidableEq, Repr

def topicIds (runtime : Runtime) : Topic → List String
  | .store =>
    [(runtimeIds runtime).extraCaUnreadable, (runtimeIds runtime).extraCaConfigured] ++
      if runtime = .java then ["truststore.java.store-unreadable"] else []
  | .verdict => [(runtimeIds runtime).missingRoot, (runtimeIds runtime).rootsPresent]
  | .platformVerifier => [(runtimeIds runtime).platformVerifier]
  | .storeNotFound => [(runtimeIds runtime).storeNotFound]

/-- The finding is one of the runtime's, on this topic. -/
def isOn (runtime : Runtime) (topic : Topic) (finding : Finding) : Bool :=
  decide (finding.id ∈ topicIds runtime topic)

/-- Each finding is about a member of the list, and no two are about the same one. -/
def AtMostOneEach {α : Type} (About : Finding → α → Prop) (findings : List Finding)
    (located : List α) : Prop :=
  ∃ reported : List α, reported.Subperm located ∧ List.Forall₂ About findings reported

/-- The finding is a verdict on the set. -/
def IsVerdictOf (finding : Finding) (set : TrustSet) : Prop :=
  (∃ missing correlation, finding = missingRootFinding set missing correlation) ∨
    ∃ coverage, finding = rootsPresentFinding set coverage

/-- What tells one store of a runtime from another. -/
def place (store : RuntimeStoreOutcome) : RuntimeStoreKind × Option String :=
  (store.kind, store.locator)

/-- The findings about a runtime whose located stores are `stores`, all different: at most one about
each store, at most one verdict on each set the stores make, and at most once that the runtime asks
the platform or that it has no store. -/
structure ReportedOnce (runtime : Runtime) (stores : List RuntimeStoreOutcome)
    (findings : List Finding) : Prop where
  distinct : (stores.map place).Nodup
  located : AtMostOneEach (fun finding store => finding ∈ outcomeFindings runtime store)
    (findings.filter (isOn runtime .store)) stores
  judged : AtMostOneEach IsVerdictOf (findings.filter (isOn runtime .verdict))
    (trustSets runtime stores)
  platformVerifier : findings.countP (isOn runtime .platformVerifier) ≤ 1
  storeNotFound : findings.countP (isOn runtime .storeNotFound) ≤ 1

/-- Whatever the machine, a run for this profile reports no store twice: none of those the readers
located for a runtime, and none of the platform's. -/
def ReportsOnce (ext : Externals) (profile : Profile) : Prop :=
  ∀ fs lookup osStores outcomes publicRootPems observed osCommands findings,
    read ext fs lookup publicRootPems profile.runtimes = some outcomes →
    runTruststore ext profile osStores outcomes publicRootPems observed osCommands =
      some findings →
    (osStores ≠ [] → AtMostOneEach
      (fun finding store => ∃ keys, storeFinding ext osCommands keys store = some finding)
      (findings.filter fun finding => finding.id ∈ osFindingIds) osStores) ∧
    ∀ runtime ∈ profile.runtimes, ∀ stores,
      runtimeStores ext fs lookup publicRootPems runtime = some stores →
      ReportedOnce runtime stores findings

section Topics

def runtimes : List Runtime := [.node, .python, .java, .go]
def topics : List Topic := [.store, .verdict, .platformVerifier, .storeNotFound]

/-- Every id the findings about a runtime carry, with what it is about. -/
def topicTable : List (String × Runtime × Topic) :=
  runtimes.flatMap fun runtime => topics.flatMap fun topic =>
    (topicIds runtime topic).map fun id => (id, runtime, topic)

lemma lookup_topicIds (runtime : Runtime) (topic : Topic) :
    ∀ id ∈ topicIds runtime topic, topicTable.lookup id = some (runtime, topic) := by
  cases runtime <;> cases topic <;> decide

lemma lookup_surroundingIds : ∀ id ∈ surroundingIds, topicTable.lookup id = none := by decide

variable {runtime runtime' : Runtime} {topic topic' : Topic} {finding : Finding}

lemma isOn_eq_false (h : finding.id ∈ topicIds runtime topic)
    (hne : runtime' ≠ runtime ∨ topic' ≠ topic) : isOn runtime' topic' finding = false := by
  refine decide_eq_false fun hm => ?_
  have hsame := (lookup_topicIds runtime' topic' _ hm).symm.trans (lookup_topicIds runtime topic _ h)
  rw [Option.some.injEq, Prod.mk.injEq] at hsame
  exact hne.elim (· hsame.1) (· hsame.2)

lemma isOn_of_mem_surroundingIds (h : finding.id ∈ surroundingIds) :
    isOn runtime topic finding = false := by
  refine decide_eq_false fun hm => ?_
  have hsome := lookup_topicIds runtime topic _ hm
  rw [lookup_surroundingIds _ h] at hsome
  cases hsome

/-- Findings on one topic pass the filter for it whole, and no other. -/
lemma filter_isOn {findings : List Finding}
    (h : ∀ finding ∈ findings, finding.id ∈ topicIds runtime topic) :
    findings.filter (isOn runtime topic') = if topic' = topic then findings else [] := by
  split_ifs with htopic
  · exact List.filter_eq_self.mpr fun finding hm => decide_eq_true (htopic ▸ h finding hm)
  · exact List.filter_eq_nil_iff.mpr fun finding hm => by
      simp [isOn_eq_false (h finding hm) (.inr htopic)]

end Topics

section AtMostOneEach
variable {α : Type} {About : Finding → α → Prop} {g : α → List Finding} {l : List α}

/-- Where each member has at most one finding, and it is about that member. -/
lemma atMostOneEach_flatMap (hlength : ∀ a ∈ l, (g a).length ≤ 1)
    (habout : ∀ a ∈ l, ∀ finding ∈ g a, About finding a) : AtMostOneEach About (l.flatMap g) l := by
  induction l with
  | nil => exact ⟨[], .refl _, .nil⟩
  | cons a l ih =>
    obtain ⟨ha, hl⟩ := List.forall_mem_cons.mp hlength
    obtain ⟨hga, hgl⟩ := List.forall_mem_cons.mp habout
    obtain ⟨reported, hsub, hall⟩ := ih hl hgl
    rw [List.flatMap_cons]
    cases hg : g a with
    | nil => exact ⟨reported, hsub.trans (List.sublist_cons_self a l).subperm, hall⟩
    | cons finding rest =>
      rw [hg, List.length_cons] at ha
      obtain rfl := List.eq_nil_of_length_eq_zero (by omega : rest.length = 0)
      have hfinding : About finding a := hga finding (by simp [hg])
      exact ⟨a :: reported, (List.subperm_cons a).mpr hsub, .cons hfinding hall⟩

lemma AtMostOneEach.length_le {findings : List Finding} (h : AtMostOneEach About findings l) :
    findings.length ≤ l.length := by
  obtain ⟨reported, hsub, hall⟩ := h
  exact hall.length_eq ▸ hsub.length_le

lemma AtMostOneEach.exists_mem {findings : List Finding} {finding : Finding}
    (h : AtMostOneEach About findings l) (hm : finding ∈ findings) : ∃ a ∈ l, About finding a := by
  obtain ⟨reported, hsub, hall⟩ := h
  obtain ⟨i, hi, rfl⟩ := List.mem_iff_getElem.mp hm
  have hi' : i < reported.length := hall.length_eq ▸ hi
  exact ⟨reported[i], hsub.subset (List.getElem_mem hi'), hall.get hi hi'⟩

end AtMostOneEach

section Runtime
variable {ext : Externals} {runtime : Runtime} {outcomes : List RuntimeStoreOutcome}
  {added : List Anchor} {observed : List ObservedAnchor} {coverage : OsCoverage}

lemma length_extraCaFindings_le_one (outcome : RuntimeStoreOutcome) :
    (extraCaFindings runtime outcome).length ≤ 1 := by
  unfold extraCaFindings
  split
  · exact Nat.zero_le 1
  · exact le_rfl
  · exact le_rfl

/-- A keystore is named by no variable, so one outcome says one thing at most. -/
lemma length_outcomeFindings_le_one (outcome : RuntimeStoreOutcome) :
    (outcomeFindings runtime outcome).length ≤ 1 := by
  have hkinds : RuntimeStoreKind.javaCacerts ∉ envStoreKinds := by decide
  unfold outcomeFindings
  rw [List.length_append]
  split_ifs with henv hkeystore
  · rw [Bool.and_eq_true, decide_eq_true_eq] at hkeystore
    exact absurd (hkeystore.1 ▸ henv) hkinds
  · exact length_extraCaFindings_le_one outcome
  · exact le_rfl
  · exact Nat.zero_le 1

/-- Stores as the reader returns them: only Java's are keystores. -/
def KeystoresOfJava (runtime : Runtime) (outcomes : List RuntimeStoreOutcome) : Prop :=
  ∀ outcome ∈ outcomes, outcome.kind = .javaCacerts → runtime = .java

lemma mem_topicIds_of_mem_outcomeFindings {outcome : RuntimeStoreOutcome} {finding : Finding}
    (hjava : outcome.kind = .javaCacerts → runtime = .java)
    (h : finding ∈ outcomeFindings runtime outcome) : finding.id ∈ topicIds runtime .store := by
  rcases List.mem_append.mp h with h | h
  · split_ifs at h with hkind
    · unfold extraCaFindings at h
      split at h
      · simp at h
      · rw [List.mem_singleton.mp h]
        simp [topicIds]
      · rw [List.mem_singleton.mp h]
        simp [topicIds]
    · simp at h
  · split_ifs at h with hunread
    · rw [Bool.and_eq_true, decide_eq_true_eq] at hunread
      rw [List.mem_singleton.mp h, hjava hunread.1]
      exact List.mem_append_right _ List.mem_cons_self
    · simp at h

/-- The findings of one runtime, topic by topic. -/
structure Parts (runtime : Runtime) (outcomes : List RuntimeStoreOutcome)
    (findings asked unlocated verdicts : List Finding) : Prop where
  findings : findings = outcomes.flatMap (outcomeFindings runtime) ++ asked ++ unlocated ++ verdicts
  asked : asked.Sublist [platformVerifierFinding runtime]
  unlocated : unlocated.Sublist
    [storeNotFoundFinding runtime (outcomes.flatMap RuntimeStoreOutcome.searched)]
  judged : AtMostOneEach IsVerdictOf verdicts (trustSets runtime outcomes)

lemma isVerdictOf_of_setVerdict {set : TrustSet} {finding : Finding}
    (h : setVerdict ext added observed coverage set = some (some finding)) :
    IsVerdictOf finding set := by
  obtain ⟨index, -, h⟩ := Option.map_eq_some_iff.mp h
  dsimp only at h
  split_ifs at h
  · exact .inl ⟨_, _, (Option.some.inj h).symm⟩
  · exact .inr ⟨_, (Option.some.inj h).symm⟩

lemma exists_parts {findings : List Finding}
    (h : runtimeFindings ext runtime outcomes added observed coverage = some findings) :
    ∃ asked unlocated verdicts, Parts runtime outcomes findings asked unlocated verdicts := by
  have hnone : AtMostOneEach IsVerdictOf [] (trustSets runtime outcomes) :=
    ⟨[], List.nil_subperm, .nil⟩
  unfold runtimeFindings at h
  dsimp only at h
  split_ifs at h with hasks hsets hlocated hlevel
  · exact ⟨_, [], [], by simpa using h.symm, .refl _, List.nil_sublist _, hnone⟩
  · exact ⟨[], [], [], by simpa using h.symm, List.nil_sublist _, List.nil_sublist _, hnone⟩
  · exact ⟨[], _, [], by simpa using h.symm, List.nil_sublist _, .refl _, hnone⟩
  · exact ⟨[], [], [], by simpa using h.symm, List.nil_sublist _, List.nil_sublist _, hnone⟩
  · obtain ⟨verdicts, hverdicts, rfl⟩ := Option.map_eq_some_iff.mp h
    refine ⟨[], [], verdicts.reduceOption, by simp, List.nil_sublist _, List.nil_sublist _, ?_⟩
    rw [OptionMap.reduceOption_of_mapM hverdicts, List.filterMap_eq_flatMap_toList]
    refine atMostOneEach_flatMap (fun set _ => ?_) fun set _ finding hm => ?_
    · exact Option.length_toList_le
    · exact isVerdictOf_of_setVerdict (Option.join_eq_some_iff.mp (Option.mem_toList.mp hm))

lemma mem_topicIds_of_isVerdictOf {finding : Finding} {set : TrustSet}
    (h : IsVerdictOf finding set) : finding.id ∈ topicIds set.runtime .verdict := by
  rcases h with ⟨missing, correlation, rfl⟩ | ⟨coverage, rfl⟩
  · simp [topicIds, missingRootFinding]
  · simp [topicIds, rootsPresentFinding]

/-- Every part is on its own topic. -/
lemma Parts.mem_topicIds {findings asked unlocated verdicts : List Finding}
    (h : Parts runtime outcomes findings asked unlocated verdicts)
    (hjava : KeystoresOfJava runtime outcomes) :
    (∀ finding ∈ outcomes.flatMap (outcomeFindings runtime),
        finding.id ∈ topicIds runtime .store) ∧
      (∀ finding ∈ asked, finding.id ∈ topicIds runtime .platformVerifier) ∧
      (∀ finding ∈ unlocated, finding.id ∈ topicIds runtime .storeNotFound) ∧
      ∀ finding ∈ verdicts, finding.id ∈ topicIds runtime .verdict := by
  refine ⟨fun finding hm => ?_, fun finding hm => ?_, fun finding hm => ?_, fun finding hm => ?_⟩
  · obtain ⟨outcome, ho, hm⟩ := List.mem_flatMap.mp hm
    exact mem_topicIds_of_mem_outcomeFindings (hjava outcome ho) hm
  · rw [List.mem_singleton.mp (h.asked.subset hm)]
    exact List.mem_cons_self
  · rw [List.mem_singleton.mp (h.unlocated.subset hm)]
    exact List.mem_cons_self
  · obtain ⟨set, hset, hverdict⟩ := h.judged.exists_mem hm
    exact runtime_of_mem_trustSets hset ▸ mem_topicIds_of_isVerdictOf hverdict

/-- What stores that are the runtime's own come to is reported once. -/
lemma reportedOnce_of_runtimeFindings {findings : List Finding}
    (hjava : KeystoresOfJava runtime outcomes) (hdistinct : (outcomes.map place).Nodup)
    (h : runtimeFindings ext runtime outcomes added observed coverage = some findings) :
    ReportedOnce runtime outcomes findings := by
  obtain ⟨asked, unlocated, verdicts, hparts⟩ := exists_parts h
  obtain ⟨hstores, hasked, hunlocated, hverdicts⟩ := hparts.mem_topicIds hjava
  have hfilter : ∀ topic, findings.filter (isOn runtime topic) =
      (if topic = .store then outcomes.flatMap (outcomeFindings runtime) else []) ++
        (if topic = .platformVerifier then asked else []) ++
        (if topic = .storeNotFound then unlocated else []) ++
        if topic = .verdict then verdicts else [] := by
    intro topic
    rw [hparts.findings, List.filter_append, List.filter_append, List.filter_append,
      filter_isOn hstores, filter_isOn hasked, filter_isOn hunlocated, filter_isOn hverdicts]
  refine ⟨hdistinct, ?_, ?_, ?_, ?_⟩
  · rw [hfilter]
    simpa using atMostOneEach_flatMap (fun outcome _ => length_outcomeFindings_le_one outcome)
      fun _ _ _ hm => hm
  · rw [hfilter]
    simpa using hparts.judged
  · rw [List.countP_eq_length_filter, hfilter]
    simpa using hparts.asked.length_le
  · rw [List.countP_eq_length_filter, hfilter]
    simpa using hparts.unlocated.length_le

/-- One runtime's findings are all on some topic of that runtime. -/
lemma exists_topic {findings : List Finding} {finding : Finding}
    (hjava : KeystoresOfJava runtime outcomes)
    (h : runtimeFindings ext runtime outcomes added observed coverage = some findings)
    (hm : finding ∈ findings) : ∃ topic, finding.id ∈ topicIds runtime topic := by
  obtain ⟨asked, unlocated, verdicts, hparts⟩ := exists_parts h
  obtain ⟨hstores, hasked, hunlocated, hverdicts⟩ := hparts.mem_topicIds hjava
  rw [hparts.findings, List.mem_append, List.mem_append, List.mem_append] at hm
  rcases hm with ((hm | hm) | hm) | hm
  · exact ⟨_, hstores finding hm⟩
  · exact ⟨_, hasked finding hm⟩
  · exact ⟨_, hunlocated finding hm⟩
  · exact ⟨_, hverdicts finding hm⟩

end Runtime

section Run
variable {ext : Externals} {fs : FileSystem} {lookup : Lookup} {publicRootPems : List String}
  {runtimes : List Runtime} {runtime : Runtime} {outcomes stores : List RuntimeStoreOutcome}

lemma keystoresOfJava_runtimeStores
    (h : runtimeStores ext fs lookup publicRootPems runtime = some stores) :
    KeystoresOfJava runtime stores := by
  intro store hm hkind
  cases runtime with
  | java => rfl
  | node =>
    obtain rfl := Option.some.inj h
    rcases List.mem_cons.mp hm with rfl | hm
    · cases hkind
    · rw [List.mem_singleton.mp hm, (envFileStore_spec _ _ _ _).2.1] at hkind
      cases hkind
  | go =>
    obtain rfl := Option.some.inj h
    have hbundle := (goSystemBundleLoop_spec fs lookup.maxBytes linuxCaBundlePaths []).2.1
    unfold goStores goSystemBundleStore at hm
    dsimp only at hm
    split_ifs at hm <;> simp only [List.mem_cons, List.not_mem_nil, or_false] at hm
    · rcases hm with rfl | rfl | rfl <;>
        simp [envFileStore_spec, certDirStore_spec, outcome] at hkind
    · rcases hm with rfl | rfl | rfl <;>
        simp [envFileStore_spec, certDirStore_spec, hbundle] at hkind
    · rcases hm with rfl | rfl <;> simp [envFileStore_spec, certDirStore_spec] at hkind
  | python =>
    obtain ⟨certifi, hcertifi, rfl⟩ := Option.map_eq_some_iff.mp h
    rcases List.mem_append.mp hm with hm | hm
    · simp only [List.mem_cons, List.not_mem_nil, or_false] at hm
      rcases hm with rfl | rfl <;> simp [envFileStore_spec] at hkind
    · rw [((searched_certifiStores hcertifi).kind store hm).1] at hkind
      cases hkind

lemma nodup_discover {found patterns paths : List String} (hfound : found.Nodup)
    (h : discover ext fs lookup found patterns = some paths) : paths.Nodup := by
  have hfold : ∀ (new : List String) {found : List String}, found.Nodup →
      (new.foldl (fun found path => if found.contains path then found else found ++ [path])
        found).Nodup := by
    intro new
    induction new with
    | nil => exact id
    | cons path new ih =>
      intro found hfound
      rw [List.foldl_cons]
      refine ih ?_
      split_ifs with hmem
      · exact hfound
      · rw [List.contains_iff_mem] at hmem
        exact List.nodup_append.mpr ⟨hfound, List.nodup_singleton path, fun _ hf _ hp heq =>
          hmem (List.mem_singleton.mp hp ▸ heq ▸ hf)⟩
  induction patterns generalizing found with
  | nil => exact Option.some.inj h ▸ hfound
  | cons pattern patterns ih =>
    obtain ⟨new, -, h⟩ := Option.bind_eq_some_iff.mp h
    dsimp only at h
    split_ifs at h with henough
    · exact Option.some.inj h ▸ hfold new hfound
    · exact ih (hfold new hfound) h

lemma nodup_map_place {f : String → RuntimeStoreOutcome} {paths : List String}
    (hf : ∀ path, (f path).locator = some path) (h : paths.Nodup) :
    ((capped paths).map f |>.map place).Nodup := by
  rw [List.map_map]
  refine (h.sublist (List.take_sublist _ _)).map fun path path' heq => ?_
  have hlocator : (f path).locator = (f path').locator := (Prod.mk.inj heq).2
  rwa [hf, hf, Option.some.injEq] at hlocator

lemma nodup_certifiStores (h : certifiStores ext fs lookup = some stores) :
    (stores.map place).Nodup := by
  obtain ⟨found, hfound, h⟩ := Option.bind_eq_some_iff.mp h
  split_ifs at h
  · exact Option.some.inj h ▸ List.nodup_singleton _
  · exact Option.some.inj h ▸ nodup_map_place (fun _ => rfl) (nodup_discover List.nodup_nil hfound)

lemma nodup_javaStores (h : javaStores ext fs lookup = some stores) :
    (stores.map place).Nodup := by
  obtain ⟨found, hfound, h⟩ := Option.bind_eq_some_iff.mp h
  split_ifs at h
  · exact Option.some.inj h ▸ List.nodup_singleton _
  · exact Option.some.inj h ▸ nodup_map_place (fun _ => rfl) (nodup_discover List.nodup_nil hfound)

/-- No store of a runtime is located twice. -/
lemma nodup_runtimeStores (h : runtimeStores ext fs lookup publicRootPems runtime = some stores) :
    (stores.map place).Nodup := by
  cases runtime with
  | java => exact nodup_javaStores h
  | node =>
    obtain rfl := Option.some.inj h
    refine List.Nodup.of_map Prod.fst ?_
    simp [nodeStores, place, envFileStore_spec, outcome]
  | go =>
    obtain rfl := Option.some.inj h
    have hbundle := (goSystemBundleLoop_spec fs lookup.maxBytes linuxCaBundlePaths []).2.1
    refine List.Nodup.of_map Prod.fst ?_
    unfold goStores goSystemBundleStore
    dsimp only
    split_ifs <;> simp [place, envFileStore_spec, certDirStore_spec, hbundle, outcome]
  | python =>
    obtain ⟨certifi, hcertifi, rfl⟩ := Option.map_eq_some_iff.mp h
    have hkind : ∀ store ∈ certifi, store.kind = .pythonCertifi := fun store hm =>
      ((searched_certifiStores hcertifi).kind store hm).1
    rw [List.map_append, List.nodup_append]
    refine ⟨?_, nodup_certifiStores hcertifi, ?_⟩
    · refine List.Nodup.of_map Prod.fst ?_
      simp [place, envFileStore_spec]
    · rintro _ hfirst _ hsecond rfl
      obtain ⟨store, hm, heq⟩ := List.mem_map.mp hsecond
      have hplace := congrArg Prod.fst heq
      simp only [List.map_cons, List.map_nil, List.mem_cons, List.not_mem_nil, or_false] at hfirst
      rcases hfirst with rfl | rfl <;>
        simp [place, envFileStore_spec, hkind store hm] at hplace

/-- A runtime that is requested once is read once. -/
lemma filter_read (hread : read ext fs lookup publicRootPems runtimes = some outcomes)
    (hnd : runtimes.Nodup) (hm : runtime ∈ runtimes)
    (hstores : runtimeStores ext fs lookup publicRootPems runtime = some stores) :
    (outcomes.filter fun outcome => outcome.runtime = runtime) = stores := by
  obtain ⟨all, hall, rfl⟩ := Option.map_eq_some_iff.mp hread
  rw [OptionMap.filter_flatten_of_nodup hall hnd hm hstores]
  · exact List.filter_eq_self.mpr fun store hs =>
      decide_eq_true (runtime_of_mem_runtimeStores hstores store hs)
  · intro other _ hne others hothers
    exact List.filter_eq_nil_iff.mpr fun store hs => by
      simp [runtime_of_mem_runtimeStores hothers store hs, hne]

/-- However often a runtime is requested, it is its own stores that are returned for it. -/
lemma exists_of_mem_filter_read {store : RuntimeStoreOutcome}
    (hread : read ext fs lookup publicRootPems runtimes = some outcomes)
    (hm : store ∈ outcomes.filter fun outcome => outcome.runtime = runtime) : ∃ stores,
      runtimeStores ext fs lookup publicRootPems runtime = some stores ∧ store ∈ stores := by
  obtain ⟨hs, hruntime⟩ := List.mem_filter.mp hm
  obtain ⟨other, -, stores, hstores, hs⟩ := (mem_read hread).mp hs
  obtain rfl : other = runtime :=
    (runtime_of_mem_runtimeStores hstores store hs).symm.trans (of_decide_eq_true hruntime)
  exact ⟨stores, hstores, hs⟩

lemma keystoresOfJava_read (hread : read ext fs lookup publicRootPems runtimes = some outcomes)
    (runtime : Runtime) :
    KeystoresOfJava runtime (outcomes.filter fun outcome => outcome.runtime = runtime) := by
  intro store hs
  obtain ⟨stores, hstores, hs⟩ := exists_of_mem_filter_read hread hs
  exact keystoresOfJava_runtimeStores hstores store hs

variable {profile : Profile} {osStores : List TrustStoreOutcome} {observed : List ObservedAnchor}
  {osCommands : List TrustStoreCommand} {findings : List Finding}

/-- The platform's stores are reported once, whatever runtimes are asked for. -/
lemma atMostOneEach_osStores
    (hread : read ext fs lookup publicRootPems profile.runtimes = some outcomes)
    (h : runTruststore ext profile osStores outcomes publicRootPems observed osCommands =
      some findings) (hne : osStores ≠ []) :
    AtMostOneEach (fun finding store => ∃ keys, storeFinding ext osCommands keys store = some finding)
      (findings.filter fun finding => finding.id ∈ osFindingIds) osStores := by
  obtain ⟨publicIndex, parts, -, hparts, rfl⟩ := crossCheck_eq_some h
  have hos : ∀ finding ∈ osFindings ext osStores osCommands
      ((locallyAdded ext osStores publicIndex).map fun anchor => derKey anchor.der),
      finding.id ∈ osFindingIds := fun finding hm => id_mem_of_mem_osFindings hm
  have hruntimes : ∀ finding ∈ parts.flatten, finding.id ∉ osFindingIds := by
    intro finding hm hid
    obtain ⟨own, hown, hm⟩ := List.mem_flatten.mp hm
    obtain ⟨runtime, -, hf⟩ := (OptionMap.mem_of_mapM_eq_some hparts own).mp hown
    obtain ⟨topic, htopic⟩ := exists_topic (keystoresOfJava_read hread runtime) hf hm
    have hsome := lookup_topicIds runtime topic _ htopic
    rw [lookup_surroundingIds _ (List.mem_append_left _ hid)] at hsome
    cases hsome
  have htail : (if (osCoverage ext osStores).level = .none then [indeterminateFinding osStores]
      else []).filter (fun finding => finding.id ∈ osFindingIds) = [] := by
    split_ifs
    · exact List.filter_eq_nil_iff.mpr fun finding hm => by
        rw [List.mem_singleton.mp hm]
        change ¬decide ("truststore.crosscheck.indeterminate" ∈ osFindingIds) = true
        decide
    · rfl
  rw [List.filter_append, List.filter_append,
    List.filter_eq_self.mpr fun finding hm => decide_eq_true (hos finding hm),
    List.filter_eq_nil_iff.mpr fun finding hm => by simp [hruntimes finding hm], htail,
    List.append_nil, List.append_nil, osFindings, if_neg (by simpa using hne), List.append_nil,
    List.filterMap_eq_flatMap_toList]
  refine atMostOneEach_flatMap (fun store _ => Option.length_toList_le) fun store _ finding hm => ?_
  exact ⟨_, Option.mem_toList.mp hm⟩

/-- A runtime that is listed once is reported once. -/
lemma reportedOnce_of_nodup
    (hread : read ext fs lookup publicRootPems profile.runtimes = some outcomes)
    (h : runTruststore ext profile osStores outcomes publicRootPems observed osCommands =
      some findings) (hnd : profile.runtimes.Nodup) (hm : runtime ∈ profile.runtimes)
    (hstores : runtimeStores ext fs lookup publicRootPems runtime = some stores) :
    ReportedOnce runtime stores findings := by
  obtain ⟨publicIndex, parts, -, hparts, rfl⟩ := crossCheck_eq_some h
  obtain ⟨own, hown⟩ := Option.isSome_iff_exists.mp
    (OptionMap.mapM_isSome_iff.mp (Option.isSome_of_eq_some hparts) runtime hm)
  have hfilter : ∀ topic, (parts.flatten.filter (isOn runtime topic)) =
      own.filter (isOn runtime topic) := by
    intro topic
    refine OptionMap.filter_flatten_of_nodup hparts hnd hm hown fun other _ hne others ho => ?_
    refine List.filter_eq_nil_iff.mpr fun finding hf => ?_
    obtain ⟨topic', htopic⟩ := exists_topic (keystoresOfJava_read hread other) ho hf
    simp [isOn_eq_false htopic (.inl hne.symm)]
  have hsame : CrossCheckInput.outcomesOf ⟨osStores, outcomes, profile.runtimes, publicRootPems,
      observed, osCommands⟩ runtime = stores := filter_read hread hnd hm hstores
  rw [hsame] at hown
  obtain ⟨hdistinct, hlocated, hjudged, hplatform, hnotFound⟩ := reportedOnce_of_runtimeFindings
    (keystoresOfJava_runtimeStores hstores) (nodup_runtimeStores hstores) hown
  have hsurrounding : ∀ topic, ∀ finding : Finding, finding.id ∈ surroundingIds →
      isOn runtime topic finding = false := fun topic finding => isOn_of_mem_surroundingIds
  rw [List.countP_eq_length_filter] at hplatform hnotFound
  refine ⟨hdistinct, ?_, ?_, ?_, ?_⟩
  · rwa [filter_crossCheck (hsurrounding _), hfilter]
  · rwa [filter_crossCheck (hsurrounding _), hfilter]
  · rwa [List.countP_eq_length_filter, filter_crossCheck (hsurrounding _), hfilter]
  · rwa [List.countP_eq_length_filter, filter_crossCheck (hsurrounding _), hfilter]

end Run

section Repeated
variable {ext : Externals} {profile : Profile} {runtime : Runtime}
  {outcomes stores : List RuntimeStoreOutcome} {added : List Anchor}
  {observed : List ObservedAnchor} {coverage : OsCoverage} {findings : List Finding}

/-- A machine without a store, and a variable that names a missing file. -/
def bareLookup : Lookup :=
  ⟨.other "aix", fun name => if name = "NODE_EXTRA_CA_CERTS" then some "/old/extra.pem" else none,
    maxRuntimeStoreBytes⟩

/-- The store that variable names. -/
def extraStore : RuntimeStoreOutcome :=
  envFileStore missingFiles bareLookup .node .nodeExtraCa "NODE_EXTRA_CA_CERTS" .addsTo

/-- No store was located. -/
def Unlocated (stores : List RuntimeStoreOutcome) : Prop :=
  ∀ store ∈ stores, store.kind ≠ .platformVerifier ∧
    (store.failure = some .notConfigured ∨ store.failure = some .notFound)

lemma envValue_bareLookup {name : String} (h : name ≠ "NODE_EXTRA_CA_CERTS") :
    envValue bareLookup.env name = none := by
  simp [envValue, bareLookup, h]

lemma extraStore_eq : extraStore = pemOutcome (outcome .node .nodeExtraCa .addsTo)
    "/old/extra.pem" ["NODE_EXTRA_CA_CERTS", "/old/extra.pem"]
    ⟨[], some .notFound, some "ENOENT"⟩ := by
  have hvalue : envValue bareLookup.env "NODE_EXTRA_CA_CERTS" = some "/old/extra.pem" := by
    simp [envValue, bareLookup]
  simp only [extraStore, envFileStore, hvalue, readPemFile, missingFiles, statFailure, if_true]

/-- What that machine has for each runtime. -/
lemma exists_bareStores (ext : Externals) (runtime : Runtime) : ∃ stores,
    runtimeStores ext missingFiles bareLookup [] runtime = some stores ∧
      (∀ store ∈ stores, store.pems = []) ∧ (runtime ≠ .node → Unlocated stores) := by
  have hfile := envValue_bareLookup (by decide : "SSL_CERT_FILE" ≠ "NODE_EXTRA_CA_CERTS")
  have hdir := envValue_bareLookup (by decide : "SSL_CERT_DIR" ≠ "NODE_EXTRA_CA_CERTS")
  have hbundle := envValue_bareLookup (by decide : "REQUESTS_CA_BUNDLE" ≠ "NODE_EXTRA_CA_CERTS")
  have hvenv := envValue_bareLookup (by decide : "VIRTUAL_ENV" ≠ "NODE_EXTRA_CA_CERTS")
  have hhome := envValue_bareLookup (by decide : "JAVA_HOME" ≠ "NODE_EXTRA_CA_CERTS")
  have hplatform : bareLookup.platform = .other "aix" := rfl
  cases runtime with
  | node =>
    refine ⟨[_, extraStore], rfl, ?_, fun hne => absurd rfl hne⟩
    rw [extraStore_eq]
    simp [pemOutcome, outcome]
  | go =>
    refine ⟨goStores ext missingFiles bareLookup, rfl, ?_, fun _ => ?_⟩
    · simp [goStores, hfile, hdir, hplatform, envFileStore, certDirStore, outcome]
    · simp [Unlocated, goStores, hfile, hdir, hplatform, envFileStore, certDirStore, outcome]
  | python =>
    have hcertifi : certifiStores ext missingFiles bareLookup =
        some [{ outcome .python .pythonCertifi .standalone with failure := some .notFound }] := by
      simp [certifiStores, certifiPatterns, hvenv, hplatform, pythonCertifiPaths, discover, capped,
        outcome]
    refine ⟨_, by rw [runtimeStores, pythonStores, hcertifi]; rfl, ?_, fun _ => ?_⟩
    · simp [hfile, hbundle, envFileStore, outcome]
    · simp [Unlocated, hfile, hbundle, envFileStore, outcome]
  | java =>
    have hcacerts : javaStores ext missingFiles bareLookup =
        some [{ outcome .java .javaCacerts .standalone with failure := some .notFound }] := by
      simp [javaStores, cacertsPatterns, hhome, hplatform, javaCacertsPaths, discover, capped, outcome]
    refine ⟨_, hcacerts, ?_, fun _ => ?_⟩
    · simp [outcome]
    · simp [Unlocated, outcome]

/-- Where no store was located, that is what is said. -/
lemma countP_storeNotFound (hstores : Unlocated outcomes)
    (h : runtimeFindings ext runtime outcomes added observed coverage = some findings) :
    1 ≤ findings.countP (isOn runtime .storeNotFound) := by
  have hasks : asksPlatform outcomes = false := by
    simpa [asksPlatform] using fun store hm => (hstores store hm).1
  have hreadable : readable outcomes = [] := by
    refine List.filter_eq_nil_iff.mpr fun store hm => ?_
    rcases (hstores store hm).2 with hfailure | hfailure <;> simp [hfailure]
  have hsets : trustSets runtime outcomes = [] := by
    simp [trustSets, bases, replacing, hreadable]
  have hlocated : (outcomes.any fun outcome =>
      outcome.failure ≠ some .notConfigured && outcome.failure ≠ some .notFound) = false := by
    refine List.any_eq_false.mpr fun store hm => ?_
    rcases (hstores store hm).2 with hfailure | hfailure <;> simp [hfailure]
  unfold runtimeFindings at h
  simp only [hasks, hsets, hlocated, List.isEmpty_nil, if_true, Bool.false_eq_true, if_false,
    Option.some.injEq] at h
  rw [← h, List.countP_append]
  refine Nat.le_add_left_of_le ?_
  rw [List.countP_singleton, if_pos]
  exact decide_eq_true List.mem_cons_self

/-- Each copy of a store is reported. -/
lemma countP_le_countP_flatMap {α β : Type} {g : α → List β} {p : α → Bool} {q : β → Bool}
    (h : ∀ a, p a = true → ∃ b ∈ g a, q b = true) (l : List α) :
    l.countP p ≤ (l.flatMap g).countP q := by
  induction l with
  | nil => exact le_rfl
  | cons a l ih =>
    rw [List.countP_cons, List.flatMap_cons, List.countP_append, Nat.add_comm]
    refine Nat.add_le_add ?_ ih
    split_ifs with hp
    · exact List.countP_pos_iff.mpr (h a hp)
    · exact Nat.zero_le _

lemma countP_extraStore_le
    (h : runtimeFindings ext .node outcomes added observed coverage = some findings) :
    outcomes.countP (· = extraStore) ≤ findings.countP (isOn .node .store) := by
  obtain ⟨asked, unlocated, verdicts, hparts⟩ := exists_parts h
  have hsaid : ∀ outcome, decide (outcome = extraStore) = true →
      ∃ finding ∈ outcomeFindings .node outcome, isOn .node .store finding = true := by
    intro outcome hextra
    rw [of_decide_eq_true hextra, extraStore_eq]
    exact ⟨_, List.mem_cons_self, decide_eq_true List.mem_cons_self⟩
  have hcount := countP_le_countP_flatMap hsaid outcomes
  rw [hparts.findings, List.countP_append, List.countP_append, List.countP_append]
  omega

/-- What is said about a runtime is in the report as often as the runtime is listed. -/
lemma exists_own {input : CrossCheckInput} (h : crossCheck ext input = some findings)
    (hm : runtime ∈ input.runtimes) : ∃ added own,
      runtimeFindings ext runtime (input.outcomesOf runtime) added input.observedAnchors
        (osCoverage ext input.osStores) = some own ∧
      ∀ p, input.runtimes.count runtime * own.countP p ≤ findings.countP p := by
  obtain ⟨publicIndex, parts, -, hparts, rfl⟩ := crossCheck_eq_some h
  obtain ⟨own, hown⟩ := Option.isSome_iff_exists.mp
    (OptionMap.mapM_isSome_iff.mp (Option.isSome_of_eq_some hparts) runtime hm)
  refine ⟨_, own, hown, fun p => ?_⟩
  have hflatten := OptionMap.count_mul_countP_le hparts hown p
  rw [List.countP_append, List.countP_append]
  omega

/-- And its stores are read as often. -/
lemma count_le_countP_read {fs : FileSystem} {lookup : Lookup} {publicRootPems : List String}
    {runtimes : List Runtime} {store : RuntimeStoreOutcome}
    (hread : read ext fs lookup publicRootPems runtimes = some outcomes)
    (hstores : runtimeStores ext fs lookup publicRootPems runtime = some stores)
    (hm : store ∈ stores) : runtimes.count runtime ≤
      (outcomes.filter fun outcome => outcome.runtime = runtime).countP (· = store) := by
  have hruntime := runtime_of_mem_runtimeStores hstores store hm
  have hown : 1 ≤ stores.countP (· = store) :=
    List.countP_pos_iff.mpr ⟨store, hm, decide_eq_true rfl⟩
  obtain ⟨all, hall, rfl⟩ := Option.map_eq_some_iff.mp hread
  have hcount := OptionMap.count_mul_countP_le hall hstores (· = store)
  rw [List.countP_filter]
  calc runtimes.count runtime
      = runtimes.count runtime * 1 := (Nat.mul_one _).symm
    _ ≤ runtimes.count runtime * stores.countP (· = store) := Nat.mul_le_mul_left _ hown
    _ ≤ all.flatten.countP (· = store) := hcount
    _ = _ := List.countP_congr fun outcome _ => by
      simp only [decide_eq_true_eq, Bool.and_eq_true]
      exact ⟨fun heq => ⟨heq, heq ▸ hruntime⟩, And.left⟩

/-- A profile that lists a runtime twice is reported twice on the machine without stores. -/
lemma not_reportsOnce (hcount : 2 ≤ profile.runtimes.count runtime) : ¬ReportsOnce ext profile := by
  intro honce
  have hm : runtime ∈ profile.runtimes := List.count_pos_iff.mp (by omega)
  obtain ⟨outcomes, hread⟩ : ∃ outcomes,
      read ext missingFiles bareLookup [] profile.runtimes = some outcomes := by
    refine Option.isSome_iff_exists.mp ?_
    unfold Net.read
    rw [Option.isSome_map, OptionMap.mapM_isSome_iff]
    intro other _
    obtain ⟨stores, hstores, -⟩ := exists_bareStores ext other
    exact Option.isSome_of_eq_some hstores
  have hempty : ∀ outcome ∈ outcomes, AllParse ext outcome.pems := by
    intro outcome ho
    obtain ⟨other, -, stores, hstores, ho⟩ := (mem_read hread).mp ho
    obtain ⟨stores', hstores', hpems, -⟩ := exists_bareStores ext other
    obtain rfl := Option.some.inj (hstores.symm.trans hstores')
    rw [hpems outcome ho]
    exact fun _ hnone => absurd hnone List.not_mem_nil
  obtain ⟨findings, hfindings⟩ := @crossCheck_of_allParse ext
    ⟨[], outcomes, profile.runtimes, [], [], []⟩ (fun _ hnone => absurd hnone List.not_mem_nil) hempty
  obtain ⟨added, own, hown, hmany⟩ := exists_own hfindings hm
  dsimp only at hmany
  obtain ⟨stores, hstores, -, hunlocated⟩ := exists_bareStores ext runtime
  obtain ⟨-, honce⟩ := honce _ _ _ _ _ _ _ _ hread hfindings
  have hreported := honce runtime hm stores hstores
  by_cases hnode : runtime = .node
  · subst hnode
    obtain rfl := Option.some.inj hstores
    have hlength : findings.countP (isOn .node .store) ≤ 2 := by
      rw [List.countP_eq_length_filter]
      exact hreported.located.length_le
    have hextra : extraStore ∈ nodeStores missingFiles bareLookup [] :=
      List.mem_cons_of_mem _ List.mem_cons_self
    have hown : profile.runtimes.count .node ≤ own.countP (isOn .node .store) :=
      (count_le_countP_read hread hstores hextra).trans (countP_extraStore_le hown)
    have htwice := Nat.mul_le_mul hcount (hcount.trans hown)
    have := hmany (isOn .node .store)
    omega
  · have hown : 1 ≤ own.countP (isOn runtime .storeNotFound) := by
      refine countP_storeNotFound (fun store hs => ?_) hown
      obtain ⟨stores', hstores', hs⟩ := exists_of_mem_filter_read hread hs
      obtain rfl := Option.some.inj (hstores.symm.trans hstores')
      exact hunlocated hnode store hs
    have htwice := Nat.mul_le_mul hcount hown
    have hnotFound := hreported.storeNotFound
    have := hmany (isOn runtime .storeNotFound)
    omega

/-- No machine makes a run report one store twice exactly when the profile lists no runtime
twice. -/
theorem reportsOnce_iff : ReportsOnce ext profile ↔ profile.runtimes.Nodup := by
  constructor
  · intro honce
    by_contra hnd
    obtain ⟨runtime, hcount⟩ := List.exists_duplicate_iff_not_nodup.mpr hnd
    exact not_reportsOnce (List.duplicate_iff_two_le_count.mp hcount) honce
  · intro hnd fs lookup osStores outcomes publicRootPems observed osCommands findings hread h
    refine ⟨atMostOneEach_osStores hread h, fun runtime hm stores hstores => ?_⟩
    exact reportedOnce_of_nodup hread h hnd hm hstores

/-- A profile that lists Node twice. -/
def twiceNode : Profile where
  name := "acme"
  endpoints := [⟨"api.example.com", 443, "api", true⟩]
  runtimes := [.node, .node]

/-- The loader accepts it, and a run for it reports a store more than once. -/
theorem twiceNode_reported_twice : ¬∀ id source raw loaded,
    parseProfile fixtureExternals id source raw = some loaded →
      ReportsOnce fixtureExternals loaded.profile := by
  intro h
  have hschema : profileSchema fixtureExternals twiceNode = true := by decide
  have hdistinct : findDuplicateEndpoints fixtureExternals twiceNode.endpoints = [] := by decide
  have hloads : parseProfile fixtureExternals "acme" .file twiceNode =
      some ⟨"acme", .file, twiceNode, hschema, hdistinct⟩ := by
    rw [parseProfile, dif_pos hschema, dif_pos hdistinct]
  exact not_reportsOnce (by decide : 2 ≤ twiceNode.runtimes.count .node) (h _ _ _ _ hloads)

end Repeated
end Portcall.Truststore
