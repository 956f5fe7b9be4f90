import Portcall.Net.StoreBudget
import Portcall.Truststore.Verdicts

/-! What the operator is told about a store that ran out of time, against what the reader did with
the run's clock: the two modules draw the line between the deadline and the ceiling alike. -/
namespace Portcall.Truststore
open Net

/-- What is said of a store no child was started for. -/
def exhaustedRemediation : String :=
  "The run's remaining time ran out before this store was read, not the store itself: the " ++
  "four earlier probes used the whole budget. Re-run with --timeout raised (default 60 " ++
  "seconds, and truststore runs last)."

/-- What is said where the deadline ended the read. -/
def deadlineSentence : String :=
  "The run had less time left than this store is allowed, so the run budget is what cut " ++
  "the read short: re-run with --timeout raised to give it more room. "

/-- What is said where the row's ceiling did. -/
def ceilingSentence : String :=
  "That is the whole time this store gets on this platform rather than a slice of the run " ++
  "budget: the run's own --timeout is not what cut the read short, so raising it would " ++
  "only wait longer for the same answer. The ceiling is what a healthy host of this " ++
  "platform actually needs for this read, with headroom above it, so a store that outruns " ++
  "it is the finding rather than a number to retune. "

/-- What ends the text in both cases. -/
def closingSentences : String :=
  "If it still does not finish, list that store with your platform's own certificate tool " ++
  "and send the output with this report. On Windows, a first enumeration of the machine " ++
  "root store can also block while the OS itself fetches its root-certificate update " ++
  "list, so check whether ctldl.windowsupdate.com is reachable or blocked at your egress."

/-- The text tells the operator to raise `--timeout`: it is the one about an exhausted run, or the
sentence that says so stands before the closing ones. -/
def TellsToRaise (remediation : String) : Prop :=
  remediation = exhaustedRemediation ∨
    ∃ lead, remediation = lead ++ deadlineSentence ++ closingSentences

section Text
variable {store : TrustStoreOutcome} {ceiling : Option ℕ}

private lemma getElem?_reverse_append {text : String} {i : ℕ} {c : Char} (lead : String)
    (h : text.toList.reverse[i]? = some c) : (lead ++ text).toList.reverse[i]? = some c := by
  have hi : i < text.toList.reverse.length := (List.getElem?_eq_some_iff.mp h).1
  rw [String.toList_append, List.reverse_append, List.getElem?_append_left hi, h]

private lemma head?_append {text : String} {c : Char} (rest : String)
    (h : text.toList.head? = some c) : (text ++ rest).toList.head? = some c := by
  rw [String.toList_append, List.head?_append, h, Option.some_or]

/-- The two sentences about a bound do not end alike. -/
lemma lead_ne (lead lead' : String) : lead ++ ceilingSentence ≠ lead' ++ deadlineSentence := by
  intro h
  have hceiling : ceilingSentence.toList.reverse[2]? = some 'e' := by
    unfold ceilingSentence
    exact getElem?_reverse_append _ (by decide +kernel)
  have hdeadline : deadlineSentence.toList.reverse[2]? = some 'm' := by
    unfold deadlineSentence
    exact getElem?_reverse_append _ (by decide +kernel)
  have hlast := getElem?_reverse_append lead hceiling
  rw [h, getElem?_reverse_append lead' hdeadline] at hlast
  exact absurd hlast (by decide)

/-- How the text about a store a child was started for begins. -/
def stoppedReading (store : TrustStoreOutcome) : String :=
  "Portcall stopped reading " ++ store.locator ++ " after " ++ seconds (store.budgetMs.getD 0) ++
  " seconds, so the trust-store cross-check below is incomplete rather than clean - do not " ++
  "read it as \"this root is present\". "

/-- It does not begin like the text about an exhausted run. -/
lemma stoppedReading_append_ne (text : String) :
    stoppedReading store ++ text ≠ exhaustedRemediation := by
  intro h
  have hstopped : (stoppedReading store).toList.head? = some 'P' := by
    unfold stoppedReading
    iterate 5 apply head?_append
    decide +kernel
  have hexhausted : exhaustedRemediation.toList.head? = some 'T' := by
    unfold exhaustedRemediation
    iterate 2 apply head?_append
    decide +kernel
  have hhead := head?_append text hstopped
  rw [h, hexhausted] at hhead
  exact absurd hhead (by decide)

private lemma append_closing (text a b c d : String) :
    text ++ a ++ b ++ c ++ d = text ++ (a ++ b ++ c ++ d) := by
  simp only [String.append_assoc]

/-- What is said of a store a child was started for. -/
lemma readTimeoutRemediation_of_child (hcode : store.code ≠ some "budget-exhausted") :
    readTimeoutRemediation store ceiling = stoppedReading store ++
      (if ceiling.any (fun ceiling => ceiling ≤ store.budgetMs.getD 0) then ceilingSentence
        else deadlineSentence) ++ closingSentences := by
  rw [readTimeoutRemediation, if_neg hcode]
  exact append_closing _ _ _ _ _

/-- The sentence to raise `--timeout` is there where the budget was below the ceiling. -/
theorem tellsToRaise_iff_of_child (hcode : store.code ≠ some "budget-exhausted") :
    TellsToRaise (readTimeoutRemediation store ceiling) ↔
      ¬ceiling.any (fun ceiling => ceiling ≤ store.budgetMs.getD 0) = true := by
  rw [readTimeoutRemediation_of_child hcode]
  constructor
  · rintro (hexhausted | ⟨lead, hlead⟩) hbound
    · rw [String.append_assoc] at hexhausted
      exact stoppedReading_append_ne _ hexhausted
    · rw [if_pos hbound, String.append_left_inj] at hlead
      exact lead_ne _ _ hlead
  · intro hbound
    rw [if_neg hbound]
    exact Or.inr ⟨_, rfl⟩

end Text

/-- The finding is the one about the time this store's read took. -/
def IsTimeoutOf (store : TrustStoreOutcome) (finding : Finding) : Prop :=
  finding.id = "truststore.os.read-timeout" ∧
    finding.evidence.head? = some ⟨"store", store.kind.text, .text⟩

/-- A cross-check of these stores reports this one's timeout, and tells the operator to raise
`--timeout` there exactly in the case given. -/
def ToldOfTimeout (osStores : List TrustStoreOutcome) (osCommands : List TrustStoreCommand)
    (store : TrustStoreOutcome) (raise : Prop) : Prop :=
  ∀ ext input findings, input.osStores = osStores → input.osCommands = osCommands →
    crossCheck ext input = some findings →
      (∃ finding ∈ findings, IsTimeoutOf store finding) ∧
        ∀ finding ∈ findings, IsTimeoutOf store finding →
          ∃ remediation, finding.remediation = some remediation ∧
            (TellsToRaise remediation ↔ raise)

section Findings
variable {ext : Externals} {input : CrossCheckInput} {findings : List Finding} {finding : Finding}

/-- No finding about a runtime has the id of one about a platform store. -/
lemma id_not_mem_of_mem_runtimeFindings {runtime : Runtime} {outcomes : List RuntimeStoreOutcome}
    {added : List Anchor} {observed : List ObservedAnchor} {coverage : OsCoverage}
    (h : runtimeFindings ext runtime outcomes added observed coverage = some findings)
    (hm : finding ∈ findings) : finding.id ∉ osFindingIds := by
  obtain ⟨about, verdicts, rfl, habout, hverdicts⟩ := runtimeFindings_eq_some h
  rcases List.mem_append.mp hm with hm | hm
  · rcases habout finding hm with hid | hid
    · revert hid
      generalize finding.id = id
      cases runtime <;> revert id <;> decide
    · rw [hid]
      decide
  · rcases hverdicts with ⟨-, rfl⟩ | ⟨-, -, hverdicts⟩
    · simp at hm
    · have hverdict := isVerdictOn_of_mem_verdicts hverdicts hm
      intro hid
      rw [isVerdictOn_of_mem_otherIds (List.mem_append_left _ hid)] at hverdict
      cases hverdict

/-- A read that ran out of time is reported. -/
lemma readTimeoutFinding_mem {store : TrustStoreOutcome} (h : crossCheck ext input = some findings)
    (hstore : store ∈ input.osStores) (hfailure : store.failure = some .timeout) :
    readTimeoutFinding store (ceilingFor store.kind input.osCommands) ∈ findings := by
  obtain ⟨publicIndex, runtimes, -, -, rfl⟩ := crossCheck_eq_some h
  refine List.mem_append_left _ (List.mem_append_left _ (List.mem_append_left _ ?_))
  refine List.mem_filterMap.mpr ⟨store, hstore, ?_⟩
  rw [storeFinding, hfailure]

lemma failure_of_storeFinding {commands : List TrustStoreCommand} {keys : List String}
    {store : TrustStoreOutcome} (h : storeFinding ext commands keys store = some finding)
    (hid : finding.id = "truststore.os.read-timeout") : store.failure = some .timeout := by
  have hother : ∀ id ∈ ["truststore.os.read", "truststore.os.aborted", "truststore.os.unreadable"],
      id ≠ "truststore.os.read-timeout" := by decide
  unfold storeFinding at h
  split at h
  · cases h
    exact absurd hid (hother "truststore.os.read" (by decide))
  · assumption
  · cases h
    exact absurd hid (hother "truststore.os.aborted" (by decide))
  · obtain ⟨row, -, rfl⟩ := Option.map_eq_some_iff.mp h
    exact absurd hid (hother "truststore.os.unreadable" (by decide))

/-- And nothing else is reported under that id. -/
lemma eq_readTimeoutFinding (h : crossCheck ext input = some findings) (hm : finding ∈ findings)
    (hid : finding.id = "truststore.os.read-timeout") : ∃ store ∈ input.osStores,
      finding = readTimeoutFinding store (ceilingFor store.kind input.osCommands) := by
  obtain ⟨publicIndex, runtimes, -, hruntimes, rfl⟩ := crossCheck_eq_some h
  rcases List.mem_append.mp hm with hm | hm
  · rcases List.mem_append.mp hm with hm | hm
    · rcases List.mem_append.mp hm with hm | hm
      · obtain ⟨store, hstore, hfinding⟩ := List.mem_filterMap.mp hm
        have hfailure := failure_of_storeFinding hfinding hid
        rw [storeFinding, hfailure] at hfinding
        exact ⟨store, hstore, (Option.some.inj hfinding).symm⟩
      · split_ifs at hm
        · rw [List.mem_singleton.mp hm] at hid
          exact absurd hid (by decide)
        · simp at hm
    · obtain ⟨own, hown, hfinding⟩ := List.mem_flatten.mp hm
      obtain ⟨runtime, -, hf⟩ := (OptionMap.mem_of_mapM_eq_some hruntimes _).mp hown
      exact absurd (hid ▸ by decide) (id_not_mem_of_mem_runtimeFindings hf hfinding)
  · split_ifs at hm
    · rw [List.mem_singleton.mp hm] at hid
      change "truststore.crosscheck.indeterminate" = _ at hid
      exact absurd hid (by decide)
    · simp at hm

lemma text_injective : Function.Injective TrustStoreKind.text := by
  intro kind kind' h
  cases kind <;> cases kind' <;> first | rfl | exact absurd h (by decide)

/-- What is said of one store, where the stores are of distinct kinds. -/
lemma toldOfTimeout {osStores : List TrustStoreOutcome} {osCommands : List TrustStoreCommand}
    {store : TrustStoreOutcome} {raise : Prop} (hstore : store ∈ osStores)
    (hkinds : ∀ other ∈ osStores, other.kind = store.kind → other = store)
    (hfailure : store.failure = some .timeout)
    (hraise : TellsToRaise (readTimeoutRemediation store (ceilingFor store.kind osCommands)) ↔
      raise) : ToldOfTimeout osStores osCommands store raise := by
  rintro ext input findings rfl rfl h
  refine ⟨⟨_, readTimeoutFinding_mem h hstore hfailure, rfl, rfl⟩, ?_⟩
  rintro finding hm ⟨hid, hevidence⟩
  obtain ⟨other, hother, rfl⟩ := eq_readTimeoutFinding h hm hid
  have hkind : other.kind.text = store.kind.text := by
    change some (Evidence.mk "store" other.kind.text .text) = _ at hevidence
    exact congrArg Evidence.value (Option.some.inj hevidence)
  rw [hkinds other hother (text_injective hkind)]
  exact ⟨_, rfl, hraise⟩

end Findings

section Table
variable {utf8 : List UInt8 → String} {platform : Net.Platform} {deadline : ℤ}
  {row : StoreRow} {rows : List StoreRow} {outcome : TrustStoreOutcome}

/-- The ceiling of a kind is its row's. -/
lemma ceilingFor_of_mem (hkinds : (rows.map fun row => row.kind).Nodup) (hrow : row ∈ rows) :
    ceilingFor row.kind (rows.map StoreRow.toTrustStoreCommand) = some row.timeoutMs := by
  induction rows with
  | nil => simp at hrow
  | cons other rows ih =>
    rw [List.map_cons, List.nodup_cons] at hkinds
    rw [ceilingFor, List.map_cons, List.find?_cons]
    rcases List.mem_cons.mp hrow with rfl | hrow
    · simp
    · have hne : other.kind ≠ row.kind := fun heq =>
        hkinds.1 (heq ▸ List.mem_map_of_mem hrow)
      rw [decide_eq_false hne]
      exact ih hkinds.2 hrow

/-- A child killed by its timer is not a row without a child. -/
lemma code_ne_of_readOneStore {timeoutMs : ℕ} {events : List (ℕ × ChildEvent)}
    (h : readOneStore utf8 row timeoutMs false events = some outcome)
    (hfailure : outcome.failure = some .timeout) : outcome.code ≠ some "budget-exhausted" := by
  obtain ⟨before, elapsed, event, hanswers⟩ := answers_of_readOneStore utf8 row timeoutMs h
  obtain ⟨killed, hfirst, -, hcode⟩ := hanswers.killed .timeout (by decide) hfailure
  have hkill := code_mem_of_firstTrigger hfirst
  intro hexhausted
  rw [hcode, Option.some_inj] at hexhausted
  rw [hexhausted] at hkill
  exact absurd hkill (by decide)

/-- What is said of a row's timeout, against what the deadline left the row. -/
theorem tellsToRaise_iff {visit : StoreVisit} (hceiling : minStoreBudgetMs ≤ row.timeoutMs)
    (hsignal : visit.aborted = false) (h : readRow utf8 deadline row visit = some outcome)
    (hfailure : outcome.failure = some .timeout) :
    TellsToRaise (readTimeoutRemediation outcome (some row.timeoutMs)) ↔
      roomMs deadline visit.now < row.timeoutMs := by
  rcases lt_or_ge (roomMs deadline visit.now) minStoreBudgetMs with hroom | hroom
  · have hcode := ((budgetKept_of_readRow hceiling hsignal h).exhausted hroom).1.2.1
    rw [readTimeoutRemediation, if_pos hcode]
    exact iff_of_true (Or.inl rfl) (by omega)
  · rw [readRow_of_room hceiling hroom hsignal] at h
    obtain ⟨before, elapsed, event, hanswers⟩ := answers_of_readOneStore utf8 row _ h
    have hbudget := @storeBudgetMs_eq deadline row _ hroom
    rw [tellsToRaise_iff_of_child (code_ne_of_readOneStore h hfailure), hanswers.budget.1,
      Option.any_some, Option.getD_some, decide_eq_true_eq]
    -- the smaller of the two is below the ceiling exactly where the room is
    omega

/-- Every store read within the run's deadline and its row's ceiling, or not at all; and where its
time ran out, the operator is told to raise `--timeout` exactly if the deadline left the row less
than its ceiling. -/
theorem readOsStores_timeouts {fs : FileSystem} {elapsed : ℕ} {visit : ℕ → StoreVisit}
    {outcomes : List TrustStoreOutcome} (hkinds : (rows.map fun row => row.kind).Nodup)
    (hceiling : ∀ row ∈ rows, minStoreBudgetMs ≤ row.timeoutMs)
    (hsignal : ∀ i, (visit i).aborted = false)
    (h : readOsStores utf8 platform deadline fs elapsed visit rows = some outcomes) :
    (platform = .linux → ∀ outcome ∈ outcomes, outcome.failure ≠ some .timeout) ∧
      (platform ≠ .linux → outcomes.length = (rowsOf platform rows).length ∧
        ∀ i row outcome, (rowsOf platform rows)[i]? = some row → outcomes[i]? = some outcome →
          BudgetKept utf8 deadline row (visit i) outcome ∧
            (outcome.failure = some .timeout →
              ToldOfTimeout outcomes (rows.map StoreRow.toTrustStoreCommand) outcome
                (roomMs deadline (visit i).now < row.timeoutMs))) := by
  constructor
  · intro hlinux
    rw [readOsStores, if_pos hlinux] at h
    cases h
    intro outcome hm
    rw [List.mem_singleton.mp hm]
    exact failure_readLinuxCaBundle_ne_timeout
  · intro hother
    rw [readOsStores, if_neg hother] at h
    obtain ⟨hlength, hreads⟩ := readRows_eq_some h
    refine ⟨hlength, fun i row outcome hrow houtcome => ?_⟩
    have hread := hreads i row outcome hrow houtcome
    rw [Nat.zero_add] at hread
    have hm : row ∈ rows := List.mem_of_mem_filter (List.mem_of_getElem? hrow)
    have hstore := List.mem_of_getElem? houtcome
    refine ⟨budgetKept_of_readRow (hceiling row hm) (hsignal i) hread, fun hfailure => ?_⟩
    refine toldOfTimeout hstore (fun other ho hkind => eq_of_kind_eq hkinds h ho hstore hkind)
      hfailure ?_
    rw [kind_of_readRow hread, ceilingFor_of_mem hkinds hm]
    exact tellsToRaise_iff (hceiling row hm) (hsignal i) hread hfailure

/-- Two reads of a run that ends at 60000: one that takes its whole ceiling, one that comes too
late. -/
def lateVisits : ℕ → StoreVisit
  | 0 => ⟨0, false, [(5000, .timer), (5001, .close none (some "SIGKILL"))]⟩
  | _ => ⟨57500, false, []⟩

def noFiles : FileSystem where
  stat _ := .error none
  readdir _ := .error none
  readText _ := .error none
  readBytes _ := .error none

/-- The operator is told to raise `--timeout` for the second only. -/
theorem readOsStores_timeouts_late : ∃ first second,
    readOsStores (fun _ => "") .darwin 60000 noFiles 0 lateVisits osTrustStoreCommands =
        some [first, second] ∧
      ToldOfTimeout [first, second] (osTrustStoreCommands.map StoreRow.toTrustStoreCommand) first
        False ∧
      ToldOfTimeout [first, second] (osTrustStoreCommands.map StoreRow.toTrustStoreCommand) second
        True := by
  obtain ⟨-, h⟩ := @readOsStores_timeouts (fun _ => "") .darwin 60000 osTrustStoreCommands noFiles
    0 lateVisits _ (by decide) (by decide) (by rintro (_ | i) <;> rfl) rfl
  obtain ⟨-, h⟩ := h (by decide)
  have hfirst := (h 0 _ _ rfl rfl).2 rfl
  have hsecond := (h 1 _ _ rfl rfl).2 rfl
  refine ⟨_, _, rfl, ?_, ?_⟩
  · rwa [eq_false (by decide : ¬roomMs 60000 (lateVisits 0).now < (5000 : ℕ))] at hfirst
  · rwa [eq_true (by decide : roomMs 60000 (lateVisits 1).now < (5000 : ℕ))] at hsecond

end Table
end Portcall.Truststore
