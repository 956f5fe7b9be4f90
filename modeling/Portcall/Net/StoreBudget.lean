import Portcall.Net.ChildEvents
import Portcall.Net.OsTruststore

/-! The platform's stores, read one after the other, each on what the run's deadline and its row
leave it. -/
namespace Portcall.Net

def storeBudgetReserveMs : ℤ := 2000
def minStoreBudgetMs : ℕ := 1000

/-- What is left of the run when a row's budget is computed, past the reserve. -/
def roomMs (deadline now : ℤ) : ℤ := deadline - now - storeBudgetReserveMs

def storeBudgetMs (row : StoreRow) (deadline now : ℤ) : ℕ :=
  (max 0 (min (row.timeoutMs : ℤ) (roomMs deadline now))).toNat

/-- What one pass of the loop meets: the clock, the run's signal, and the child's events. -/
structure StoreVisit where
  now : ℤ
  aborted : Bool
  events : List (ℕ × ChildEvent)
  deriving DecidableEq, Repr

/-- No child was started, so no budget was applied and no time was taken. -/
def budgetExhausted (row : StoreRow) : TrustStoreOutcome where
  kind := row.kind
  locator := row.locator
  pems := []
  failure := some .timeout
  code := some "budget-exhausted"
  budgetMs := some 0
  readMs := none

section Read
variable (utf8 : List UInt8 → String) (platform : Platform) (deadline : ℤ)

def readRow (row : StoreRow) (visit : StoreVisit) : Option TrustStoreOutcome :=
  let budgetMs := storeBudgetMs row deadline visit.now
  -- a fired run signal outranks the budget
  if budgetMs < minStoreBudgetMs && !visit.aborted then some (budgetExhausted row)
  else readOneStore utf8 row budgetMs visit.aborted visit.events

/-- The rows of the platform, in table order; `none` while a child has not answered. -/
def readRows (visit : ℕ → StoreVisit) : ℕ → List StoreRow → Option (List TrustStoreOutcome)
  | _, [] => some []
  | i, row :: rows =>
    if row.platform ≠ platform then readRows visit i rows
    else do
      let outcome ← readRow utf8 deadline row (visit i)
      let outcomes ← readRows visit (i + 1) rows
      return outcome :: outcomes

/-- Every store this platform has; the bundle of Linux is a file. -/
def readOsStores (fs : FileSystem) (elapsed : ℕ) (visit : ℕ → StoreVisit) (rows : List StoreRow) :
    Option (List TrustStoreOutcome) :=
  if platform = .linux then
    some [readLinuxCaBundle fs elapsed linuxCaBundlePaths maxStoreOutputBytes]
  else readRows utf8 platform deadline visit 0 rows

end Read

/-- What one row's pass leaves, where the run's signal has not fired: a budget inside the row's
ceiling and the run's deadline, or no child at all. -/
structure BudgetKept (utf8 : List UInt8 → String) (deadline : ℤ) (row : StoreRow)
    (visit : StoreVisit) (outcome : TrustStoreOutcome) : Prop where
  exhausted : roomMs deadline visit.now < minStoreBudgetMs →
    (outcome.failure = some .timeout ∧ outcome.code = some "budget-exhausted" ∧
      outcome.budgetMs = some 0 ∧ outcome.readMs = none) ∧
    ∀ events, readRow utf8 deadline row { visit with events := events } = some outcome
  started : minStoreBudgetMs ≤ roomMs deadline visit.now → ∃ budgetMs : ℕ,
    readOneStore utf8 row budgetMs false visit.events = some outcome ∧
      outcome.budgetMs = some budgetMs ∧ minStoreBudgetMs ≤ budgetMs ∧
      budgetMs ≤ row.timeoutMs ∧ visit.now + budgetMs + storeBudgetReserveMs ≤ deadline

section Budget
variable {utf8 : List UInt8 → String} {platform : Platform} {deadline : ℤ} {row : StoreRow}
  {visit : StoreVisit} {outcome : TrustStoreOutcome}

lemma storeBudgetMs_lt_iff (hceiling : minStoreBudgetMs ≤ row.timeoutMs) {now : ℤ} :
    storeBudgetMs row deadline now < minStoreBudgetMs ↔ roomMs deadline now < minStoreBudgetMs := by
  simp only [storeBudgetMs, minStoreBudgetMs] at hceiling ⊢
  omega

/-- A budget is the smaller of the row's ceiling and the room. -/
lemma storeBudgetMs_eq {now : ℤ} (hroom : minStoreBudgetMs ≤ roomMs deadline now) :
    (storeBudgetMs row deadline now : ℤ) = min (row.timeoutMs : ℤ) (roomMs deadline now) := by
  simp only [storeBudgetMs, minStoreBudgetMs] at hroom ⊢
  omega

/-- Without room no child is started. -/
lemma readRow_of_no_room (hceiling : minStoreBudgetMs ≤ row.timeoutMs)
    (hroom : roomMs deadline visit.now < minStoreBudgetMs) (hsignal : visit.aborted = false) :
    readRow utf8 deadline row visit = some (budgetExhausted row) := by
  have hlt := (@storeBudgetMs_lt_iff deadline row hceiling visit.now).mpr hroom
  rw [readRow]
  exact if_pos (by simp [hlt, hsignal])

/-- With room one is, on the budget. -/
lemma readRow_of_room (hceiling : minStoreBudgetMs ≤ row.timeoutMs)
    (hroom : minStoreBudgetMs ≤ roomMs deadline visit.now) (hsignal : visit.aborted = false) :
    readRow utf8 deadline row visit =
      readOneStore utf8 row (storeBudgetMs row deadline visit.now) false visit.events := by
  have hlt : ¬storeBudgetMs row deadline visit.now < minStoreBudgetMs := by
    rw [storeBudgetMs_lt_iff hceiling]
    exact not_lt.mpr hroom
  rw [readRow, hsignal]
  exact if_neg (by simp [hlt])

/-- One row. -/
theorem budgetKept_of_readRow (hceiling : minStoreBudgetMs ≤ row.timeoutMs)
    (hsignal : visit.aborted = false) (h : readRow utf8 deadline row visit = some outcome) :
    BudgetKept utf8 deadline row visit outcome where
  exhausted hroom := by
    rw [readRow_of_no_room hceiling hroom hsignal] at h
    cases h
    exact ⟨⟨rfl, rfl, rfl, rfl⟩, fun events => readRow_of_no_room hceiling hroom hsignal⟩
  started hroom := by
    rw [readRow_of_room hceiling hroom hsignal] at h
    obtain ⟨before, elapsed, event, hanswers⟩ := answers_of_readOneStore utf8 row _ h
    have hbudget := @storeBudgetMs_eq deadline row _ hroom
    refine ⟨_, h, hanswers.budget.1, ?_⟩
    simp only [roomMs, storeBudgetReserveMs, minStoreBudgetMs] at hbudget hroom hceiling ⊢
    omega

/-- An outcome is one of the row's store. -/
lemma kind_of_readRow (h : readRow utf8 deadline row visit = some outcome) :
    outcome.kind = row.kind := by
  rw [readRow] at h
  split_ifs at h with hroom
  · cases h
    rfl
  · cases hsignal : visit.aborted with
    | true =>
      rw [hsignal] at h
      cases h
      rfl
    | false =>
      rw [hsignal] at h
      obtain ⟨before, elapsed, event, hanswers⟩ := answers_of_readOneStore utf8 row _ h
      exact hanswers.store.1

/-- The rows of the platform. -/
def rowsOf (platform : Platform) (rows : List StoreRow) : List StoreRow :=
  rows.filter fun row => row.platform = platform

/-- Row by row: the `i`th of the platform is read at the `i`th visit. -/
theorem readRows_eq_some {visit : ℕ → StoreVisit} {k : ℕ} {rows : List StoreRow}
    {outcomes : List TrustStoreOutcome}
    (h : readRows utf8 platform deadline visit k rows = some outcomes) :
    outcomes.length = (rowsOf platform rows).length ∧ ∀ i row outcome,
      (rowsOf platform rows)[i]? = some row → outcomes[i]? = some outcome →
        readRow utf8 deadline row (visit (k + i)) = some outcome := by
  induction rows generalizing k outcomes with
  | nil =>
    cases h
    exact ⟨rfl, fun i row outcome hrow _ => by cases hrow⟩
  | cons row rows ih =>
    rw [readRows] at h
    split_ifs at h with hplatform
    · have hskip : rowsOf platform (row :: rows) = rowsOf platform rows :=
        List.filter_cons_of_neg (by simpa using hplatform)
      rw [hskip]
      exact ih h
    · have htake : rowsOf platform (row :: rows) = row :: rowsOf platform rows :=
        List.filter_cons_of_pos (by simpa using hplatform)
      obtain ⟨outcome, hread, h⟩ := Option.bind_eq_some_iff.mp h
      obtain ⟨rest, hrest, h⟩ := Option.bind_eq_some_iff.mp h
      cases h
      obtain ⟨hlength, hreads⟩ := ih hrest
      rw [htake]
      refine ⟨congrArg Nat.succ hlength, fun i => ?_⟩
      cases i with
      | zero =>
        intro row' outcome' hrow houtcome
        cases hrow
        cases houtcome
        exact hread
      | succ i =>
        intro row' outcome' hrow houtcome
        have hi := hreads i row' outcome' hrow houtcome
        rwa [Nat.add_assoc, Nat.add_comm 1] at hi

/-- The stores stand in the order of their rows. -/
lemma map_kind_of_readRows {visit : ℕ → StoreVisit} {k : ℕ} {rows : List StoreRow}
    {outcomes : List TrustStoreOutcome}
    (h : readRows utf8 platform deadline visit k rows = some outcomes) :
    (outcomes.map fun outcome => outcome.kind) = (rowsOf platform rows).map fun row => row.kind := by
  obtain ⟨hlength, hreads⟩ := readRows_eq_some h
  refine List.ext_getElem (by simpa using hlength) fun i hi hi' => ?_
  rw [List.length_map] at hi hi'
  rw [List.getElem_map, List.getElem_map]
  exact kind_of_readRow (hreads i _ _ (List.getElem?_eq_getElem hi') (List.getElem?_eq_getElem hi))

/-- Stores of distinct kinds stay apart. -/
lemma eq_of_kind_eq {visit : ℕ → StoreVisit} {rows : List StoreRow}
    {outcomes : List TrustStoreOutcome} (hkinds : (rows.map fun row => row.kind).Nodup)
    (h : readRows utf8 platform deadline visit 0 rows = some outcomes)
    {store : TrustStoreOutcome} (hstore : store ∈ outcomes) (houtcome : outcome ∈ outcomes)
    (hkind : store.kind = outcome.kind) : store = outcome := by
  have hnodup : (outcomes.map fun outcome => outcome.kind).Nodup := by
    rw [map_kind_of_readRows h]
    exact hkinds.sublist (List.filter_sublist.map _)
  exact List.inj_on_of_nodup_map hnodup hstore houtcome hkind

end Budget
end Portcall.Net
