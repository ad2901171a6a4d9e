import WazoWebhookd.Hook.CeleryTasks
import WazoWebhookd.Library.OrderedPages

/-! The pages of the logs of a subscription, each of which is a query of its own. -/
namespace WazoWebhookd
open OrderedPages

/-- The table of the logs, with its primary key. -/
structure LogTable where
  rows : List SubscriptionLog
  keys_nodup : (rows.map fun row => (row.uuid, row.attempts)).Nodup

theorem LogTable.nodup (table : LogTable) : table.rows.Nodup := table.keys_nodup.of_map _

/-- `sort_columns`. -/
inductive SortColumn
  | startedAt
  | endedAt
  | status
  | attempts
  | maxAttempts
  deriving DecidableEq

inductive Direction
  | asc
  | desc
  deriving DecidableEq

/-- The place of a status in the type of the column. -/
def Status.rank : Status → ℤ
  | .success => 0
  | .failure => 1
  | .error => 2

def SortColumn.value : SortColumn → SubscriptionLog → ℤ
  | .startedAt, row => row.startedAt
  | .endedAt, row => row.endedAt
  | .status, row => row.status.rank
  | .attempts, row => row.attempts
  | .maxAttempts, row => row.maxAttempts

/-- The first row may stand before the second by the `ORDER BY` clause. -/
def orderedBy (order : SortColumn) : Direction → SubscriptionLog → SubscriptionLog → Prop
  | .asc, a, b => order.value a ≤ order.value b
  | .desc, a, b => order.value b ≤ order.value a

instance (order : SortColumn) (direction : Direction) : DecidableRel (orderedBy order direction) :=
  fun a b => match direction with
    | .asc => inferInstanceAs (Decidable (order.value a ≤ order.value b))
    | .desc => inferInstanceAs (Decidable (order.value b ≤ order.value a))

instance (order : SortColumn) (direction : Direction) : Std.Total (orderedBy order direction) where
  total a b := by
    cases direction with
    | asc => exact le_total (order.value a) (order.value b)
    | desc => exact le_total (order.value b) (order.value a)

instance (order : SortColumn) (direction : Direction) :
    IsTrans SubscriptionLog (orderedBy order direction) where
  trans a b c hab hbc := by
    cases direction with
    | asc => exact le_trans hab hbc
    | desc => exact le_trans hbc hab

/-- How the database orders the rows of one query. -/
structure DatabaseOrder where
  arrange : SortColumn → Direction → List SubscriptionLog → List SubscriptionLog
  arranges : ∀ order direction rows,
    Arrangement (orderedBy order direction) rows (arrange order direction rows)

/-- The rows that the filters of `get_logs` leave. -/
def matchingLogs (table : LogTable) (subscriptionUuid : String) (fromDate : Option ℤ) :
    List SubscriptionLog :=
  let query := table.rows.filter fun row => row.subscriptionUuid = subscriptionUuid
  match fromDate with
  | some fromDate => query.filter fun row => fromDate ≤ row.startedAt
  | none => query

def getLogs (database : DatabaseOrder) (table : LogTable) (subscriptionUuid : String)
    (fromDate : Option ℤ) (limit offset : Option ℕ) (order : SortColumn)
    (direction : Direction) : List SubscriptionLog :=
  let query := database.arrange order direction (matchingLogs table subscriptionUuid fromDate)
  let query := match offset with
    | some offset => query.drop offset
    | none => query
  match limit with
  | some limit => query.take limit
  | none => query

/-- The pages together have every log once, however the database orders each of them. -/
def PagesComplete (table : LogTable) (subscriptionUuid : String) (fromDate : Option ℤ)
    (order : SortColumn) (direction : Direction) (size : ℕ) : Prop :=
  ∀ databases : ℕ → DatabaseOrder,
    ∀ n, (matchingLogs table subscriptionUuid fromDate).length ≤ n * size →
      ((List.range n).flatMap fun i => getLogs (databases i) table subscriptionUuid fromDate
        (some size) (some (i * size)) order direction).Perm
        (matchingLogs table subscriptionUuid fromDate)

section Spec
variable {table : LogTable} {subscriptionUuid : String} {fromDate : Option ℤ}
  {order : SortColumn} {direction : Direction} {size : ℕ}

theorem nodup_matchingLogs (table : LogTable) (subscriptionUuid : String)
    (fromDate : Option ℤ) : (matchingLogs table subscriptionUuid fromDate).Nodup := by
  unfold matchingLogs
  cases fromDate with
  | none => exact table.nodup.filter _
  | some date => exact (table.nodup.filter _).filter _

theorem flatMap_getLogs (databases : ℕ → DatabaseOrder) (n : ℕ) :
    ((List.range n).flatMap fun i => getLogs (databases i) table subscriptionUuid fromDate
      (some size) (some (i * size)) order direction) =
    pages size (fun i => (databases i).arrange order direction
      (matchingLogs table subscriptionUuid fromDate)) n := rfl

open Classical in
/-- A database that orders the rows of one query in that way. -/
noncomputable def DatabaseOrder.answering {order : SortColumn} {direction : Direction}
    {rows l : List SubscriptionLog} (h : Arrangement (orderedBy order direction) rows l) :
    DatabaseOrder where
  arrange order' direction' rows' :=
    if order' = order ∧ direction' = direction ∧ rows' = rows then l
    else rows'.insertionSort (orderedBy order' direction')
  arranges order' direction' rows' := by
    split_ifs with heq
    · obtain ⟨rfl, rfl, rfl⟩ := heq
      exact h
    · exact ⟨List.perm_insertionSort _ _, List.pairwise_insertionSort _ _⟩

theorem DatabaseOrder.arrange_answering {rows l : List SubscriptionLog}
    (h : Arrangement (orderedBy order direction) rows l) :
    (DatabaseOrder.answering h).arrange order direction rows = l := if_pos ⟨rfl, rfl, rfl⟩

theorem pagesComplete_iff_pages :
    PagesComplete table subscriptionUuid fromDate order direction size ↔
      ∀ answers : ℕ → List SubscriptionLog,
        (∀ i, Arrangement (orderedBy order direction)
          (matchingLogs table subscriptionUuid fromDate) (answers i)) →
        ∀ n, (matchingLogs table subscriptionUuid fromDate).length ≤ n * size →
          (pages size answers n).Perm (matchingLogs table subscriptionUuid fromDate) := by
  constructor
  · intro h answers hanswers n hn
    have hperm := h (fun i => .answering (hanswers i)) n hn
    rw [flatMap_getLogs] at hperm
    simpa only [DatabaseOrder.arrange_answering] using hperm
  · intro h databases n hn
    rw [flatMap_getLogs]
    exact h _ (fun i => (databases i).arranges _ _ _) n hn

/-- No log comes twice or never exactly when no logs with the same value of the column stand on
both sides of the end of a page. -/
theorem pagesComplete_iff (hsize : 1 ≤ size) :
    PagesComplete table subscriptionUuid fromDate order direction size ↔
      ∀ row ∈ matchingLogs table subscriptionUuid fromDate, ∀ i,
        ¬ Straddles (orderedBy order direction) (matchingLogs table subscriptionUuid fromDate)
          (i * size) row := by
  rw [pagesComplete_iff_pages]
  exact pages_perm_iff hsize (nodup_matchingLogs table subscriptionUuid fromDate)

end Spec

def successLog (uuid : String) (startedAt : ℕ) : SubscriptionLog where
  uuid := uuid
  subscriptionUuid := "s"
  status := .success
  startedAt := startedAt
  endedAt := startedAt + 1
  attempts := 1
  maxAttempts := 10
  event := .obj []
  detail := .obj []

def twoLogs : LogTable where
  rows := [successLog "a" 0, successLog "b" 5]
  keys_nodup := by simp [successLog]

theorem matchingLogs_twoLogs :
    matchingLogs twoLogs "s" none = [successLog "a" 0, successLog "b" 5] := by
  simp [matchingLogs, twoLogs, successLog]

theorem pagesComplete_startedAt : PagesComplete twoLogs "s" none .startedAt .desc 1 := by
  rw [pagesComplete_iff le_rfl, matchingLogs_twoLogs]
  intro row hrow i
  have hcounts : before (orderedBy .startedAt .desc)
      [successLog "a" 0, successLog "b" 5] row + 1 =
        upTo (orderedBy .startedAt .desc) [successLog "a" 0, successLog "b" 5] row := by
    simp only [List.mem_cons, List.not_mem_nil, or_false] at hrow
    rcases hrow with rfl | rfl <;> decide
  unfold Straddles
  omega

/-- Two tied logs, of which one may come on both pages. -/
theorem log_on_both_pages : ¬ PagesComplete twoLogs "s" none .status .asc 1 := by
  intro h
  have hlength : (matchingLogs twoLogs "s" none).length ≤ 2 * 1 := by
    rw [matchingLogs_twoLogs]
    decide
  have hties : Straddles (orderedBy .status .asc) (matchingLogs twoLogs "s" none) (1 * 1)
      (successLog "a" 0) := by
    rw [matchingLogs_twoLogs]
    decide
  obtain ⟨answers, hanswers, hnot⟩ :=
    exists_pages_not_perm (nodup_matchingLogs twoLogs "s" none) hties
  have hperm := pagesComplete_iff_pages.mp h answers hanswers 2 hlength
  exact hnot 2 hlength hperm

end WazoWebhookd
