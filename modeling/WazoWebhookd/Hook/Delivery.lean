import Mathlib.Data.ENat.Lattice
import WazoWebhookd.Hook.CeleryTasks

/-! One delivery of a hook, over all its attempts: how many there are, and the log rows they
leave. -/
namespace WazoWebhookd

/-- The position, from 1, of the first outcome that is not a retry. -/
noncomputable def firstOther (world : ℕ → Attempt) : ℕ∞ :=
  ⨅ i : ℕ, ⨅ _ : ¬ (world i).outcome.IsRetry, ((i + 1 : ℕ) : ℕ∞)

def HookOutcome.lastStatus : HookOutcome → Status
  | .success _ => .success
  | _ => .error

theorem firstOther_eq {world : ℕ → Attempt} {n : ℕ} (hn : ¬ (world n).outcome.IsRetry)
    (hb : ∀ i < n, (world i).outcome.IsRetry) : firstOther world = (n + 1 : ℕ) := by
  apply le_antisymm
  · exact iInf₂_le n hn
  · refine le_iInf₂ fun i hi => ?_
    have hle : n ≤ i := not_lt.mp fun h => hi (hb i h)
    exact_mod_cast Nat.succ_le_succ hle

theorem le_firstOther {world : ℕ → Attempt} {n : ℕ}
    (hb : ∀ i < n, (world i).outcome.IsRetry) : (n : ℕ∞) ≤ firstOther world := by
  refine le_iInf₂ fun i hi => ?_
  have hle : n ≤ i := not_lt.mp fun h => hi (hb i h)
  exact_mod_cast hle.trans (Nat.le_succ i)

section Delivery
variable (config : HookConfig) {hookUuid : String} (subscription : SubscriptionDict)
  (event : Json)

/-- The table has no row of this delivery beyond the attempt `n`. -/
def RowsUpTo (hookUuid : String) (n : ℕ) (log : List SubscriptionLog) : Prop :=
  ∀ row ∈ log, row.uuid = hookUuid → row.attempts ≤ n

theorem submitHookLog_spec {log : List SubscriptionLog} {retries : ℕ}
    (hr : RowsUpTo hookUuid retries log) (attempt : Attempt) (status : Status) (detail : Json)
    (next : TaskEnd) :
    let hooklog := hookLog config hookUuid subscription event retries attempt status detail
    ∃ log', submitHookLog attempt log hooklog next = ⟨hooklog, log', next⟩ ∧
      RowsUpTo hookUuid (retries + 1) log' := by
  intro hooklog
  have hnew : ¬ ∃ row ∈ log, row.uuid = hooklog.uuid ∧ row.attempts = hooklog.attempts := by
    rintro ⟨row, hrow, hru, hra⟩
    have hle := hr row hrow hru
    have heq : row.attempts = retries + 1 := hra
    omega
  have hold : RowsUpTo hookUuid (retries + 1) log := fun row hrow hru =>
    (hr row hrow hru).trans (Nat.le_succ retries)
  unfold submitHookLog createHookLog
  rw [if_neg hnew]
  cases attempt.subscriptionDeleted with
  | true => exact ⟨log, rfl, hold⟩
  | false =>
    refine ⟨log ++ [hooklog], rfl, ?_⟩
    intro row hrow hru
    rcases List.mem_append.mp hrow with hin | hlast
    · exact hold row hin hru
    · rw [List.mem_singleton.mp hlast]
      exact le_refl _

/-- The task goes on exactly after a retry that is not the last allowed attempt. -/
def GoesOn (config : HookConfig) (retries : ℕ) (outcome : HookOutcome) : Prop :=
  outcome.IsRetry ∧ (retries : ℤ) + 1 < config.hookMaxAttempts

/-- The parts of a row that the attempt number and the outcome decide. -/
def SubscriptionLog.summary (row : SubscriptionLog) : String × ℕ × Status :=
  (row.uuid, row.attempts, row.status)

theorem hookRunnerTask_goesOn {log : List SubscriptionLog} {retries : ℕ} {attempt : Attempt}
    (hr : RowsUpTo hookUuid retries log) (hg : GoesOn config retries attempt.outcome) :
    ∃ hooklog log' countdown,
      hookRunnerTask config hookUuid subscription event retries attempt log =
        ⟨hooklog, log', .retry countdown⟩ ∧
      hooklog.summary = (hookUuid, retries + 1, .failure) ∧
      RowsUpTo hookUuid (retries + 1) log' := by
  obtain ⟨hretry, hlt⟩ := hg
  have hnot : ¬ (retries : ℤ) + 1 ≥ config.hookMaxAttempts := not_le.mpr hlt
  -- celery accepts the retry: its bound is the same one.
  have hroom : ¬ (retries : ℤ) + 1 > config.hookMaxAttempts - 1 := by omega
  unfold hookRunnerTask
  cases ho : attempt.outcome with
  | hookRetry detail =>
    dsimp only
    rw [if_neg hnot, if_neg hnot, taskRetry, if_neg hroom]
    obtain ⟨log', hsub, hrows⟩ :=
      submitHookLog_spec config subscription event hr attempt .failure detail _
    exact ⟨_, log', _, hsub, rfl, hrows⟩
  | success detail =>
    rw [ho] at hretry
    cases hretry
  | hookExpectedError detail =>
    rw [ho] at hretry
    cases hretry
  | exception message =>
    rw [ho] at hretry
    cases hretry

theorem hookRunnerTask_last {log : List SubscriptionLog} {retries : ℕ} {attempt : Attempt}
    (hr : RowsUpTo hookUuid retries log) (hg : ¬ GoesOn config retries attempt.outcome) :
    ∃ hooklog log',
      hookRunnerTask config hookUuid subscription event retries attempt log =
        ⟨hooklog, log', .returned⟩ ∧
      hooklog.summary = (hookUuid, retries + 1, attempt.outcome.lastStatus) := by
  have hsubmit : ∀ (outcome : HookOutcome) (detail : Json), ∃ hooklog log',
      submitHookLog attempt log
        (hookLog config hookUuid subscription event retries attempt outcome.lastStatus detail)
          .returned = ⟨hooklog, log', .returned⟩ ∧
        hooklog.summary = (hookUuid, retries + 1, outcome.lastStatus) := by
    intro outcome detail
    obtain ⟨log', hsub, -⟩ :=
      submitHookLog_spec config subscription event hr attempt outcome.lastStatus detail .returned
    exact ⟨_, log', hsub, rfl⟩
  unfold hookRunnerTask
  cases ho : attempt.outcome with
  | hookRetry detail =>
    have hge : (retries : ℤ) + 1 ≥ config.hookMaxAttempts := by
      by_contra hlt
      rw [ho] at hg
      exact hg ⟨trivial, not_le.mp hlt⟩
    dsimp only
    rw [if_pos hge, if_pos hge]
    exact hsubmit (.hookRetry detail) detail
  | success detail => exact hsubmit (.success detail) _
  | hookExpectedError detail => exact hsubmit (.hookExpectedError detail) _
  | exception message => exact hsubmit (.exception message) _

theorem deliver_of_retry {world : ℕ → Attempt} {retries : ℕ} {log log' : List SubscriptionLog}
    {hooklog : SubscriptionLog} {countdown : ℤ}
    (h : hookRunnerTask config hookUuid subscription event retries (world retries) log =
      ⟨hooklog, log', .retry countdown⟩) :
    let after := deliver config hookUuid subscription event world (retries + 1) log'
    deliver config hookUuid subscription event world retries log =
      ⟨after.attempts + 1, hooklog :: after.submitted, after.log, after.ending⟩ := by
  intro after
  rw [deliver]
  dsimp only
  split
  · rw [h]
  · next hne => exact absurd (congrArg TaskRun.ending h) (hne countdown)

theorem deliver_of_returned {world : ℕ → Attempt} {retries : ℕ}
    {log log' : List SubscriptionLog} {hooklog : SubscriptionLog}
    (h : hookRunnerTask config hookUuid subscription event retries (world retries) log =
      ⟨hooklog, log', .returned⟩) :
    deliver config hookUuid subscription event world retries log =
      ⟨1, [hooklog], log', .returned⟩ := by
  rw [deliver]
  dsimp only
  split
  · next hr =>
    rw [h] at hr
    cases hr
  · rw [h]

/-- From any attempt on: how long the delivery still runs, and the rows it submits. -/
theorem deliver_spec (world : ℕ → Attempt) (retries : ℕ) {log : List SubscriptionLog}
    (hr : RowsUpTo hookUuid retries log) :
    let d := deliver config hookUuid subscription event world retries log
    d.ending = .returned ∧
    (∃ n, d.attempts = n + 1 ∧ ¬ GoesOn config (retries + n) (world (retries + n)).outcome ∧
      ∀ i < n, GoesOn config (retries + i) (world (retries + i)).outcome) ∧
    d.submitted.map SubscriptionLog.summary = (List.range d.attempts).map fun i =>
      (hookUuid, retries + i + 1,
        if i + 1 < d.attempts then .failure else (world (retries + i)).outcome.lastStatus) := by
  induction hm : (config.hookMaxAttempts - retries).toNat using Nat.strong_induction_on
    generalizing retries log with
  | _ m ih =>
    by_cases hg : GoesOn config retries (world retries).outcome
    · obtain ⟨hooklog, log', countdown, hrun, hsum, hrows⟩ :=
        hookRunnerTask_goesOn config subscription event hr hg
      have hlt := hg.2
      obtain ⟨hend, ⟨n, hn, hstop, hgo⟩, hsub⟩ := ih _ (by omega) (retries + 1) hrows rfl
      have hshift : ∀ i, retries + 1 + i = retries + (i + 1) := fun i => by omega
      rw [deliver_of_retry config subscription event hrun]
      refine ⟨hend, ⟨n + 1, congrArg (· + 1) hn, ?_, ?_⟩, ?_⟩
      · rw [← hshift]
        exact hstop
      · intro i hi
        cases i with
        | zero => exact hg
        | succ i =>
          rw [← hshift]
          exact hgo i (by omega)
      · dsimp only
        rw [List.map_cons, hsub, hsum, hn, List.range_succ_eq_map (n := n + 1), List.map_cons,
          List.map_map]
        simp [hshift]
    · obtain ⟨hooklog, log', hrun, hsum⟩ :=
        hookRunnerTask_last config subscription event hr hg
      rw [deliver_of_returned config subscription event hrun]
      refine ⟨rfl, ⟨0, rfl, hg, fun i hi => absurd hi (Nat.not_lt_zero i)⟩, ?_⟩
      simp [hsum]

/-- A delivery makes as many attempts as the smaller of the allowed number and the position
of the first outcome that is no retry, submits one row for each with consecutive numbers, and
always returns: neither the primary key nor celery ever refuses. -/
theorem delivery_attempts (world : ℕ → Attempt) (log : List SubscriptionLog)
    (hfresh : ∀ row ∈ log, row.uuid ≠ hookUuid) :
    let d := deliver config hookUuid subscription event world 0 log
    (d.attempts : ℕ∞) = min ((max 1 config.hookMaxAttempts).toNat : ℕ∞) (firstOther world) ∧
    d.submitted.map SubscriptionLog.summary = (List.range d.attempts).map (fun i =>
      (hookUuid, i + 1,
        if i + 1 < d.attempts then .failure else (world i).outcome.lastStatus)) ∧
    d.ending = .returned := by
  intro d
  have hrows : RowsUpTo hookUuid 0 log := fun row hrow hu => absurd hu (hfresh row hrow)
  obtain ⟨hend, ⟨n, hn, hstop, hgo⟩, hsub⟩ := deliver_spec config subscription event world 0 hrows
  simp only [Nat.zero_add] at hstop hgo hsub
  refine ⟨?_, hsub, hend⟩
  have hbefore : ∀ i < n, (world i).outcome.IsRetry := fun i hi => (hgo i hi).1
  have hroom : n = 0 ∨ (n : ℤ) < config.hookMaxAttempts := by
    cases n with
    | zero => exact Or.inl rfl
    | succ n => exact Or.inr (by have := (hgo n (Nat.lt_succ_self n)).2; push_cast; omega)
  have hle : n + 1 ≤ (max 1 config.hookMaxAttempts).toNat := by omega
  rw [show d.attempts = n + 1 from hn]
  by_cases hretry : (world n).outcome.IsRetry
  · have hmax : ¬ (n : ℤ) + 1 < config.hookMaxAttempts := fun h => hstop ⟨hretry, h⟩
    have heq : (max 1 config.hookMaxAttempts).toNat = n + 1 := by omega
    have hfirst : ((n + 1 : ℕ) : ℕ∞) ≤ firstOther world := by
      apply le_firstOther
      intro i hi
      rcases Nat.lt_succ_iff_lt_or_eq.mp hi with hlt | rfl
      · exact hbefore i hlt
      · exact hretry
    rw [heq, min_eq_left hfirst]
  · rw [firstOther_eq hretry hbefore, min_eq_right (by exact_mod_cast hle)]

end Delivery

def missedCallHook : SubscriptionDict where
  uuid := "8b6d3f5e-0d3f-4f0e-9a53-3b8b1d3f5e01"
  name := "missed calls"
  service := "http"
  events := ["user_missed_call"]
  eventsUserUuid := none
  eventsWazoUuid := none
  config := ∅
  ownerUserUuid := none
  ownerTenantUuid := "6c6d3b6c-58cb-4f5c-9a0e-0f1f0c1f7a03"
  metadata := ∅

/-- A hook that times out twice and then succeeds. -/
def flakyAttempt (i : ℕ) : Attempt where
  outcome := if i < 2 then .hookRetry (.obj [("error", .str "timed out")]) else .success .null
  started := i
  ended := i + 1
  subscriptionDeleted := false

theorem delivery_attempts_flaky :
    let d := deliver ⟨10, 2⟩ "51d6b9a0-3a4e-4b5f-8f43-8a0c39b0c104" missedCallHook (.obj [])
      flakyAttempt 0 []
    (d.attempts : ℕ∞) = min ((max 1 (10 : ℤ)).toNat : ℕ∞) (firstOther flakyAttempt) ∧
    d.submitted.map SubscriptionLog.summary = (List.range d.attempts).map (fun i =>
      ("51d6b9a0-3a4e-4b5f-8f43-8a0c39b0c104", i + 1,
        if i + 1 < d.attempts then .failure else (flakyAttempt i).outcome.lastStatus)) ∧
    d.ending = .returned := by
  have hfresh : ∀ row ∈ ([] : List SubscriptionLog),
      row.uuid ≠ "51d6b9a0-3a4e-4b5f-8f43-8a0c39b0c104" := by
    intro row hrow
    cases hrow
  exact delivery_attempts ⟨10, 2⟩ missedCallHook (.obj []) flakyAttempt [] hfresh

end WazoWebhookd
