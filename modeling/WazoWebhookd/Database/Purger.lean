import WazoWebhookd.Hook.CeleryTasks

/-! The purge of old logs: the clock that the task reads, the column that holds what it read, and
the clock of the purge. Instants are microseconds since the epoch. -/
namespace WazoWebhookd

/-- The time zone of a session of the database: what its clocks on the wall are ahead of UTC. -/
structure SessionZone where
  offset : ℤ

namespace SessionZone

/-- A timestamp without a time zone, stored in or compared with a column that has one. -/
def read (zone : SessionZone) (wall : ℤ) : ℤ := wall - zone.offset

def localtimestamp (zone : SessionZone) (now : ℤ) : ℤ := now + zone.offset

theorem read_localtimestamp (zone : SessionZone) (now : ℤ) :
    zone.read (zone.localtimestamp now) = now := add_sub_cancel_right now zone.offset

theorem read_sub (zone : SessionZone) (wall duration : ℤ) :
    zone.read (wall - duration) = zone.read wall - duration :=
  sub_right_comm wall duration zone.offset

end SessionZone

def microsecondsOfDays (days : ℤ) : ℤ := days * (24 * 60 * 60 * 1000000)

/-- A log as the database holds it: its timestamps are instants. -/
structure StoredLog where
  hooklog : SubscriptionLog
  startedAt : ℤ
  endedAt : ℤ

/-- The timestamps that the task gives are naive. -/
def SessionZone.store (zone : SessionZone) (hooklog : SubscriptionLog) : StoredLog where
  hooklog := hooklog
  startedAt := zone.read hooklog.startedAt
  endedAt := zone.read hooklog.endedAt

def purgeLimit (zone : SessionZone) (now daysToKeep : ℤ) : ℤ :=
  zone.read (zone.localtimestamp now - microsecondsOfDays daysToKeep)

def purge (zone : SessionZone) (now daysToKeep : ℤ) (rows : List StoredLog) : List StoredLog :=
  rows.filter fun row => ¬ row.startedAt < purgeLimit zone now daysToKeep

/-- One run of `hook_runner_task`. The clock of its attempt is that of UTC. -/
structure HookRun where
  config : HookConfig
  hookUuid : String
  subscription : SubscriptionDict
  event : Json
  retries : ℕ
  attempt : Attempt
  log : List SubscriptionLog

namespace HookRun

def written (run : HookRun) : SubscriptionLog :=
  (hookRunnerTask run.config run.hookUuid run.subscription run.event run.retries run.attempt
    run.log).submitted

/-- The run really started more than that many days ago. -/
def Old (run : HookRun) (now daysToKeep : ℤ) : Prop :=
  run.attempt.started < now - microsecondsOfDays daysToKeep

theorem submitted_submitHookLog (attempt : Attempt) (log : List SubscriptionLog)
    (hooklog : SubscriptionLog) (next : TaskEnd) :
    (submitHookLog attempt log hooklog next).submitted = hooklog := by
  unfold submitHookLog
  split <;> rfl

theorem startedAt_written (run : HookRun) : run.written.startedAt = run.attempt.started := by
  unfold written hookRunnerTask
  cases run.attempt.outcome <;> simp only [submitted_submitHookLog] <;> rfl

end HookRun

/-- The purge leaves the logs of the runs that are not old, and no others. -/
def PurgesExactly (zone : SessionZone) (now daysToKeep : ℤ) (runs : List HookRun) : Prop :=
  ∀ run ∈ runs, zone.store run.written ∈
    purge zone now daysToKeep (runs.map fun run => zone.store run.written) ↔
      ¬ run.Old now daysToKeep

/-- A run started between the limit and the limit as the clocks of the session tell it. -/
def Misdated (zone : SessionZone) (now daysToKeep : ℤ) (run : HookRun) : Prop :=
  let limit := now - microsecondsOfDays daysToKeep
  min limit (limit + zone.offset) ≤ run.attempt.started ∧
    run.attempt.started < max limit (limit + zone.offset)

section Spec
variable {zone : SessionZone} {now daysToKeep : ℤ} {run : HookRun}

theorem purgeLimit_eq (zone : SessionZone) (now daysToKeep : ℤ) :
    purgeLimit zone now daysToKeep = now - microsecondsOfDays daysToKeep := by
  rw [purgeLimit, zone.read_sub, zone.read_localtimestamp]

theorem startedAt_store (zone : SessionZone) (run : HookRun) :
    (zone.store run.written).startedAt = run.attempt.started - zone.offset := by
  have hstart := run.startedAt_written
  simp [SessionZone.store, SessionZone.read, hstart]

theorem mem_purge_iff {rows : List StoredLog} {row : StoredLog} :
    row ∈ purge zone now daysToKeep rows ↔
      row ∈ rows ∧ now - microsecondsOfDays daysToKeep ≤ row.startedAt := by
  simp [purge, purgeLimit_eq]

/-- A log stays when its start, by the clocks of the session, is not before the limit. -/
theorem store_mem_purge_iff {runs : List HookRun} (hrun : run ∈ runs) :
    zone.store run.written ∈
        purge zone now daysToKeep (runs.map fun run => zone.store run.written) ↔
      now - microsecondsOfDays daysToKeep + zone.offset ≤ run.attempt.started := by
  have hmem : zone.store run.written ∈ runs.map fun run => zone.store run.written :=
    List.mem_map_of_mem hrun
  rw [mem_purge_iff, startedAt_store]
  constructor
  · rintro ⟨-, hle⟩
    omega
  · intro hle
    exact ⟨hmem, by omega⟩

/-- The purge is exact when no run started in the time by which the log is off. -/
theorem purgesExactly_iff (zone : SessionZone) (now daysToKeep : ℤ) (runs : List HookRun) :
    PurgesExactly zone now daysToKeep runs ↔
      ∀ run ∈ runs, ¬ Misdated zone now daysToKeep run := by
  refine forall₂_congr fun run hrun => ?_
  rw [store_mem_purge_iff hrun]
  unfold HookRun.Old Misdated
  dsimp only
  omega

end Spec

def runStartedAt (started : ℕ) : HookRun where
  config := ⟨10, 2⟩
  hookUuid := "h"
  subscription := {
    uuid := "s"
    name := "hook"
    service := "http"
    events := []
    eventsUserUuid := none
    eventsWazoUuid := none
    ownerTenantUuid := "t"
    ownerUserUuid := none
    config := ∅
    metadata := ∅ }
  event := .obj []
  retries := 0
  attempt := ⟨.success (.obj []), started, started, false⟩
  log := []

/-- In a session two hours ahead of UTC, a log is deleted an hour too early. -/
theorem young_log_purged :
    let zone : SessionZone := ⟨2 * 3600000000⟩
    let now : ℤ := 10 * 86400000000
    let run := runStartedAt (8 * 86400000000 + 3600000000)
    ¬ run.Old now 2 ∧ purge zone now 2 [zone.store run.written] = [] ∧
      ¬ PurgesExactly zone now 2 [run] := by
  intro zone now run
  have hstarted : run.attempt.started = 8 * 86400000000 + 3600000000 := rfl
  have hyoung : ¬ run.Old now 2 := by
    unfold HookRun.Old microsecondsOfDays
    rw [hstarted]
    omega
  have hpurged : purge zone now 2 [zone.store run.written] = [] := by
    rw [List.eq_nil_iff_forall_not_mem]
    intro row hrow
    obtain ⟨hmem, hle⟩ := mem_purge_iff.mp hrow
    obtain rfl := List.mem_singleton.mp hmem
    have hoffset : zone.offset = 2 * 3600000000 := rfl
    rw [startedAt_store, hstarted, hoffset] at hle
    unfold microsecondsOfDays at hle
    omega
  refine ⟨hyoung, hpurged, fun h => ?_⟩
  have hkept := (h run List.mem_cons_self).mpr hyoung
  simp only [List.map_cons, List.map_nil, hpurged] at hkept
  exact List.not_mem_nil hkept

end WazoWebhookd
