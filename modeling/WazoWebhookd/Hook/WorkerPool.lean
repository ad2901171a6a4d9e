import WazoWebhookd.Database.Purger
import WazoWebhookd.Hook.LogFailures
import WazoWebhookd.Library.JobPool

/-! The celery workers over the queue of the hooks, while subscriptions come and go and the old
logs are purged: the attempts of all hooks together, and what they leave in the log table. -/
namespace WazoWebhookd
open JobPool

/-- A message of the task queue: the arguments of `hook_runner_task`, and the number of its
retries. -/
structure HookTask where
  hookUuid : String
  entryPointName : String
  config : HookConfig
  subscription : SubscriptionDict
  event : Json
  retries : ℕ

/-- The keys of the stored subscriptions, the log table, the task queue, and every uuid of a
subscription or of a hook that has been in use. -/
structure WorkerPool where
  subscriptions : Finset String
  log : List SubscriptionLog
  tasks : List HookTask
  issued : Finset String

inductive PoolStep
  | subscribe (uuid : String)
  | unsubscribe (uuid : String)
  | enqueue (task : HookTask)
  | work (i : ℕ)
  | purge (zone : SessionZone) (now daysToKeep : ℤ)

section Tasks
variable (world : String → ℕ → LoggedAttempt)

namespace HookTask

def run (task : HookTask) (deleted : Bool) (log : List SubscriptionLog) : LoggedRun :=
  loggedRun task.config task.hookUuid task.subscription task.event task.retries
    { world task.hookUuid task.retries with subscriptionDeleted := deleted } log

def requeued (task : HookTask) : Except DatabaseError TaskEnd → Option HookTask
  | .ok (.retry _) => some { task with retries := task.retries + 1 }
  | _ => none

def row (task : HookTask) : SubscriptionLog :=
  submittedLog task.config task.hookUuid task.subscription task.event task.retries
    (world task.hookUuid task.retries).toAttempt

/-- The row that the attempt of a task stores while its subscription stays. -/
def stored (task : HookTask) : Option SubscriptionLog :=
  if (world task.hookUuid task.retries).databaseError = none then some (task.row world) else none

def ending (task : HookTask) : Except DatabaseError TaskEnd :=
  hookRunnerEnding task.config task.retries (world task.hookUuid task.retries).outcome
    (world task.hookUuid task.retries).commitAlone

/-- The attempts that a task has before it when it is alone, by the retries before each. -/
def attemptsAlone (task : HookTask) : List ℕ :=
  attempts task.config (fun i => (world task.hookUuid i).outcome)
    (fun i => (world task.hookUuid i).commitAlone) task.retries

def alone (task : HookTask) : List SubscriptionLog :=
  (task.attemptsAlone world).filterMap fun i => { task with retries := i }.stored world

end HookTask

namespace WorkerPool

def init : WorkerPool := ⟨∅, [], [], ∅⟩

/-- The foreign key of the logs cascades. A worker takes any task of the queue. -/
def step (σ : WorkerPool) : PoolStep → WorkerPool
  | .subscribe uuid =>
    { σ with subscriptions := insert uuid σ.subscriptions, issued := insert uuid σ.issued }
  | .unsubscribe uuid =>
    { σ with
      subscriptions := σ.subscriptions.erase uuid
      log := σ.log.filter fun row => row.subscriptionUuid ≠ uuid }
  | .enqueue task =>
    { σ with
      tasks := σ.tasks ++ [task]
      issued := insert task.hookUuid (insert task.subscription.uuid σ.issued) }
  | .work i =>
    match σ.tasks[i]? with
    | none => σ
    | some task =>
      let run := task.run world (decide (task.subscription.uuid ∉ σ.subscriptions)) σ.log
      { σ with
        log := run.log
        tasks := σ.tasks.eraseIdx i ++ (task.requeued run.ending).toList }
  | .purge zone now daysToKeep =>
    { σ with log := σ.log.filter fun row =>
        ¬ (zone.store row).startedAt < purgeLimit zone now daysToKeep }

/-- A generated uuid is new, and a hook starts without retries. -/
def Valid (σ : WorkerPool) : PoolStep → Prop
  | .subscribe uuid => uuid ∉ σ.issued
  | .enqueue task => task.hookUuid ∉ σ.issued ∧ task.retries = 0
  | _ => True

/-- The attempt that a step makes, by its hook and its number. A worker that finds no task makes
none. -/
def attempt? (σ : WorkerPool) : PoolStep → Option (String × ℕ)
  | .work i => (σ.tasks[i]?).map fun task => (task.hookUuid, task.retries + 1)
  | _ => none

def attempts (σ : WorkerPool) (ls : List PoolStep) : List (String × ℕ) :=
  Run.expansion (step world) (fun σ l => (σ.attempt? l).toList) σ ls

end WorkerPool

namespace HookTask
variable {world} {task task' : HookTask} {log : List SubscriptionLog}

theorem stored_eq_some {row : SubscriptionLog} (h : task.stored world = some row) :
    (world task.hookUuid task.retries).databaseError = none ∧ row = task.row world := by
  unfold stored at h
  split_ifs at h with hnone
  exact ⟨hnone, (Option.some.inj h).symm⟩

variable (world) in
theorem row_key (task : HookTask) :
    (task.row world).uuid = task.hookUuid ∧ (task.row world).attempts = task.retries + 1 ∧
      (task.row world).subscriptionUuid = task.subscription.uuid ∧
      (task.row world).event = task.event := by
  unfold row submittedLog hookRunnerTask
  cases (world task.hookUuid task.retries).outcome <;>
    simp only [submitHookLog_submitted] <;> exact ⟨rfl, rfl, rfl, rfl⟩

/-- Where no row has the key of the attempt, the commit of its row violates no more than the
foreign key, which makes no difference to how it ends. -/
theorem run_eq (hr : RowsUpTo task.hookUuid task.retries log) (deleted : Bool) :
    task.run world deleted log =
      ⟨task.row world, if deleted then log else log ++ (task.stored world).toList,
        task.ending world⟩ := by
  obtain ⟨huuid, hattempts, -, -⟩ := task.row_key world
  have hnew : ¬ ∃ old ∈ log, old.uuid = (task.row world).uuid ∧
      old.attempts = (task.row world).attempts := by
    rintro ⟨old, hold, hou, hoa⟩
    have hle := hr old hold (hou.trans huuid)
    omega
  have hsubmitted : submittedLog task.config task.hookUuid task.subscription task.event
      task.retries { (world task.hookUuid task.retries).toAttempt with
        subscriptionDeleted := deleted } = task.row world :=
    submittedLog_deleted ..
  unfold run stored ending LoggedAttempt.commitAlone
  cases hdatabase : (world task.hookUuid task.retries).databaseError with
  | some text =>
    refine (loggedRun_of_error hsubmitted (e := .other text) ?_).trans ?_
    · simp only [LoggedAttempt.commit, hdatabase]
    · cases deleted <;> simp
  | none =>
    have hnone : { world task.hookUuid task.retries with
        subscriptionDeleted := deleted : LoggedAttempt }.databaseError = none := hdatabase
    have hcommit := LoggedAttempt.commit_of_none hnone log (task.row world)
    cases deleted with
    | false =>
      have hinserted : commitOf false log (task.row world) = .ok () := by
        rw [commitOf, if_neg hnew, if_neg Bool.false_ne_true]
      exact (loggedRun_of_ok hsubmitted (hcommit.trans hinserted)).trans rfl
    | true =>
      have hforeign : commitOf true log (task.row world) = .error
          (.integrityError "insert or update violates foreign key constraint") := by
        rw [commitOf, if_neg hnew, if_pos rfl]
      refine (loggedRun_of_error hsubmitted (hcommit.trans hforeign)).trans ?_
      exact congrArg (LoggedRun.mk _ _) (hookRunnerEnding_congr _ _ _ (by decide))

variable (world) in
theorem requeued_ending_cases (task : HookTask) :
    (GoesOn task.config task.retries (world task.hookUuid task.retries).outcome ∧
      (world task.hookUuid task.retries).databaseError = none ∧
      task.requeued (task.ending world) = some { task with retries := task.retries + 1 }) ∨
    (¬ (GoesOn task.config task.retries (world task.hookUuid task.retries).outcome ∧
        (world task.hookUuid task.retries).databaseError = none) ∧
      task.requeued (task.ending world) = none) := by
  rw [← LoggedAttempt.inserts_commitAlone_iff]
  rcases hookRunnerEnding_cases task.config task.retries
    (world task.hookUuid task.retries).outcome (world task.hookUuid task.retries).commitAlone with
    ⟨hgoes, hinserts, countdown, hend⟩ | ⟨hnot, hend⟩
  · refine .inl ⟨hgoes, hinserts, ?_⟩
    rw [ending, hend]
    rfl
  · refine .inr ⟨hnot, ?_⟩
    unfold requeued ending
    split
    · next countdown heq => exact absurd heq (hend countdown)
    · rfl

theorem ending_ne_integrityError (task : HookTask) (text : String) :
    task.ending world ≠ .error (.integrityError text) := by
  unfold ending LoggedAttempt.commitAlone hookRunnerEnding
  cases (world task.hookUuid task.retries).databaseError <;>
    cases (world task.hookUuid task.retries).outcome <;> exact nofun

theorem requeued_eq_some (h : task.requeued (task.ending world) = some task') :
    (task.retries : ℤ) + 1 < task.config.hookMaxAttempts ∧
      task' = { task with retries := task.retries + 1 } := by
  rcases task.requeued_ending_cases world with ⟨hgoes, -, hnext⟩ | ⟨-, hnone⟩
  · exact ⟨hgoes.2, Option.some.inj (h.symm.trans hnext)⟩
  · rw [hnone] at h
    cases h

end HookTask

/-- The attempts of the tasks, said without the shared table: the task attempted, and the one that
is queued again, which has less attempts left. -/
def hookAttempts : Attempts HookTask HookTask where
  run task := (task, task.requeued (task.ending world))
  size task := (task.config.hookMaxAttempts - task.retries).toNat
  size_lt {task task'} h := by
    obtain ⟨hroom, rfl⟩ := HookTask.requeued_eq_some h
    dsimp only
    omega

namespace HookTask
variable {world}

theorem attemptsAlone_of_next {task : HookTask}
    (hgoes : GoesOn task.config task.retries (world task.hookUuid task.retries).outcome)
    (hnone : (world task.hookUuid task.retries).databaseError = none) :
    task.attemptsAlone world =
      task.retries :: { task with retries := task.retries + 1 }.attemptsAlone world :=
  attempts_of_goesOn task.config hgoes (LoggedAttempt.inserts_commitAlone_iff.mpr hnone)

theorem attemptsAlone_of_last {task : HookTask}
    (hnot : ¬ (GoesOn task.config task.retries (world task.hookUuid task.retries).outcome ∧
      (world task.hookUuid task.retries).databaseError = none)) :
    task.attemptsAlone world = [task.retries] := by
  rw [← LoggedAttempt.inserts_commitAlone_iff] at hnot
  exact attempts_of_not task.config hnot

variable (world) in
/-- A task that is alone makes the attempts of its delivery. -/
theorem solo_eq (task : HookTask) : (hookAttempts world).solo task =
    (task.attemptsAlone world).map fun i => { task with retries := i } := by
  induction hm : (hookAttempts world).size task using Nat.strong_induction_on
    generalizing task with
  | _ m ih =>
    rw [(hookAttempts world).solo_eq]
    change task :: ((task.requeued (task.ending world)).map (hookAttempts world).solo).getD [] = _
    rcases task.requeued_ending_cases world with ⟨hgoes, hnone, hnext⟩ | ⟨hnot, hnext⟩
    · have hrest := ih _ (hm ▸ (hookAttempts world).size_lt hnext)
        { task with retries := task.retries + 1 } rfl
      rw [hnext, Option.map_some, Option.getD_some, hrest, attemptsAlone_of_next hgoes hnone,
        List.map_cons]
    · rw [hnext, Option.map_none, Option.getD_none, attemptsAlone_of_last hnot,
        List.map_singleton]

variable (world) in
theorem filterMap_solo (task : HookTask) :
    ((hookAttempts world).solo task).filterMap (stored world) = task.alone world := by
  rw [task.solo_eq world, List.filterMap_map]
  rfl

variable (world) in
/-- What the attempts of a hook meet while its subscription stays. -/
def stayed (hookUuid : String) (retries : ℕ) : Attempt :=
  { (world hookUuid retries).toAttempt with subscriptionDeleted := false }

/-- Where the database refuses nothing else, the rows of a task that is alone are those of its
delivery. -/
theorem alone_eq_deliver (task : HookTask) (log : List SubscriptionLog)
    (hnone : ∀ i, (world task.hookUuid i).databaseError = none)
    (hr : RowsUpTo task.hookUuid task.retries log) :
    task.alone world = (deliver task.config task.hookUuid task.subscription task.event
      (stayed world task.hookUuid) task.retries log).submitted := by
  induction hm : (hookAttempts world).size task using Nat.strong_induction_on
    generalizing task log with
  | _ m ih =>
    have hstored : ∀ row, task.row world = row → task.stored world = some row :=
      fun row hrow => hrow ▸ if_pos (hnone task.retries)
    have hundisturbed : ({ world task.hookUuid task.retries with
        subscriptionDeleted := false } : LoggedAttempt).databaseError = none := hnone task.retries
    obtain ⟨hsubmitted, -, -⟩ := loggedRun_eq task.config task.hookUuid task.subscription
      task.event task.retries hundisturbed log
    change (task.run world false log).submitted = _ at hsubmitted
    rw [run_eq hr false] at hsubmitted
    rcases task.requeued_ending_cases world with ⟨hgoes, -, hnext⟩ | ⟨hnot, -⟩
    · have hstay : GoesOn task.config task.retries
          (stayed world task.hookUuid task.retries).outcome := hgoes
      obtain ⟨row, log', countdown, hrun, -, hrows⟩ :=
        hookRunnerTask_goesOn task.config task.subscription task.event hr hstay
      have hrow : task.row world = row := hsubmitted.trans (congrArg TaskRun.submitted hrun)
      have hrest := ih _ (hm ▸ (hookAttempts world).size_lt hnext)
        { task with retries := task.retries + 1 } log' hnone hrows rfl
      rw [deliver_of_retry task.config task.subscription task.event hrun, alone,
        attemptsAlone_of_next hgoes (hnone task.retries)]
      refine (List.filterMap_cons_some ?_).trans (congrArg (List.cons row) hrest)
      exact hstored row hrow
    · have hlast : ¬ GoesOn task.config task.retries
          (stayed world task.hookUuid task.retries).outcome :=
        fun hgoes => hnot ⟨hgoes, hnone task.retries⟩
      obtain ⟨row, log', hrun, -⟩ :=
        hookRunnerTask_last task.config task.subscription task.event hr hlast
      have hrow : task.row world = row := hsubmitted.trans (congrArg TaskRun.submitted hrun)
      rw [deliver_of_returned task.config task.subscription task.event hrun, alone,
        attemptsAlone_of_last hnot]
      refine List.filterMap_cons_some ?_
      exact hstored row hrow

end HookTask

end Tasks

abbrev HookPool := Pool String HookTask HookTask

/-- The rows of the attempts made, of the subscriptions that are stored. -/
def WorkerPool.visible (world : String → ℕ → LoggedAttempt) (σ : WorkerPool) (p : HookPool) :
    List SubscriptionLog :=
  (p.trail.filterMap fun e => e.2.stored world).filter fun row =>
    row.subscriptionUuid ∈ σ.subscriptions

def trailKeys (p : HookPool) : List (String × ℕ) :=
  p.trail.map fun e => (e.1, e.2.retries + 1)

/-- The workers seen as a pool of tasks that share no table: `jobs` are the tasks enqueued so
far, and `unpurged` tells that no log was purged. -/
structure Shadows (world : String → ℕ → LoggedAttempt) (unpurged : Prop) (σ : WorkerPool)
    (p : HookPool) (jobs : String → Option HookTask) : Prop where
  shares : p.Shares (hookAttempts world) jobs
  tasks_nodup : (σ.tasks.map (·.hookUuid)).Nodup
  queue : ∀ u t, p.queue u = some t ↔ t ∈ σ.tasks ∧ t.hookUuid = u
  name : ∀ u t, jobs u = some t → t.hookUuid = u
  job : ∀ u t, jobs u = some t → u ∈ σ.issued ∧ t.subscription.uuid ∈ σ.issued
  origin : ∀ t ∈ σ.tasks, ∃ job, jobs t.hookUuid = some job ∧ t = { job with retries := t.retries }
  trail : ∀ e ∈ p.trail, ∃ job, jobs e.1 = some job ∧ e.2 = { job with retries := e.2.retries }
  rows : ∀ t ∈ σ.tasks, ∀ e ∈ p.trail, e.1 = t.hookUuid → e.2.retries < t.retries
  keys : (trailKeys p).Nodup
  log : σ.log.Sublist (σ.visible world p)
  log_eq : unpurged → σ.log = σ.visible world p

section Shadows
variable {world : String → ℕ → LoggedAttempt} {unpurged : Prop} {σ : WorkerPool} {p : HookPool}
  {jobs : String → Option HookTask}

theorem shadows_empty (subscriptions issued : Finset String) :
    Shadows world unpurged ⟨subscriptions, [], [], issued⟩ .init fun _ => none where
  shares := Pool.shares_init
  tasks_nodup := List.nodup_nil
  queue u t := by
    constructor
    · intro h
      cases h
    · rintro ⟨h, -⟩
      cases h
  name u t h := by cases h
  job u t h := by cases h
  origin t h := by cases h
  trail e h := by cases h
  rows t h := by cases h
  keys := List.nodup_nil
  log := List.Sublist.refl _
  log_eq _ := rfl

theorem Shadows.hookUuid_trail (h : Shadows world unpurged σ p jobs) {e : String × HookTask}
    (he : e ∈ p.trail) : e.2.hookUuid = e.1 := by
  obtain ⟨job, hjob, heq⟩ := h.trail e he
  rw [heq]
  exact h.name _ job hjob

theorem Shadows.mem_trail (h : Shadows world unpurged σ p jobs) {row : SubscriptionLog}
    (hrow : row ∈ σ.log) : (∃ t, (row.uuid, t) ∈ p.trail ∧ t.stored world = some row) ∧
      row.subscriptionUuid ∈ σ.subscriptions := by
  obtain ⟨hmem, hsubscribed⟩ := List.mem_filter.mp (h.log.subset hrow)
  obtain ⟨e, he, hstored⟩ := List.mem_filterMap.mp hmem
  obtain ⟨-, heq⟩ := HookTask.stored_eq_some hstored
  have huuid : row.uuid = e.1 := by
    rw [heq, (e.2.row_key world).1, h.hookUuid_trail he]
  refine ⟨⟨e.2, ?_, hstored⟩, of_decide_eq_true hsubscribed⟩
  rw [huuid]
  exact he

/-- The table has no row that an attempt of a queued task could repeat. -/
theorem Shadows.rowsUpTo (h : Shadows world unpurged σ p jobs) {t : HookTask} (ht : t ∈ σ.tasks) :
    RowsUpTo t.hookUuid t.retries σ.log := by
  intro row hrow huuid
  obtain ⟨⟨made, hmade, hstored⟩, -⟩ := h.mem_trail hrow
  obtain ⟨-, heq⟩ := HookTask.stored_eq_some hstored
  have hlt := h.rows t ht _ hmade huuid
  rw [heq, (made.row_key world).2.1]
  exact hlt

theorem Shadows.unused (h : Shadows world unpurged σ p jobs) {u : String} (hu : u ∉ σ.issued) :
    p.queue u = none ∧ p.recorded u = [] ∧ ∀ e ∈ p.trail, e.1 ≠ u := by
  have htrail : ∀ e ∈ p.trail, e.1 ≠ u := by
    rintro e he rfl
    obtain ⟨job, hjob, -⟩ := h.trail e he
    exact hu (h.job _ job hjob).1
  refine ⟨?_, ?_, htrail⟩
  · cases hq : p.queue u with
    | none => rfl
    | some t =>
      obtain ⟨ht, rfl⟩ := (h.queue u t).mp hq
      obtain ⟨job, hjob, -⟩ := h.origin t ht
      exact absurd (h.job _ job hjob).1 hu
  · have hnone : p.trail.filter (fun entry => entry.1 = u) = [] := by
      rw [List.filter_eq_nil_iff]
      intro e he
      simpa using htrail e he
    rw [Pool.recorded, hnone]
    rfl

theorem Shadows.subscribe (h : Shadows world unpurged σ p jobs) {uuid : String}
    (hv : σ.Valid (.subscribe uuid)) :
    Shadows world unpurged (σ.step world (.subscribe uuid)) p jobs := by
  have hfresh : uuid ∉ σ.issued := hv
  have hvisible : (σ.step world (.subscribe uuid)).visible world p = σ.visible world p := by
    refine List.filter_congr fun row hrow => ?_
    obtain ⟨e, he, hstored⟩ := List.mem_filterMap.mp hrow
    obtain ⟨-, rfl⟩ := HookTask.stored_eq_some hstored
    obtain ⟨job, hjob, heq⟩ := h.trail e he
    have hne : (e.2.row world).subscriptionUuid ≠ uuid := by
      rintro rfl
      refine hfresh ?_
      rw [(e.2.row_key world).2.2.1, heq]
      exact (h.job _ job hjob).2
    simp [WorkerPool.step, hne]
  refine { h with job := ?_, log := ?_, log_eq := ?_ }
  · intro u t hjob
    obtain ⟨hu, hs⟩ := h.job u t hjob
    exact ⟨Finset.mem_insert_of_mem hu, Finset.mem_insert_of_mem hs⟩
  · rw [hvisible]
    exact h.log
  · intro hun
    rw [hvisible]
    exact h.log_eq hun

theorem Shadows.unsubscribe (h : Shadows world unpurged σ p jobs) (uuid : String) :
    Shadows world unpurged (σ.step world (.unsubscribe uuid)) p jobs := by
  have hvisible : (σ.step world (.unsubscribe uuid)).visible world p =
      (σ.visible world p).filter fun row => row.subscriptionUuid ≠ uuid := by
    unfold WorkerPool.visible
    rw [List.filter_filter]
    refine List.filter_congr fun row _ => ?_
    simp [WorkerPool.step]
  refine { h with log := ?_, log_eq := ?_ }
  · rw [hvisible]
    exact h.log.filter _
  · intro hun
    rw [hvisible, ← h.log_eq hun]
    rfl

theorem Shadows.purge (h : Shadows world unpurged σ p jobs) (zone : SessionZone)
    (now daysToKeep : ℤ) (hun : ¬ unpurged) :
    Shadows world unpurged (σ.step world (.purge zone now daysToKeep)) p jobs where
  shares := h.shares
  tasks_nodup := h.tasks_nodup
  queue := h.queue
  name := h.name
  job := h.job
  origin := h.origin
  trail := h.trail
  rows := h.rows
  keys := h.keys
  log := List.filter_sublist.trans h.log
  log_eq hq := absurd hq hun

theorem Shadows.enqueue (h : Shadows world unpurged σ p jobs) {task : HookTask}
    (hv : σ.Valid (.enqueue task)) :
    Shadows world unpurged (σ.step world (.enqueue task))
      (p.step (hookAttempts world) (.enqueue task.hookUuid task))
      (Function.update jobs task.hookUuid (some task)) := by
  obtain ⟨hfresh, -⟩ := hv
  obtain ⟨hqueue, hrecorded, htrail⟩ := h.unused hfresh
  have htasks : ∀ t ∈ σ.tasks, t.hookUuid ≠ task.hookUuid := by
    intro t ht heq
    have hq := (h.queue _ t).mpr ⟨ht, heq⟩
    rw [hqueue] at hq
    cases hq
  constructor
  · exact h.shares.step ⟨hqueue, hrecorded⟩
  · change ((σ.tasks ++ [task]).map (·.hookUuid)).Nodup
    rw [List.map_append, List.nodup_append]
    refine ⟨h.tasks_nodup, List.nodup_singleton _, ?_⟩
    intro u hu u' hu'
    obtain ⟨t, ht, rfl⟩ := List.mem_map.mp hu
    rw [List.map_singleton, List.mem_singleton] at hu'
    exact hu' ▸ htasks t ht
  · intro u t
    change Function.update p.queue task.hookUuid (some task) u = some t ↔
      t ∈ σ.tasks ++ [task] ∧ t.hookUuid = u
    rw [List.mem_append, List.mem_singleton]
    by_cases hu : u = task.hookUuid
    · subst hu
      rw [Function.update_self, Option.some.injEq]
      constructor
      · rintro rfl
        exact ⟨Or.inr rfl, rfl⟩
      · rintro ⟨ht | rfl, heq⟩
        · exact absurd heq (htasks t ht)
        · rfl
    · rw [Function.update_of_ne hu, h.queue]
      constructor
      · rintro ⟨ht, heq⟩
        exact ⟨Or.inl ht, heq⟩
      · rintro ⟨ht | rfl, heq⟩
        · exact ⟨ht, heq⟩
        · exact absurd heq.symm hu
  · intro u t hjob
    rw [Function.update_apply] at hjob
    split_ifs at hjob with hu
    · cases hjob
      exact hu.symm
    · exact h.name u t hjob
  · intro u t hjob
    change u ∈ insert _ (insert _ σ.issued) ∧ t.subscription.uuid ∈ insert _ (insert _ σ.issued)
    rw [Function.update_apply] at hjob
    split_ifs at hjob with hu
    · cases hjob
      simp [hu]
    · obtain ⟨hu, hs⟩ := h.job u t hjob
      simp [hu, hs]
  · intro t ht
    rcases List.mem_append.mp ht with hold | hnew
    · rw [Function.update_of_ne (htasks t hold)]
      exact h.origin t hold
    · rw [List.mem_singleton.mp hnew, Function.update_self]
      exact ⟨task, rfl, rfl⟩
  · intro e he
    rw [Function.update_of_ne (htrail e he)]
    exact h.trail e he
  · intro t ht e he heq
    rcases List.mem_append.mp ht with hold | hnew
    · exact h.rows t hold e he heq
    · rw [List.mem_singleton.mp hnew] at heq
      exact absurd heq (htrail e he)
  · exact h.keys
  · exact h.log
  · exact h.log_eq

/-- The attempt of a queued task is the one that it would make without the other tasks. -/
theorem Shadows.run_eq (h : Shadows world unpurged σ p jobs) {t : HookTask} (ht : t ∈ σ.tasks)
    (deleted : Bool) :
    t.run world deleted σ.log =
      ⟨t.row world, if deleted then σ.log else σ.log ++ (t.stored world).toList, t.ending world⟩ :=
  HookTask.run_eq (h.rowsUpTo ht) deleted

section Work
variable (h : Shadows world unpurged σ p jobs) {i : ℕ} {t : HookTask}
  (hi : σ.tasks[i]? = some t)
include h hi

theorem Shadows.pool_step_work : p.step (hookAttempts world) (.work t.hookUuid) =
    ⟨Function.update p.queue t.hookUuid (t.requeued (t.ending world)),
      p.trail ++ [(t.hookUuid, t)]⟩ := by
  have hqueue : p.queue t.hookUuid = some t :=
    (h.queue _ t).mpr ⟨List.mem_of_getElem? hi, rfl⟩
  rw [Pool.step, hqueue]
  rfl

theorem Shadows.step_work : σ.step world (.work i) =
    { σ with
      log := σ.log ++
        if t.subscription.uuid ∈ σ.subscriptions then (t.stored world).toList else []
      tasks := σ.tasks.eraseIdx i ++ (t.requeued (t.ending world)).toList } := by
  rw [WorkerPool.step, hi]
  simp only [h.run_eq (List.mem_of_getElem? hi), decide_eq_true_eq]
  by_cases hs : t.subscription.uuid ∈ σ.subscriptions
  · simp only [hs, not_true_eq_false, if_false, if_true]
  · simp only [hs, not_false_eq_true, if_true, if_false, List.append_nil]

theorem Shadows.visible_work : (σ.step world (.work i)).visible world
    (p.step (hookAttempts world) (.work t.hookUuid)) =
      σ.visible world p ++
        if t.subscription.uuid ∈ σ.subscriptions then (t.stored world).toList else [] := by
  rw [h.step_work hi, h.pool_step_work hi, WorkerPool.visible, List.filterMap_append,
    List.filter_append]
  congr 1
  cases hstored : t.stored world with
  | none => simp [hstored]
  | some row =>
    obtain ⟨-, hrow⟩ := HookTask.stored_eq_some hstored
    have hsub : row.subscriptionUuid = t.subscription.uuid := by
      rw [hrow]
      exact (t.row_key world).2.2.1
    by_cases hs : t.subscription.uuid ∈ σ.subscriptions
    · simp [hs, hsub, hstored]
    · simp [hs, hsub, hstored]

theorem Shadows.work : Shadows world unpurged (σ.step world (.work i))
    (p.step (hookAttempts world) (.work t.hookUuid)) jobs := by
  have ht : t ∈ σ.tasks := List.mem_of_getElem? hi
  have hnext : ∀ t', t.requeued (t.ending world) = some t' →
      t' = { t with retries := t.retries + 1 } :=
    fun t' ht' => (HookTask.requeued_eq_some ht').2
  have hname : ∀ t', t.requeued (t.ending world) = some t' → t'.hookUuid = t.hookUuid := by
    intro t' ht'
    rw [hnext t' ht']
  have hmem : ∀ t' ∈ σ.tasks.eraseIdx i ++ (t.requeued (t.ending world)).toList,
      t' ∈ σ.tasks ∧ t'.hookUuid ≠ t.hookUuid ∨ t' = { t with retries := t.retries + 1 } := by
    intro t' ht'
    rcases List.mem_append.mp ht' with hold | hnew
    · exact Or.inl ⟨(perm_taken hi).mem_iff.mp (List.mem_cons_of_mem _ hold),
        name_ne_of_mem_left h.tasks_nodup hi hold⟩
    · exact Or.inr (hnext t' (Option.mem_toList.mp hnew))
  obtain ⟨job, hjob, htask⟩ := h.origin t ht
  have hlog : (σ.step world (.work i)).log = σ.log ++
      if t.subscription.uuid ∈ σ.subscriptions then (t.stored world).toList else [] :=
    congrArg WorkerPool.log (h.step_work hi)
  constructor
  · exact h.shares.step trivial
  · rw [h.step_work hi]
    exact names_nodup_requeue h.tasks_nodup hi hname
  · intro u t'
    rw [h.step_work hi, h.pool_step_work hi]
    dsimp only
    rw [mem_requeue_iff h.tasks_nodup hi hname, Function.update_apply]
    split_ifs
    · rfl
    · exact h.queue u t'
  · exact h.name
  · rw [h.step_work hi]
    exact h.job
  · rw [h.step_work hi]
    intro t' ht'
    rcases hmem t' ht' with ⟨hold, -⟩ | rfl
    · exact h.origin t' hold
    · refine ⟨job, hjob, ?_⟩
      rw [htask]
  · rw [h.pool_step_work hi]
    intro e he
    rcases List.mem_append.mp he with hold | hnew
    · exact h.trail e hold
    · rw [List.mem_singleton.mp hnew]
      exact ⟨job, hjob, htask⟩
  · rw [h.step_work hi, h.pool_step_work hi]
    intro t' ht' e he heq
    rcases List.mem_append.mp he with heold | henew
    · rcases hmem t' ht' with ⟨hold, -⟩ | rfl
      · exact h.rows t' hold e heold heq
      · exact (h.rows t ht e heold heq).trans (Nat.lt_succ_self _)
    · rw [List.mem_singleton.mp henew] at heq ⊢
      rcases hmem t' ht' with ⟨-, hne⟩ | rfl
      · exact absurd heq.symm hne
      · exact Nat.lt_succ_self _
  · rw [h.pool_step_work hi, trailKeys, List.map_append, List.nodup_append]
    refine ⟨h.keys, List.nodup_singleton _, ?_⟩
    intro key hkey key' hkey' heq
    obtain ⟨e, he, rfl⟩ := List.mem_map.mp hkey
    rw [List.map_singleton, List.mem_singleton] at hkey'
    rw [hkey', Prod.mk.injEq] at heq
    have hlt := h.rows t ht e he heq.1
    have hretries : e.2.retries + 1 = t.retries + 1 := heq.2
    omega
  · rw [h.visible_work hi, hlog]
    exact h.log.append (List.Sublist.refl _)
  · intro hun
    rw [h.visible_work hi, hlog, h.log_eq hun]

end Work

/-- The tasks enqueued before a run and along it. -/
def Enqueues (jobs jobs' : String → Option HookTask) (ls : List PoolStep) : Prop :=
  ∀ u t, jobs' u = some t ↔ jobs u = some t ∨ .enqueue t ∈ ls ∧ t.hookUuid = u

theorem enqueues_of_ne {l : PoolStep} (hl : ∀ t, l ≠ .enqueue t) : Enqueues jobs jobs [l] := by
  intro u t
  rw [List.mem_singleton]
  constructor
  · exact Or.inl
  · rintro (hold | ⟨hnew, -⟩)
    · exact hold
    · exact absurd hnew.symm (hl t)

theorem trailKeys_filter (p : HookPool) (u : String) :
    ((trailKeys p).filter fun a => a.1 = u).map Prod.snd =
      (p.recorded u).map fun t => t.retries + 1 := by
  unfold trailKeys Pool.recorded
  rw [List.filter_map, List.map_map, List.map_map]
  rfl

/-- The shadow of a step: the task enqueued, if it is one, joins the others, and the attempt made,
if there is one, leaves its trail. -/
theorem Shadows.step (h : Shadows world unpurged σ p jobs) {l : PoolStep} (hv : σ.Valid l)
    (hun : unpurged → ∀ zone now daysToKeep, l ≠ .purge zone now daysToKeep) :
    ∃ p' jobs', Shadows world unpurged (σ.step world l) p' jobs' ∧ Enqueues jobs jobs' [l] ∧
      trailKeys p' = trailKeys p ++ (σ.attempt? l).toList := by
  cases l with
  | subscribe uuid =>
    exact ⟨p, jobs, h.subscribe hv, (enqueues_of_ne fun t ht => by cases ht),
      (List.append_nil _).symm⟩
  | unsubscribe uuid =>
    exact ⟨p, jobs, h.unsubscribe uuid, (enqueues_of_ne fun t ht => by cases ht),
      (List.append_nil _).symm⟩
  | purge zone now daysToKeep =>
    have hnot : ¬ unpurged := fun hq => hun hq zone now daysToKeep rfl
    exact ⟨p, jobs, h.purge zone now daysToKeep hnot, (enqueues_of_ne fun t ht => by cases ht),
      (List.append_nil _).symm⟩
  | work i =>
    cases hi : σ.tasks[i]? with
    | none =>
      have hidle : σ.step world (.work i) = σ := by
        rw [WorkerPool.step, hi]
      rw [hidle, WorkerPool.attempt?, hi]
      exact ⟨p, jobs, h, (enqueues_of_ne fun t ht => by cases ht), (List.append_nil _).symm⟩
    | some t =>
      refine ⟨_, jobs, h.work hi, (enqueues_of_ne fun t ht => by cases ht), ?_⟩
      rw [h.pool_step_work hi, WorkerPool.attempt?, hi, trailKeys, List.map_append]
      rfl
  | enqueue task =>
    have hunused : jobs task.hookUuid = none := by
      cases hj : jobs task.hookUuid with
      | none => rfl
      | some t => exact absurd (h.job _ t hj).1 hv.1
    refine ⟨_, _, h.enqueue hv, ?_, (List.append_nil _).symm⟩
    intro u t
    rw [Function.update_apply, List.mem_singleton, PoolStep.enqueue.injEq]
    split_ifs with hu
    · rw [hu, hunused, Option.some.injEq]
      constructor
      · rintro rfl
        exact Or.inr ⟨rfl, rfl⟩
      · rintro (hold | ⟨rfl, -⟩)
        · cases hold
        · rfl
    · constructor
      · exact Or.inl
      · rintro (hold | ⟨rfl, heq⟩)
        · exact hold
        · exact absurd heq.symm hu

theorem Shadows.along (h : Shadows world unpurged σ p jobs) {ls : List PoolStep}
    (hv : Run.Along (WorkerPool.step world) WorkerPool.Valid σ ls)
    (hun : unpurged → ∀ l ∈ ls, ∀ zone now daysToKeep, l ≠ .purge zone now daysToKeep) :
    ∃ p' jobs', Shadows world unpurged (ls.foldl (WorkerPool.step world) σ) p' jobs' ∧
      Enqueues jobs jobs' ls ∧ trailKeys p' = trailKeys p ++ σ.attempts world ls := by
  induction ls generalizing σ p jobs with
  | nil => exact ⟨p, jobs, h, fun u t => by simp, (List.append_nil _).symm⟩
  | cons l ls ih =>
    obtain ⟨p₁, jobs₁, h₁, henqueued₁, hkeys₁⟩ :=
      h.step hv.1 fun hq => hun hq l List.mem_cons_self
    obtain ⟨p₂, jobs₂, h₂, henqueued₂, hkeys₂⟩ :=
      ih h₁ hv.2 fun hq l' hl' => hun hq l' (List.mem_cons_of_mem _ hl')
    refine ⟨p₂, jobs₂, h₂, ?_, ?_⟩
    · intro u t
      rw [henqueued₂, henqueued₁, List.mem_singleton, List.mem_cons, or_and_right, or_assoc]
    · rw [hkeys₂, hkeys₁, List.append_assoc]
      rfl

theorem Shadows.queue_eq_none (h : Shadows world unpurged σ p jobs) {u : String}
    (hdone : ∀ t ∈ σ.tasks, t.hookUuid ≠ u) : p.queue u = none := by
  cases hq : p.queue u with
  | none => rfl
  | some t =>
    obtain ⟨hmem, huuid⟩ := (h.queue u t).mp hq
    exact absurd huuid (hdone t hmem)

theorem Shadows.visible_of (h : Shadows world unpurged σ p jobs) {t : HookTask}
    (hjob : jobs t.hookUuid = some t) :
    (σ.visible world p).filter (fun row => row.uuid = t.hookUuid) =
      if t.subscription.uuid ∈ σ.subscriptions then
        (p.recorded t.hookUuid).filterMap (HookTask.stored world)
      else [] := by
  have hkey : ∀ e ∈ p.trail, ∀ row, e.2.stored world = some row → row.uuid = e.1 ∧
      (e.1 = t.hookUuid → row.subscriptionUuid = t.subscription.uuid) := by
    intro e he row hrow
    obtain ⟨-, rfl⟩ := HookTask.stored_eq_some hrow
    obtain ⟨huuid, -, hsub, -⟩ := e.2.row_key world
    refine ⟨huuid.trans (h.hookUuid_trail he), fun heq => ?_⟩
    obtain ⟨job, hj, htask⟩ := h.trail e he
    rw [heq, hjob] at hj
    cases hj
    rw [hsub, htask]
  unfold WorkerPool.visible Pool.recorded
  rw [List.filter_filter, List.filterMap_map, List.filterMap_filter, List.filter_filterMap]
  split_ifs with hs
  · refine List.filterMap_congr fun e he => ?_
    cases hrow : e.2.stored world with
    | none => simp [hrow]
    | some row =>
      obtain ⟨huuid, hsub⟩ := hkey e he row hrow
      by_cases heq : e.1 = t.hookUuid
      · simp [huuid, heq, hsub heq, hs, hrow]
      · simp [huuid, heq]
  · rw [List.filterMap_eq_nil_iff]
    intro e he
    cases hrow : e.2.stored world with
    | none => rfl
    | some row =>
      obtain ⟨huuid, hsub⟩ := hkey e he row hrow
      by_cases heq : e.1 = t.hookUuid
      · simp [hsub heq, hs]
      · simp [huuid, heq]

/-- The rows of an enqueued hook: none once its subscription is gone, and otherwise a first part
of what it stores alone, unless some were purged. -/
theorem Shadows.rows_of (h : Shadows world unpurged σ p jobs) {t : HookTask}
    (hjob : jobs t.hookUuid = some t) :
    let rows := σ.log.filter fun row => row.uuid = t.hookUuid
    (t.subscription.uuid ∉ σ.subscriptions → rows = []) ∧ rows.Sublist (t.alone world) ∧
    (unpurged → t.subscription.uuid ∈ σ.subscriptions → rows <+: t.alone world ∧
      ((∀ t' ∈ σ.tasks, t'.hookUuid ≠ t.hookUuid) → rows = t.alone world)) := by
  intro rows
  obtain ⟨hfirst, hall⟩ := h.shares.prefix_solo hjob
  have hfirst' : (p.recorded t.hookUuid).filterMap (HookTask.stored world) <+: t.alone world := by
    rw [← t.filterMap_solo world]
    exact hfirst.filterMap _
  have hseen := h.visible_of hjob
  have hrows : rows.Sublist
      ((σ.visible world p).filter fun row => row.uuid = t.hookUuid) := h.log.filter _
  refine ⟨?_, ?_, ?_⟩
  · intro hgone
    rw [hseen, if_neg hgone] at hrows
    exact List.sublist_nil.mp hrows
  · rw [hseen] at hrows
    split_ifs at hrows
    · exact hrows.trans hfirst'.sublist
    · exact hrows.trans (List.nil_sublist _)
  · intro hunpurged hstored
    have hrows_eq : rows = (p.recorded t.hookUuid).filterMap (HookTask.stored world) := by
      change σ.log.filter _ = _
      rw [h.log_eq hunpurged, hseen, if_pos hstored]
    rw [hrows_eq]
    refine ⟨hfirst', fun hdone => ?_⟩
    rw [hall (h.queue_eq_none hdone), t.filterMap_solo world]

theorem Shadows.task_of_row (h : Shadows world unpurged σ p jobs) {row : SubscriptionLog}
    (hrow : row ∈ σ.log) :
    ∃ t, jobs t.hookUuid = some t ∧ t.hookUuid = row.uuid ∧
      t.subscription.uuid = row.subscriptionUuid ∧ t.event = row.event ∧ row ∈ t.alone world := by
  obtain ⟨⟨made, hmade, hstored⟩, -⟩ := h.mem_trail hrow
  obtain ⟨t, hjob, htask⟩ := h.trail _ hmade
  obtain ⟨-, heq⟩ := HookTask.stored_eq_some hstored
  obtain ⟨-, -, hsubscription, hevent⟩ := made.row_key world
  have huuid : t.hookUuid = row.uuid := h.name _ t hjob
  have hjob' : jobs t.hookUuid = some t := by
    rw [huuid]
    exact hjob
  have htask' : made = { t with retries := made.retries } := htask
  refine ⟨t, hjob', huuid, ?_, ?_, ?_⟩
  · rw [heq, hsubscription, htask']
  · rw [heq, hevent, htask']
  · obtain ⟨-, halone, -⟩ := h.rows_of hjob'
    exact halone.subset (List.mem_filter.mpr ⟨hrow, decide_eq_true huuid.symm⟩)

theorem Shadows.keys_nodup (h : Shadows world unpurged σ p jobs) :
    (σ.log.map fun row => (row.uuid, row.attempts)).Nodup := by
  have hvisible : ((σ.visible world p).map fun row => (row.uuid, row.attempts)).Nodup := by
    refine List.Nodup.sublist (List.filter_sublist.map _) ?_
    have hkeys := h.keys
    rw [trailKeys, List.Nodup, List.pairwise_map] at hkeys
    rw [List.Nodup, List.pairwise_map, List.pairwise_filterMap]
    refine hkeys.imp_of_mem fun {e e'} he he' hne row hrow row' hrow' heq => hne ?_
    obtain ⟨-, rfl⟩ := HookTask.stored_eq_some hrow
    obtain ⟨-, rfl⟩ := HookTask.stored_eq_some hrow'
    obtain ⟨huuid, hattempts, -⟩ := e.2.row_key world
    obtain ⟨huuid', hattempts', -⟩ := e'.2.row_key world
    rw [huuid, huuid', hattempts, hattempts', h.hookUuid_trail he, h.hookUuid_trail he'] at heq
    exact heq
  exact hvisible.sublist (h.log.map _)

theorem Shadows.filter_tasks (h : Shadows world unpurged σ p jobs) (u : String) :
    σ.tasks.filter (fun t => t.hookUuid = u) = (p.queue u).toList :=
  filter_name_eq h.tasks_nodup u (h.queue u)

theorem Shadows.attempts_of (h : Shadows world unpurged σ p jobs) {t : HookTask}
    (hjob : jobs t.hookUuid = some t) :
    ((trailKeys p).filter fun a => a.1 = t.hookUuid).map Prod.snd ++
        (σ.tasks.filter fun t' => t'.hookUuid = t.hookUuid).flatMap
          (fun t' => (t'.attemptsAlone world).map (· + 1)) =
      (t.attemptsAlone world).map (· + 1) := by
  have hshares := h.shares t.hookUuid
  have hsolo : ∀ t' : HookTask, ((hookAttempts world).solo t').map (fun t => t.retries + 1) =
      (t'.attemptsAlone world).map (· + 1) := by
    intro t'
    rw [t'.solo_eq world, List.map_map]
    rfl
  rw [hjob, Option.map_some, Option.getD_some] at hshares
  rw [trailKeys_filter, h.filter_tasks, ← hsolo t, ← hshares, List.map_append, Pool.pending]
  congr 1
  cases p.queue t.hookUuid with
  | none => rfl
  | some t' =>
    rw [Option.toList_some, List.flatMap_singleton, Option.map_some, Option.getD_some]
    exact (hsolo t').symm

end Shadows

variable (world : String → ℕ → LoggedAttempt)

theorem retries_of_enqueue {σ : WorkerPool} {ls : List PoolStep}
    (hv : Run.Along (WorkerPool.step world) WorkerPool.Valid σ ls) {t : HookTask}
    (ht : .enqueue t ∈ ls) : t.retries = 0 := by
  induction ls generalizing σ with
  | nil => cases ht
  | cons l ls ih =>
    rcases List.mem_cons.mp ht with rfl | hrest
    · exact hv.1.2
    · exact ih hv.2 hrest

/-- However the workers interleave the attempts of the hooks with each other, with deletions of
subscriptions and with purges: no insertion ever breaks the primary key, no log outlives its
subscription, and the logs of a hook are among those that it stores alone. Unless some were
purged they are the first of them, and all of them once the hook is done. -/
theorem deliveries_do_not_interfere (ls : List PoolStep)
    (hv : Run.Along (WorkerPool.step world) WorkerPool.Valid .init ls) :
    let σ := ls.foldl (WorkerPool.step world) .init
    (σ.log.map fun row => (row.uuid, row.attempts)).Nodup ∧
    (∀ row ∈ σ.log, row.subscriptionUuid ∈ σ.subscriptions) ∧
    (∀ t ∈ σ.tasks, ∀ deleted, (t.run world deleted σ.log).ending = t.ending world ∧
      ∀ text, (t.run world deleted σ.log).ending ≠ .error (.integrityError text)) ∧
    ∀ t, .enqueue t ∈ ls →
      let rows := σ.log.filter fun row => row.uuid = t.hookUuid
      ((∀ i, (world t.hookUuid i).databaseError = none) →
        t.alone world = (deliver t.config t.hookUuid t.subscription t.event
          (HookTask.stayed world t.hookUuid) t.retries []).submitted) ∧
      (t.subscription.uuid ∉ σ.subscriptions → rows = []) ∧ rows.Sublist (t.alone world) ∧
      ((∀ l ∈ ls, ∀ zone now daysToKeep, l ≠ .purge zone now daysToKeep) →
        t.subscription.uuid ∈ σ.subscriptions →
          rows <+: t.alone world ∧
            ((∀ t' ∈ σ.tasks, t'.hookUuid ≠ t.hookUuid) → rows = t.alone world)) := by
  intro σ
  obtain ⟨p, jobs, h, henqueued, -⟩ := (shadows_empty ∅ ∅).along hv fun hq => hq
  refine ⟨h.keys_nodup, ?_, ?_, ?_⟩
  · intro row hrow
    exact (h.mem_trail hrow).2
  · intro t ht deleted
    have hrun : (t.run world deleted σ.log).ending = t.ending world :=
      congrArg LoggedRun.ending (h.run_eq ht deleted)
    refine ⟨hrun, fun text hend => ?_⟩
    exact t.ending_ne_integrityError text (hrun.symm.trans hend)
  · intro t ht
    refine ⟨fun hnone => t.alone_eq_deliver [] hnone nofun, ?_⟩
    exact h.rows_of ((henqueued t.hookUuid t).mpr (Or.inr ⟨ht, rfl⟩))

def missedCallTask (hookUuid : String) : HookTask :=
  ⟨hookUuid, "http.plugin:Service", ⟨10, 2⟩, missedCallHook, .obj [], 0⟩

def flakyWorld (_hookUuid : String) (i : ℕ) : LoggedAttempt := (flakyAttempt i).logged

/-- Two hooks of one subscription, which time out in turn. -/
def twoHooks : List PoolStep :=
  [.subscribe missedCallHook.uuid,
    .enqueue (missedCallTask "51d6b9a0-3a4e-4b5f-8f43-8a0c39b0c104"),
    .enqueue (missedCallTask "0b9d2d5e-4a62-4bd0-8b2b-7f3f6a2f8c05"), .work 0, .work 0, .work 1]

theorem twoHooks_valid :
    Run.Along (WorkerPool.step flakyWorld) WorkerPool.Valid .init twoHooks := by
  refine ⟨?_, ⟨?_, rfl⟩, ⟨?_, rfl⟩, trivial, trivial, trivial, trivial⟩
  · exact Finset.notMem_empty _
  all_goals decide

/-- After three attempts the first hook has the first rows of its delivery. -/
theorem deliveries_do_not_interfere_two_hooks :
    (((twoHooks.foldl (WorkerPool.step flakyWorld) .init).log.filter fun row =>
        row.uuid = "51d6b9a0-3a4e-4b5f-8f43-8a0c39b0c104") <+:
      (missedCallTask "51d6b9a0-3a4e-4b5f-8f43-8a0c39b0c104").alone flakyWorld) := by
  obtain ⟨-, -, -, hrows⟩ := deliveries_do_not_interfere _ twoHooks twoHooks_valid
  have henqueued : PoolStep.enqueue (missedCallTask "51d6b9a0-3a4e-4b5f-8f43-8a0c39b0c104") ∈
      twoHooks := by simp [twoHooks]
  have hunpurged : ∀ l ∈ twoHooks, ∀ zone now daysToKeep,
      l ≠ .purge zone now daysToKeep := by simp [twoHooks]
  have hstored : missedCallHook.uuid ∈
      (twoHooks.foldl (WorkerPool.step flakyWorld) .init).subscriptions := by decide
  exact ((hrows _ henqueued).2.2.2 hunpurged hstored).1

/-- No attempt is lost or made twice: those made of a hook along a run, and then those its queued
task has still before it, are the attempts that the hook makes alone, which are no more than its
configuration allows. None is made of anything else. -/
theorem attempts_accounted (ls : List PoolStep)
    (hv : Run.Along (WorkerPool.step world) WorkerPool.Valid .init ls) :
    let σ := ls.foldl (WorkerPool.step world) .init
    let made := WorkerPool.init.attempts world ls
    (∀ a ∈ made, ∃ t, .enqueue t ∈ ls ∧ t.hookUuid = a.1) ∧
    ∀ t, .enqueue t ∈ ls →
      ((made.filter fun a => a.1 = t.hookUuid).map Prod.snd ++
          (σ.tasks.filter fun t' => t'.hookUuid = t.hookUuid).flatMap
            (fun t' => (t'.attemptsAlone world).map (· + 1)) =
        (t.attemptsAlone world).map (· + 1)) ∧
      (t.attemptsAlone world).length ≤ (max 1 t.config.hookMaxAttempts).toNat := by
  intro σ made
  have hempty : Shadows world False .init .init fun _ => none := shadows_empty ∅ ∅
  obtain ⟨p, jobs, h, henqueued, hkeys⟩ := hempty.along hv fun hfalse => hfalse.elim
  have hmade : made = trailKeys p := hkeys.symm
  rw [hmade]
  refine ⟨?_, fun t ht => ⟨?_, ?_⟩⟩
  · intro a ha
    obtain ⟨e, he, rfl⟩ := List.mem_map.mp ha
    obtain ⟨t, hjob, -⟩ := h.trail e he
    rcases (henqueued e.1 t).mp hjob with hold | hnew
    · cases hold
    · exact ⟨t, hnew⟩
  · exact h.attempts_of ((henqueued t.hookUuid t).mpr (Or.inr ⟨ht, rfl⟩))
  · have hzero : t.retries = 0 := retries_of_enqueue world hv ht
    rw [HookTask.attemptsAlone, hzero]
    exact length_attempts_le _ _ _

theorem attempts_accounted_two_hooks :
    let t := missedCallTask "51d6b9a0-3a4e-4b5f-8f43-8a0c39b0c104"
    let σ := twoHooks.foldl (WorkerPool.step flakyWorld) .init
    (((WorkerPool.init.attempts flakyWorld twoHooks).filter fun a => a.1 = t.hookUuid).map
        Prod.snd ++ (σ.tasks.filter fun t' => t'.hookUuid = t.hookUuid).flatMap
          (fun t' => (t'.attemptsAlone flakyWorld).map (· + 1)) =
      (t.attemptsAlone flakyWorld).map (· + 1)) := by
  intro t σ
  have henqueued : PoolStep.enqueue t ∈ twoHooks := by simp [twoHooks, t]
  exact ((attempts_accounted flakyWorld twoHooks twoHooks_valid).2 t henqueued).1

end WazoWebhookd
