import WazoWebhookd.Database.Models
import WazoWebhookd.Library.Json

/-! The celery task that runs a hook, the log rows it inserts, and the worker that runs the
task again when it asks for a retry. -/
namespace WazoWebhookd

inductive Status
  | success
  | failure
  | error
  deriving DecidableEq

structure SubscriptionLog where
  uuid : String
  subscriptionUuid : String
  status : Status
  startedAt : ℕ
  endedAt : ℕ
  attempts : ℕ
  maxAttempts : ℤ
  event : Json
  detail : Json

inductive IntegrityError
  | uniqueViolation

/-- `create_hook_log`. The primary key is checked on insertion; the foreign key refuses the
row of a deleted subscription, which is only logged. -/
def createHookLog (subscriptionDeleted : Bool) (log : List SubscriptionLog)
    (hooklog : SubscriptionLog) : Except IntegrityError (List SubscriptionLog) :=
  if ∃ row ∈ log, row.uuid = hooklog.uuid ∧ row.attempts = hooklog.attempts then
    .error .uniqueViolation
  else if subscriptionDeleted then .ok log
  else .ok (log ++ [hooklog])

inductive HookOutcome
  | success (detail : Json)
  | hookRetry (detail : Json)
  | hookExpectedError (detail : Json)
  | exception (message : String)

def HookOutcome.IsRetry : HookOutcome → Prop
  | .hookRetry _ => True
  | _ => False

/-- What one attempt meets: the outcome of the hook, the clock, and whether the subscription
is gone when the row is inserted. -/
structure Attempt where
  outcome : HookOutcome
  started : ℕ
  ended : ℕ
  subscriptionDeleted : Bool

structure HookConfig where
  hookMaxAttempts : ℤ
  hookHttpRetryCountdownFactor : ℤ

inductive TaskEnd
  | returned
  | retry (countdown : ℤ)
  | maxRetriesExceeded
  | integrityError (e : IntegrityError)

/-- celery's `retry`: it refuses only beyond `max_retries`. -/
def taskRetry (maxRetries : ℤ) (retries : ℕ) (countdown : ℤ) : TaskEnd :=
  if retries + 1 > maxRetries then .maxRetriesExceeded else .retry countdown

/-- One run of the task: the row it submitted, the log table after it, and how it ended. -/
structure TaskRun where
  submitted : SubscriptionLog
  log : List SubscriptionLog
  ending : TaskEnd

/-- The insertion of the row, and what follows when it does not raise. -/
def submitHookLog (attempt : Attempt) (log : List SubscriptionLog) (hooklog : SubscriptionLog)
    (next : TaskEnd) : TaskRun :=
  match createHookLog attempt.subscriptionDeleted log hooklog with
  | .ok log => ⟨hooklog, log, next⟩
  | .error e => ⟨hooklog, log, .integrityError e⟩

section Task
variable (config : HookConfig) (hookUuid : String) (subscription : SubscriptionDict)
  (event : Json)

def hookLog (retries : ℕ) (attempt : Attempt) (status : Status) (detail : Json) :
    SubscriptionLog where
  uuid := hookUuid
  subscriptionUuid := subscription.uuid
  status := status
  startedAt := attempt.started
  endedAt := attempt.ended
  attempts := retries + 1
  maxAttempts := config.hookMaxAttempts
  event := event
  detail := detail

def hookRunnerTask (retries : ℕ) (attempt : Attempt) (log : List SubscriptionLog) : TaskRun :=
  let maxRetries := config.hookMaxAttempts - 1
  let hooklog := hookLog config hookUuid subscription event retries attempt
  match attempt.outcome with
  | .hookRetry detail =>
    let status : Status := if retries + 1 ≥ config.hookMaxAttempts then .error else .failure
    submitHookLog attempt log (hooklog status detail)
      (if retries + 1 ≥ config.hookMaxAttempts then .returned
        else taskRetry maxRetries retries (config.hookHttpRetryCountdownFactor ^ retries))
  | .hookExpectedError detail => submitHookLog attempt log (hooklog .error detail) .returned
  | .exception message =>
    submitHookLog attempt log (hooklog .error (.obj [("error", .str message)])) .returned
  | .success detail => submitHookLog attempt log (hooklog .success detail.orEmptyObject) .returned

theorem submitHookLog_retry {attempt : Attempt} {log : List SubscriptionLog}
    {hooklog : SubscriptionLog} {next : TaskEnd} {countdown : ℤ}
    (h : (submitHookLog attempt log hooklog next).ending = .retry countdown) :
    next = .retry countdown := by
  unfold submitHookLog at h
  split at h
  · exact h
  · cases h

theorem hookRunnerTask_retry {retries : ℕ} {attempt : Attempt} {log : List SubscriptionLog}
    {countdown : ℤ}
    (h : (hookRunnerTask config hookUuid subscription event retries attempt log).ending =
      .retry countdown) : retries + 1 < config.hookMaxAttempts := by
  unfold hookRunnerTask at h
  by_contra hlt
  have hge : (retries : ℤ) + 1 ≥ config.hookMaxAttempts := not_lt.mp hlt
  cases ho : attempt.outcome with
  | hookRetry detail =>
    rw [ho] at h
    have hnext := submitHookLog_retry h
    rw [if_pos hge] at hnext
    cases hnext
  | hookExpectedError detail =>
    rw [ho] at h
    cases submitHookLog_retry h
  | exception message =>
    rw [ho] at h
    cases submitHookLog_retry h
  | success detail =>
    rw [ho] at h
    cases submitHookLog_retry h

structure Delivery where
  attempts : ℕ
  submitted : List SubscriptionLog
  log : List SubscriptionLog
  ending : TaskEnd

/-- The worker: the task runs again, with the same arguments and one more retry, as long as
it ends with a retry. -/
def deliver (world : ℕ → Attempt) (retries : ℕ) (log : List SubscriptionLog) : Delivery :=
  let run := hookRunnerTask config hookUuid subscription event retries (world retries) log
  match hr : run.ending with
  | .retry _ =>
    let after := deliver world (retries + 1) run.log
    ⟨after.attempts + 1, run.submitted :: after.submitted, after.log, after.ending⟩
  | ending => ⟨1, [run.submitted], run.log, ending⟩
termination_by (config.hookMaxAttempts - retries).toNat
decreasing_by
  have := hookRunnerTask_retry config hookUuid subscription event hr
  omega

end Task

end WazoWebhookd
