import Mathlib.Data.List.Infix
import WazoWebhookd.Hook.Delivery

/-! The log insertions of a delivery that fail: the attempts they let through, and those they
prevent. -/
namespace WazoWebhookd

/-- What the commit of a row raises. -/
inductive DatabaseError
  | integrityError (text : String)
  | other (text : String)
  deriving DecidableEq

/-- `create_hook_log`, by what its commit raises: only a violated foreign key is caught. -/
def createHookLogResult : Except DatabaseError Unit → Except DatabaseError Unit
  | .error (.integrityError text) =>
    if "violates foreign key constraint".toList <:+: text.toList then .ok ()
    else .error (.integrityError text)
  | result => result

/-- The row is stored, or refused because the subscription is gone. -/
def Inserts (commit : Except DatabaseError Unit) : Prop := createHookLogResult commit = .ok ()

instance (commit : Except DatabaseError Unit) : Decidable (Inserts commit) :=
  match h : createHookLogResult commit with
  | .ok () => isTrue h
  | .error _ => isFalse fun hok => nomatch h.symm.trans hok

theorem createHookLogResult_of_not {commit : Except DatabaseError Unit} (h : ¬ Inserts commit) :
    ∃ e, createHookLogResult commit = .error e := by
  cases hr : createHookLogResult commit with
  | ok u => exact absurd hr h
  | error e => exact ⟨e, rfl⟩

/-- The end of a run of the task whose insertion may raise anything. -/
def hookRunnerEnding (config : HookConfig) (retries : ℕ) (outcome : HookOutcome)
    (commit : Except DatabaseError Unit) : Except DatabaseError TaskEnd :=
  let maxRetries := config.hookMaxAttempts - 1
  match outcome with
  | .hookRetry _ => do
    createHookLogResult commit
    pure (if retries + 1 ≥ config.hookMaxAttempts then .returned
      else taskRetry maxRetries retries (config.hookHttpRetryCountdownFactor ^ retries))
  | .hookExpectedError _ | .exception _ | .success _ => do
    createHookLogResult commit
    pure .returned

theorem hookRunnerEnding_congr (config : HookConfig) (retries : ℕ) (outcome : HookOutcome)
    {commit commit' : Except DatabaseError Unit}
    (h : createHookLogResult commit = createHookLogResult commit') :
    hookRunnerEnding config retries outcome commit =
      hookRunnerEnding config retries outcome commit' := by
  unfold hookRunnerEnding
  rw [h]

/-- The commit of a row, where only the two constraints are violated. -/
def commitOf (subscriptionDeleted : Bool) (log : List SubscriptionLog)
    (hooklog : SubscriptionLog) : Except DatabaseError Unit :=
  if ∃ row ∈ log, row.uuid = hooklog.uuid ∧ row.attempts = hooklog.attempts then
    .error (.integrityError "duplicate key value violates unique constraint")
  else if subscriptionDeleted then
    .error (.integrityError "insert or update violates foreign key constraint")
  else .ok ()

theorem createHookLogResult_commitOf (subscriptionDeleted : Bool) (log : List SubscriptionLog)
    (hooklog : SubscriptionLog) :
    (∃ log', createHookLog subscriptionDeleted log hooklog = .ok log') ∧
        Inserts (commitOf subscriptionDeleted log hooklog) ∨
      createHookLog subscriptionDeleted log hooklog = .error .uniqueViolation ∧
        ¬ Inserts (commitOf subscriptionDeleted log hooklog) := by
  unfold createHookLog commitOf
  split_ifs with hkey hdeleted
  · exact .inr ⟨rfl, by decide⟩
  · exact .inl ⟨⟨log, rfl⟩, by decide⟩
  · exact .inl ⟨⟨log ++ [hooklog], rfl⟩, rfl⟩

theorem submitHookLog_ending (attempt : Attempt) (log : List SubscriptionLog)
    (hooklog : SubscriptionLog) (next : TaskEnd) :
    (submitHookLog attempt log hooklog next).submitted = hooklog ∧
      (submitHookLog attempt log hooklog next).ending =
        match (do
          createHookLogResult (commitOf attempt.subscriptionDeleted log hooklog)
          pure next : Except DatabaseError TaskEnd) with
        | .ok ending => ending
        | .error _ => .integrityError .uniqueViolation := by
  unfold submitHookLog
  rcases createHookLogResult_commitOf attempt.subscriptionDeleted log hooklog with
    ⟨⟨log', hok⟩, hinserts⟩ | ⟨herror, hnot⟩
  · rw [hok, hinserts]
    exact ⟨rfl, rfl⟩
  · obtain ⟨e, he⟩ := createHookLogResult_of_not hnot
    rw [herror, he]
    exact ⟨rfl, rfl⟩

theorem hookRunnerTask_ending (config : HookConfig) (hookUuid : String)
    (subscription : SubscriptionDict) (event : Json) (retries : ℕ) (attempt : Attempt)
    (log : List SubscriptionLog) :
    let run := hookRunnerTask config hookUuid subscription event retries attempt log
    run.ending = match hookRunnerEnding config retries attempt.outcome
        (commitOf attempt.subscriptionDeleted log run.submitted) with
      | .ok ending => ending
      | .error _ => .integrityError .uniqueViolation := by
  unfold hookRunnerTask hookRunnerEnding
  cases attempt.outcome with
  | _ =>
    dsimp only
    rw [(submitHookLog_ending ..).1]
    exact (submitHookLog_ending ..).2

/-- What an attempt meets, and another error that the commit of its row may raise. -/
structure LoggedAttempt extends Attempt where
  databaseError : Option String

def Attempt.logged (attempt : Attempt) : LoggedAttempt := { attempt with databaseError := none }

def LoggedAttempt.commit (attempt : LoggedAttempt) (log : List SubscriptionLog)
    (hooklog : SubscriptionLog) : Except DatabaseError Unit :=
  match attempt.databaseError with
  | some text => .error (.other text)
  | none => commitOf attempt.subscriptionDeleted log hooklog

theorem LoggedAttempt.commit_of_none {attempt : LoggedAttempt}
    (h : attempt.databaseError = none) (log : List SubscriptionLog) (hooklog : SubscriptionLog) :
    attempt.commit log hooklog = commitOf attempt.subscriptionDeleted log hooklog := by
  rw [commit, h]

/-- The commit where there is no constraint to violate. -/
def LoggedAttempt.commitAlone (attempt : LoggedAttempt) : Except DatabaseError Unit :=
  match attempt.databaseError with
  | some text => .error (.other text)
  | none => .ok ()

theorem LoggedAttempt.inserts_commitAlone_iff {attempt : LoggedAttempt} :
    Inserts attempt.commitAlone ↔ attempt.databaseError = none := by
  unfold commitAlone
  cases attempt.databaseError with
  | none => exact iff_of_true rfl rfl
  | some text => exact iff_of_false nofun nofun

structure LoggedRun where
  submitted : SubscriptionLog
  log : List SubscriptionLog
  ending : Except DatabaseError TaskEnd

section Run
variable (config : HookConfig) (hookUuid : String) (subscription : SubscriptionDict) (event : Json)
  (retries : ℕ)

/-- The row that an attempt submits, which does not depend on the table. -/
def submittedLog (attempt : Attempt) : SubscriptionLog :=
  (hookRunnerTask config hookUuid subscription event retries attempt []).submitted

def loggedRun (attempt : LoggedAttempt) (log : List SubscriptionLog) : LoggedRun :=
  let hooklog := submittedLog config hookUuid subscription event retries attempt.toAttempt
  let commit := attempt.commit log hooklog
  { submitted := hooklog
    log := match commit with
      | .ok () => log ++ [hooklog]
      | .error _ => log
    ending := hookRunnerEnding config retries attempt.outcome commit }

theorem submitHookLog_submitted (attempt : Attempt) (log : List SubscriptionLog)
    (hooklog : SubscriptionLog) (next : TaskEnd) :
    (submitHookLog attempt log hooklog next).submitted = hooklog :=
  (submitHookLog_ending attempt log hooklog next).1

theorem hookRunnerTask_submitted (attempt : Attempt) (log : List SubscriptionLog) :
    (hookRunnerTask config hookUuid subscription event retries attempt log).submitted =
      submittedLog config hookUuid subscription event retries attempt := by
  unfold submittedLog hookRunnerTask
  cases attempt.outcome <;> simp only [submitHookLog_submitted]

theorem submittedLog_deleted (attempt : Attempt) (deleted : Bool) :
    submittedLog config hookUuid subscription event retries
        { attempt with subscriptionDeleted := deleted } =
      submittedLog config hookUuid subscription event retries attempt := by
  unfold submittedLog hookRunnerTask
  dsimp only
  cases attempt.outcome <;> simp only [submitHookLog_submitted] <;> rfl

variable {config hookUuid subscription event retries} in
theorem loggedRun_of_ok {attempt : LoggedAttempt} {log : List SubscriptionLog}
    {hooklog : SubscriptionLog}
    (hs : submittedLog config hookUuid subscription event retries attempt.toAttempt = hooklog)
    (h : attempt.commit log hooklog = .ok ()) :
    loggedRun config hookUuid subscription event retries attempt log =
      ⟨hooklog, log ++ [hooklog], hookRunnerEnding config retries attempt.outcome (.ok ())⟩ := by
  simp only [loggedRun, hs, h]

variable {config hookUuid subscription event retries} in
theorem loggedRun_of_error {attempt : LoggedAttempt} {log : List SubscriptionLog}
    {hooklog : SubscriptionLog} {e : DatabaseError}
    (hs : submittedLog config hookUuid subscription event retries attempt.toAttempt = hooklog)
    (h : attempt.commit log hooklog = .error e) :
    loggedRun config hookUuid subscription event retries attempt log =
      ⟨hooklog, log, hookRunnerEnding config retries attempt.outcome (.error e)⟩ := by
  simp only [loggedRun, hs, h]

theorem submitHookLog_log (attempt : Attempt) (log : List SubscriptionLog)
    (hooklog : SubscriptionLog) (next : TaskEnd) :
    (submitHookLog attempt log hooklog next).log =
      match commitOf attempt.subscriptionDeleted log hooklog with
      | .ok () => log ++ [hooklog]
      | .error _ => log := by
  unfold submitHookLog createHookLog commitOf
  split_ifs <;> rfl

/-- Where only the two constraints can be violated it is the run of the task. -/
theorem loggedRun_eq {attempt : LoggedAttempt} (h : attempt.databaseError = none)
    (log : List SubscriptionLog) :
    let run := hookRunnerTask config hookUuid subscription event retries attempt.toAttempt log
    let logged := loggedRun config hookUuid subscription event retries attempt log
    logged.submitted = run.submitted ∧ logged.log = run.log ∧
      run.ending = match logged.ending with
        | .ok ending => ending
        | .error _ => .integrityError .uniqueViolation := by
  intro run logged
  have hsubmitted : run.submitted =
      submittedLog config hookUuid subscription event retries attempt.toAttempt :=
    hookRunnerTask_submitted config hookUuid subscription event retries attempt.toAttempt log
  have hcommit := attempt.commit_of_none h log
  refine ⟨hsubmitted.symm, ?_, ?_⟩
  · have hlog : logged.log = match commitOf attempt.subscriptionDeleted log run.submitted with
        | .ok () => log ++ [run.submitted]
        | .error _ => log := by
      rw [hsubmitted]
      simp only [logged, loggedRun, hcommit]
    rw [hlog]
    change _ = (hookRunnerTask config hookUuid subscription event retries attempt.toAttempt
      log).log
    simp only [run]
    unfold hookRunnerTask
    cases attempt.outcome <;> simp only [submitHookLog_submitted, submitHookLog_log]
  · have hending := hookRunnerTask_ending config hookUuid subscription event retries
      attempt.toAttempt log
    change run.ending = _ at hending
    rw [hending, hookRunnerTask_submitted]
    simp only [logged, loggedRun, hcommit]

end Run

section Attempts
variable (config : HookConfig)

theorem hookRunnerEnding_cases (retries : ℕ) (outcome : HookOutcome)
    (commit : Except DatabaseError Unit) :
    (GoesOn config retries outcome ∧ Inserts commit ∧
      ∃ countdown, hookRunnerEnding config retries outcome commit = .ok (.retry countdown)) ∨
    (¬ (GoesOn config retries outcome ∧ Inserts commit) ∧
      ∀ countdown, hookRunnerEnding config retries outcome commit ≠ .ok (.retry countdown)) := by
  by_cases hi : Inserts commit
  · have hok : createHookLogResult commit = .ok () := hi
    unfold hookRunnerEnding
    rw [hok]
    cases outcome with
    | hookRetry detail =>
      by_cases hlt : (retries : ℤ) + 1 < config.hookMaxAttempts
      · have hnot : ¬ (retries : ℤ) + 1 ≥ config.hookMaxAttempts := not_le.mpr hlt
        have hroom : ¬ (retries : ℤ) + 1 > config.hookMaxAttempts - 1 := by omega
        refine .inl ⟨⟨trivial, hlt⟩, hi, config.hookHttpRetryCountdownFactor ^ retries, ?_⟩
        dsimp only
        rw [if_neg hnot, taskRetry, if_neg hroom]
        rfl
      · refine .inr ⟨fun h => hlt h.1.2, fun countdown h => ?_⟩
        dsimp only at h
        rw [if_pos (not_lt.mp hlt)] at h
        cases h
    | _ => exact .inr ⟨fun h => h.1.1, fun countdown h => by cases h⟩
  · obtain ⟨e, he⟩ := createHookLogResult_of_not hi
    refine .inr ⟨fun h => hi h.2, fun countdown h => ?_⟩
    unfold hookRunnerEnding at h
    rw [he] at h
    cases outcome <;> cases h

/-- The attempts of a delivery, by the number of retries before each: the worker runs the task
again as long as it ends with a retry. -/
def attempts (outcomes : ℕ → HookOutcome) (commits : ℕ → Except DatabaseError Unit)
    (retries : ℕ) : List ℕ :=
  match hr : hookRunnerEnding config retries (outcomes retries) (commits retries) with
  | .ok (.retry _) => retries :: attempts outcomes commits (retries + 1)
  | _ => [retries]
termination_by (config.hookMaxAttempts - retries).toNat
decreasing_by
  rcases hookRunnerEnding_cases config retries (outcomes retries) (commits retries) with
    ⟨hg, -, -⟩ | ⟨-, hnot⟩
  · have := hg.2
    omega
  · exact absurd hr (hnot _)

variable {outcomes : ℕ → HookOutcome} {commits : ℕ → Except DatabaseError Unit} {retries : ℕ}

theorem attempts_of_goesOn (hg : GoesOn config retries (outcomes retries))
    (hi : Inserts (commits retries)) :
    attempts config outcomes commits retries =
      retries :: attempts config outcomes commits (retries + 1) := by
  rcases hookRunnerEnding_cases config retries (outcomes retries) (commits retries) with
    ⟨-, -, countdown, hr⟩ | ⟨hnot, -⟩
  · rw [attempts]
    split
    · rfl
    · next hne => exact absurd hr (hne countdown)
  · exact absurd ⟨hg, hi⟩ hnot

theorem attempts_of_not
    (hnot : ¬ (GoesOn config retries (outcomes retries) ∧ Inserts (commits retries))) :
    attempts config outcomes commits retries = [retries] := by
  rcases hookRunnerEnding_cases config retries (outcomes retries) (commits retries) with
    ⟨hg, hi, -⟩ | ⟨-, hne⟩
  · exact absurd ⟨hg, hi⟩ hnot
  · rw [attempts]
    split
    · next hr => exact absurd hr (hne _)
    · rfl

theorem attempts_ne_nil (config : HookConfig) (outcomes : ℕ → HookOutcome)
    (commits : ℕ → Except DatabaseError Unit) (retries : ℕ) :
    attempts config outcomes commits retries ≠ [] := by
  rw [attempts]
  split <;> exact List.cons_ne_nil _ _

theorem attempts_spec (config : HookConfig) (outcomes : ℕ → HookOutcome)
    (commits : ℕ → Except DatabaseError Unit) (retries : ℕ) :
    ∃ n, attempts config outcomes commits retries =
        (List.range (n + 1)).map (retries + ·) ∧
      (∀ i < n, GoesOn config (retries + i) (outcomes (retries + i)) ∧
        Inserts (commits (retries + i))) ∧
      ¬ (GoesOn config (retries + n) (outcomes (retries + n)) ∧
        Inserts (commits (retries + n))) := by
  induction hm : (config.hookMaxAttempts - retries).toNat using Nat.strong_induction_on
    generalizing retries with
  | _ m ih =>
    by_cases hg : GoesOn config retries (outcomes retries) ∧ Inserts (commits retries)
    · have hlt := hg.1.2
      obtain ⟨n, heq, hgo, hstop⟩ := ih _ (by omega) (retries + 1) rfl
      have hshift : ∀ i, retries + 1 + i = retries + (i + 1) := fun i => by omega
      simp only [hshift] at heq hgo hstop
      refine ⟨n + 1, ?_, ?_, hstop⟩
      · rw [attempts_of_goesOn config hg.1 hg.2, heq, List.range_succ_eq_map (n := n + 1),
          List.map_cons, List.map_map]
        rfl
      · intro i hi
        cases i with
        | zero => exact hg
        | succ i => exact hgo i (by omega)
    · refine ⟨0, ?_, fun i hi => absurd hi (Nat.not_lt_zero i), hg⟩
      rw [attempts_of_not config hg]
      rfl

theorem length_attempts_le (config : HookConfig) (outcomes : ℕ → HookOutcome)
    (commits : ℕ → Except DatabaseError Unit) :
    (attempts config outcomes commits 0).length ≤ (max 1 config.hookMaxAttempts).toNat := by
  obtain ⟨n, heq, hgo, -⟩ := attempts_spec config outcomes commits 0
  rw [heq, List.length_map, List.length_range]
  cases n with
  | zero => omega
  | succ n =>
    have hroom := (hgo n (Nat.lt_succ_self n)).1.2
    push_cast at hroom
    omega

/-- Of the attempts that ask for a retry, from `retries` on, the first whose insertion raises in
one of two deliveries is one whose insertion raises in both. -/
def SameRefusal (outcomes : ℕ → HookOutcome) (commits commits' : ℕ → Except DatabaseError Unit)
    (retries : ℕ) : Prop :=
  ∀ i, (∀ j ≤ i, GoesOn config (retries + j) (outcomes (retries + j))) →
    (∀ j < i, Inserts (commits (retries + j)) ∧ Inserts (commits' (retries + j))) →
    (Inserts (commits (retries + i)) ↔ Inserts (commits' (retries + i)))

variable {commits' : ℕ → Except DatabaseError Unit}

theorem sameRefusal_of_not (hg : ¬ GoesOn config retries (outcomes retries)) :
    SameRefusal config outcomes commits commits' retries :=
  fun _ hall _ => absurd (hall 0 (Nat.zero_le _)) hg

theorem sameRefusal_succ (hg : GoesOn config retries (outcomes retries))
    (hi : Inserts (commits retries)) (hi' : Inserts (commits' retries)) :
    SameRefusal config outcomes commits commits' retries ↔
      SameRefusal config outcomes commits commits' (retries + 1) := by
  have hshift : ∀ i, retries + 1 + i = retries + (i + 1) := fun i => by omega
  unfold SameRefusal
  simp only [hshift]
  constructor
  · intro h i hall hbefore
    refine h (i + 1) (fun j hj => ?_) fun j hj => ?_
    · cases j with
      | zero => exact hg
      | succ j => exact hall j (by omega)
    · cases j with
      | zero => exact ⟨hi, hi'⟩
      | succ j => exact hbefore j (by omega)
  · intro h i hall hbefore
    cases i with
    | zero => exact iff_of_true hi hi'
    | succ i =>
      exact h i (fun j hj => hall (j + 1) (by omega)) fun j hj => hbefore (j + 1) (by omega)

theorem attempts_eq_iff_sameRefusal (retries : ℕ) :
    attempts config outcomes commits retries = attempts config outcomes commits' retries ↔
      SameRefusal config outcomes commits commits' retries := by
  induction hm : (config.hookMaxAttempts - retries).toNat using Nat.strong_induction_on
    generalizing retries with
  | _ m ih =>
    by_cases hg : GoesOn config retries (outcomes retries)
    · by_cases hi : Inserts (commits retries)
      · by_cases hi' : Inserts (commits' retries)
        · have hlt := hg.2
          rw [attempts_of_goesOn config hg hi, attempts_of_goesOn config hg hi',
            List.cons_eq_cons, and_iff_right rfl, sameRefusal_succ config hg hi hi']
          exact ih _ (by omega) (retries + 1) rfl
        · rw [attempts_of_goesOn config hg hi, attempts_of_not config fun h => hi' h.2]
          refine iff_of_false ?_ fun h => ?_
          · exact fun h => attempts_ne_nil _ _ _ _ (List.cons.inj h).2
          · exact hi' ((h 0 (by simpa using hg) (by simp)).mp hi)
      · by_cases hi' : Inserts (commits' retries)
        · rw [attempts_of_goesOn config hg hi', attempts_of_not config fun h => hi h.2]
          refine iff_of_false ?_ fun h => ?_
          · exact fun h => attempts_ne_nil _ _ _ _ (List.cons.inj h).2.symm
          · exact hi ((h 0 (by simpa using hg) (by simp)).mpr hi')
        · rw [attempts_of_not config fun h => hi h.2, attempts_of_not config fun h => hi' h.2]
          refine iff_of_true rfl fun i hall hbefore => ?_
          cases i with
          | zero => exact iff_of_false hi hi'
          | succ i => exact absurd (hbefore 0 (Nat.succ_pos i)).1 hi
    · rw [attempts_of_not config fun h => hg h.1, attempts_of_not config fun h => hg h.1]
      exact iff_of_true rfl (sameRefusal_of_not config hg)

/-- Two deliveries of the same outcomes make the same attempts if and only if the first insertion
that raises, at an attempt to be retried, does so in both; and all the attempts are made if and
only if no such insertion raises. -/
theorem attempts_eq_iff (outcomes : ℕ → HookOutcome)
    (commits commits' : ℕ → Except DatabaseError Unit) :
    (attempts config outcomes commits 0 = attempts config outcomes commits' 0 ↔
      SameRefusal config outcomes commits commits' 0) ∧
    (attempts config outcomes commits 0 = attempts config outcomes (fun _ => .ok ()) 0 ↔
      ∀ i, (∀ j ≤ i, GoesOn config j (outcomes j)) → Inserts (commits i)) := by
  refine ⟨attempts_eq_iff_sameRefusal config 0, ?_⟩
  rw [attempts_eq_iff_sameRefusal]
  unfold SameRefusal
  simp only [Nat.zero_add]
  constructor
  · intro h i hall
    induction i using Nat.strong_induction_on with
    | _ i ih =>
      have hbefore : ∀ j < i, Inserts (commits j) := fun j hj =>
        ih j hj fun k hk => hall k (hk.trans hj.le)
      exact (h i hall fun j hj => ⟨hbefore j hj, rfl⟩).mpr rfl
  · exact fun h i hall _ => iff_of_true (h i hall) rfl

end Attempts

def flakyOutcome (i : ℕ) : HookOutcome := (flakyAttempt i).outcome

/-- The connection is lost before the first commit: the retry does not happen. -/
theorem attempts_of_rejected_detail :
    let commits : ℕ → Except DatabaseError Unit := fun i =>
      if i = 0 then .error (.other "server closed the connection unexpectedly") else .ok ()
    attempts ⟨10, 2⟩ flakyOutcome commits 0 = [0] ∧
      attempts ⟨10, 2⟩ flakyOutcome (fun _ => .ok ()) 0 = [0, 1, 2] := by
  intro commits
  have hfirst : GoesOn ⟨10, 2⟩ 0 (flakyOutcome 0) := ⟨trivial, by decide⟩
  have hsecond : GoesOn ⟨10, 2⟩ 1 (flakyOutcome 1) := ⟨trivial, by decide⟩
  have hthird : ¬ GoesOn ⟨10, 2⟩ 2 (flakyOutcome 2) := fun h => h.1
  have hrefused : ¬ Inserts (commits 0) := by decide
  have hstored : Inserts (.ok ()) := rfl
  constructor
  · exact attempts_of_not _ fun h => hrefused h.2
  · rw [attempts_of_goesOn _ hfirst hstored, attempts_of_goesOn _ hsecond hstored,
      attempts_of_not _ fun h => hthird h.1]

end WazoWebhookd
