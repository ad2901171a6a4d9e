import WazoWebhookd.Hook.EndToEnd
import WazoWebhookd.Library.Retry

/-! The exchange of a hook with the services it calls, over all attempts of its delivery: what the
workers do of it, and what their logs tell. -/
namespace WazoWebhookd

namespace HookTask
variable (world : String → ℕ → LoggedAttempt) (t : HookTask)

/-- The attempts of a hook that starts anew: all but the last one are retried. -/
theorem attemptsAlone_spec (ht : t.retries = 0) :
    ∃ n, t.attemptsAlone world = List.range (n + 1) ∧
      (∀ i < n, GoesOn t.config i (world t.hookUuid i).outcome ∧
        (world t.hookUuid i).databaseError = none) ∧
      ¬ (GoesOn t.config n (world t.hookUuid n).outcome ∧
        (world t.hookUuid n).databaseError = none) := by
  obtain ⟨n, heq, hgo, hstop⟩ := attempts_spec t.config (fun i => (world t.hookUuid i).outcome)
    (fun i => (world t.hookUuid i).commitAlone) t.retries
  rw [ht] at heq hgo hstop
  simp only [Nat.zero_add, List.map_id', LoggedAttempt.inserts_commitAlone_iff] at heq hgo hstop
  refine ⟨n, ?_, hgo, hstop⟩
  rw [attemptsAlone, ht]
  exact heq

/-- The row of an attempt tells a retry as a failure, and else how the attempt went. -/
theorem row_status : (t.row world).status = .failure ∧
      GoesOn t.config t.retries (world t.hookUuid t.retries).outcome ∨
    (t.row world).status = (world t.hookUuid t.retries).outcome.lastStatus ∧
      ¬ GoesOn t.config t.retries (world t.hookUuid t.retries).outcome := by
  unfold row submittedLog hookRunnerTask GoesOn
  cases (world t.hookUuid t.retries).outcome with
  | hookRetry detail =>
    simp only [submitHookLog_submitted, hookLog]
    by_cases hlt : (t.retries : ℤ) + 1 < t.config.hookMaxAttempts
    · exact .inl ⟨if_neg (not_le.mpr hlt), trivial, hlt⟩
    · exact .inr ⟨if_pos (not_lt.mp hlt), fun h => hlt h.2⟩
  | success detail => exact .inr ⟨by simp only [submitHookLog_submitted]; rfl, fun h => h.1⟩
  | hookExpectedError detail =>
    exact .inr ⟨by simp only [submitHookLog_submitted]; rfl, fun h => h.1⟩
  | exception message => exact .inr ⟨by simp only [submitHookLog_submitted]; rfl, fun h => h.1⟩

end HookTask

theorem HookOutcome.lastStatus_eq_success_iff {outcome : HookOutcome} :
    outcome.lastStatus = .success ↔ ∃ detail, outcome = .success detail := by
  cases outcome <;> simp [lastStatus]

theorem HookOutcome.lastStatus_eq_error_iff {outcome : HookOutcome} :
    outcome.lastStatus = .error ↔ ¬ outcome.lastStatus = .success := by
  cases outcome <;> simp [lastStatus]

section Exchange
variable {C : Type}

/-- The contacts of the attempts of a task, and which of them it takes for a retry and for a
success. -/
structure Tells (retryable succeeds : C → Prop) (contacts : ℕ → C)
    (world : String → ℕ → LoggedAttempt) (t : HookTask) : Prop where
  retry_iff : ∀ i, (world t.hookUuid i).outcome.IsRetry ↔ retryable (contacts i)
  success_iff : ∀ i, (∃ detail, (world t.hookUuid i).outcome = .success detail) ↔
    succeeds (contacts i)

open Classical in
/-- There is a next contact after this one, whose log the database has taken. -/
noncomputable def contactAgain (retryable : C → Prop) (logged : ℕ → Prop) (contacts : ℕ → C)
    (i : ℕ) : Bool :=
  decide (retryable (contacts i) ∧ logged i)

/-- The contacts of a delivery, which goes on for as long as they, the database and the
configuration allow. -/
noncomputable def exchange (retryable : C → Prop) (logged : ℕ → Prop) (maxAttempts : ℤ)
    (contacts : ℕ → C) : List C :=
  (Retry.seen (contactAgain retryable logged contacts) (max 1 maxAttempts).toNat id).map contacts

variable {retryable succeeds : C → Prop} {logged : ℕ → Prop} {contacts : ℕ → C}
  {world : String → ℕ → LoggedAttempt} {t : HookTask}

open Classical in
theorem contactAgain_iff {i : ℕ} :
    contactAgain retryable logged contacts i = true ↔ retryable (contacts i) ∧ logged i :=
  decide_eq_true_iff

theorem eq_of_getElem?_exchange {maxAttempts : ℤ} {i : ℕ} {c : C}
    (h : (exchange retryable logged maxAttempts contacts)[i]? = some c) : contacts i = c := by
  rw [exchange, List.getElem?_map, Option.map_eq_some_iff] at h
  obtain ⟨j, hj, hc⟩ := h
  rw [← hc, ← Retry.eq_of_getElem?_seen hj]
  rfl

/-- Only the last contact is one after which there is no retry. -/
theorem isChain_exchange (maxAttempts : ℤ) {p : C → Prop} (h : ∀ c, retryable c → p c) :
    (exchange retryable logged maxAttempts contacts).IsChain fun c _ => p c := by
  rw [exchange, List.isChain_map]
  refine (Retry.isChain_seen_iff _ _).mpr fun i _ hall => ?_
  exact h _ (contactAgain_iff.mp (hall i le_rfl)).1

theorem exchange_of_not (h : ¬ retryable (contacts 0)) (maxAttempts : ℤ) :
    exchange retryable logged maxAttempts contacts = [contacts 0] := by
  obtain ⟨limit, hlimit⟩ : ∃ limit, (max 1 maxAttempts).toNat = limit + 1 :=
    Nat.exists_eq_succ_of_ne_zero (by omega)
  rw [exchange, hlimit, Retry.seen_of_not]
  · rfl
  · exact fun hagain => h (contactAgain_iff.mp hagain).1

namespace Tells

theorem goesOn_iff (h : Tells retryable succeeds contacts world t) (i : ℕ) :
    GoesOn t.config i (world t.hookUuid i).outcome ↔
      retryable (contacts i) ∧ (i : ℤ) + 1 < t.config.hookMaxAttempts := by
  unfold GoesOn
  exact and_congr_left' (h.retry_iff i)

/-- The attempts that a hook makes alone are the contacts. -/
theorem exchange_eq (h : Tells retryable succeeds contacts world t) (ht : t.retries = 0) :
    exchange retryable (fun i => (world t.hookUuid i).databaseError = none)
        t.config.hookMaxAttempts contacts =
      (t.attemptsAlone world).map contacts := by
  obtain ⟨n, hattempts, hgo, hstop⟩ := t.attemptsAlone_spec world ht
  have hroom : n = 0 ∨ (n : ℤ) < t.config.hookMaxAttempts := by
    cases n with
    | zero => exact .inl rfl
    | succ n =>
      have hlast := (hgo n (Nat.lt_succ_self n)).1.2
      exact .inr (by push_cast; exact hlast)
  rw [exchange, hattempts, Retry.seen_eq_map_range (n := n) (by omega), List.map_id]
  · intro i hi
    obtain ⟨hgoes, hlogged⟩ := hgo i hi
    exact contactAgain_iff.mpr ⟨((h.goesOn_iff i).mp hgoes).1, hlogged⟩
  · intro hlimit hagain
    obtain ⟨hretryable, hlogged⟩ := contactAgain_iff.mp hagain
    exact hstop ⟨(h.goesOn_iff n).mpr ⟨hretryable, by omega⟩, hlogged⟩

/-- A delivery whose first contact is not retried is one attempt, of which it leaves one row. -/
theorem row_of_not (h : Tells retryable succeeds contacts world t) (ht : t.retries = 0)
    (hfirst : ¬ retryable (contacts 0)) :
    (t.alone world).length ≤ 1 ∧ ∀ row ∈ t.alone world,
      row.attempts = 1 ∧ row.status = (world t.hookUuid 0).outcome.lastStatus := by
  have hgoes : ¬ GoesOn t.config t.retries (world t.hookUuid t.retries).outcome := by
    rw [ht]
    exact fun hgoes => hfirst ((h.goesOn_iff 0).mp hgoes).1
  have hone : t.attemptsAlone world = [t.retries] :=
    HookTask.attemptsAlone_of_last fun hnext => hgoes hnext.1
  unfold HookTask.alone
  rw [hone]
  refine ⟨List.length_filterMap_le _ _, fun row hrow => ?_⟩
  obtain ⟨i, hi, hstored⟩ := List.mem_filterMap.mp hrow
  obtain rfl : i = t.retries := List.mem_singleton.mp hi
  obtain ⟨-, rfl⟩ := HookTask.stored_eq_some hstored
  obtain ⟨-, hattempts, -⟩ := t.row_key world
  rcases t.row_status world with ⟨-, hgoes'⟩ | ⟨hstatus, -⟩
  · exact absurd hgoes' hgoes
  · rw [ht] at hattempts hstatus
    exact ⟨hattempts, hstatus⟩

end Tells

section Runs
variable {serviceManager : String → Option EntryPoint} {config : HookConfig} {master : String}
  {w : World} {ls : List SystemStep}

/-- Of the exchange of a hook, the workers have made a first part, and all of it once the hook is
done. -/
theorem WebhookSystem.made_of_exchange (hw : Constraints w.database)
    (hv : Run.Along (WebhookSystem.step serviceManager config master world)
      (WebhookSystem.Valid serviceManager config master) (.start w) ls)
    {pre post : List SystemStep} {m : Message} {d : BusDelivery}
    (hls : ls = pre ++ .message m d :: post)
    (ht : t ∈ (pre.foldl (WebhookSystem.step serviceManager config master world)
      (.start w)).tasksOf serviceManager config m d)
    (htells : Tells retryable succeeds contacts world t) :
    let attempts := (WebhookSystem.start w).pool.attempts world
      ((WebhookSystem.start w).poolRun serviceManager config master world ls)
    let made := (attempts.filter fun a => a.1 = t.hookUuid).map fun a => contacts (a.2 - 1)
    let whole := exchange retryable (fun i => (world t.hookUuid i).databaseError = none)
      t.config.hookMaxAttempts contacts
    made <+: whole ∧
      ((∀ t' ∈ (ls.foldl (WebhookSystem.step serviceManager config master world)
        (.start w)).pool.tasks, t'.hookUuid ≠ t.hookUuid) → made = whole) := by
  intro attempts made whole
  obtain ⟨p, jobs, h, hjobs, hkeys⟩ := WebhookSystem.exists_shadow hw hv
  have hjob := (hjobs t.hookUuid t).mpr ⟨⟨pre, m, d, post, hls, ht⟩, rfl⟩
  have hzero : t.retries = 0 := (WebhookSystem.mem_tasksOf ht).1
  obtain ⟨hfirst, hall⟩ := h.shares.prefix_solo hjob
  have hmade : made = (p.recorded t.hookUuid).map fun t' => contacts t'.retries := by
    have hnumbers := congrArg (List.map fun i => contacts (i - 1)) (trailKeys_filter p t.hookUuid)
    rw [List.map_map, List.map_map] at hnumbers
    have hattempts : attempts = trailKeys p := hkeys.symm
    change (attempts.filter _).map _ = _
    rw [hattempts]
    exact hnumbers
  have hwhole : whole = ((hookAttempts world).solo t).map fun t' => contacts t'.retries := by
    rw [t.solo_eq world, List.map_map]
    exact htells.exchange_eq hzero
  constructor
  · rw [hmade, hwhole]
    exact hfirst.map _
  · intro hdone
    rw [hmade, hwhole, hall (h.queue_eq_none hdone)]

end Runs

end Exchange

end WazoWebhookd
