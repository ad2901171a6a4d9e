import WazoWebhookd.Subscription.Daemon

/-! Whoever follows the lifecycle events of the bus, and what such an observer knows of the stored
subscriptions. -/
namespace WazoWebhookd
open Failing

namespace LifecycleEvent

def kind : LifecycleEvent → Lifecycle
  | .full kind _ _ => kind
  | .user kind _ _ _ => kind

def uuid : LifecycleEvent → String
  | .full _ subscription _ => subscription.uuid
  | .user _ subscription _ _ => subscription.uuid

/-- What an event says of its subscription, apart from what happened to it. -/
def asCreated : LifecycleEvent → LifecycleEvent
  | .full _ subscription tenantUuid => .full .created subscription tenantUuid
  | .user _ subscription tenantUuid userUuid => .user .created subscription tenantUuid userUuid

end LifecycleEvent

/-- What an observer knows after one more event. -/
def observe (known : List LifecycleEvent) (e : LifecycleEvent) : List LifecycleEvent :=
  match e.kind with
  | .created => known ++ [e.asCreated]
  | .updated => known.map fun k => if k.uuid = e.uuid then e.asCreated else k
  | .deleted => known.filter fun k => k.uuid ≠ e.uuid

section Observe

@[simp] theorem kind_lifecycleEvent (kind : Lifecycle) (s : Subscription) :
    (lifecycleEvent kind s).kind = kind := by
  unfold lifecycleEvent
  cases truthy s.ownerUserUuid <;> rfl

@[simp] theorem uuid_lifecycleEvent (kind : Lifecycle) (s : Subscription) :
    (lifecycleEvent kind s).uuid = s.uuid := by
  unfold lifecycleEvent
  cases truthy s.ownerUserUuid <;> rfl

@[simp] theorem asCreated_lifecycleEvent (kind : Lifecycle) (s : Subscription) :
    (lifecycleEvent kind s).asCreated = lifecycleEvent .created s := by
  unfold lifecycleEvent
  cases truthy s.ownerUserUuid <;> rfl

def tell (database : List Subscription) : List LifecycleEvent :=
  database.map (lifecycleEvent .created)

theorem observe_tell (database : List Subscription) (n : Notification) :
    observe (tell database) n.lifecycleEvent = tell (liveAfter database n) := by
  cases n with
  | created s =>
    simp [observe, tell, liveAfter, Notification.lifecycleEvent, SubscriptionNotifier.created]
  | updated s order =>
    simp only [observe, tell, liveAfter, Notification.lifecycleEvent, SubscriptionNotifier.updated,
      kind_lifecycleEvent, List.map_map]
    refine List.map_congr_left fun t _ => ?_
    simp only [Function.comp_apply, uuid_lifecycleEvent, asCreated_lifecycleEvent]
    split_ifs <;> rfl
  | deleted s =>
    simp only [observe, tell, liveAfter, Notification.lifecycleEvent, SubscriptionNotifier.deleted,
      kind_lifecycleEvent, List.filter_map]
    congr 1
    refine List.filter_congr fun t _ => ?_
    simp

end Observe

section Follow
variable (master : String) (base : List LifecycleEvent)

/-- The observer knows the stored subscriptions. -/
def World.Followed (w : World) : Prop := w.busLog.foldl observe base = tell w.database

/-- A call that fails to commit has announced nothing, or nothing that could be told; a
synchronisation finds nothing to remove. -/
def World.Tells (w : World) : DaemonStep → Prop
  | .call fault call =>
    fault = some .commit → ∀ n h, call.announced w.database = some n →
      w.handler.handle master n = .ok h → tell (liveAfter w.database n) = tell w.database
  | .sync iteration authTenants authUsers =>
    SyncDb.sync iteration authTenants authUsers w.database = w.database
  | .restart _ => True

variable {master base} {w : World}

theorem followed_call_iff (hc : Constraints w.database) (hw : w.Followed base)
    (fault : Option Fault) (call : ServiceCall) :
    (w.step master (.call fault call)).Followed base ↔ w.Tells master (.call fault call) := by
  change (exec (call.run master fault) w).2.Followed base ↔ _
  by_cases hearly : call.announced w.database = none ∨ call.EarlyFault fault
  · obtain ⟨e, he⟩ := call.exec_run_early master hearly
    rw [he]
    refine iff_of_true hw ?_
    rintro rfl n h hn
    rcases hearly with hnone | hfault
    · cases hnone.symm.trans hn
    · cases call <;> simp [ServiceCall.EarlyFault] at hfault
  · obtain ⟨hnone, hf⟩ := not_or.mp hearly
    obtain ⟨n, ha⟩ := Option.ne_none_iff_exists'.mp hnone
    rw [ServiceCall.exec_run_announced hc ha hf, outcome]
    have hobserved : (w.busLog ++ [n.lifecycleEvent]).foldl observe base =
        tell (liveAfter w.database n) := by
      rw [List.foldl_append, hw]
      exact observe_tell w.database n
    cases hh : w.handler.handle master n with
    | error e =>
      refine iff_of_true hw ?_
      rintro - n' h hn hok
      rw [ha, Option.some.injEq] at hn
      rw [← hn, hh] at hok
      cases hok
    | ok h =>
      dsimp only
      split_ifs with hnotifier hcommit
      · refine iff_of_true hw ?_
        intro hcommit
        cases hnotifier.symm.trans hcommit
      · unfold World.Followed World.Tells
        rw [hobserved]
        constructor
        · intro hsame _ n' h' hn _
          rw [ha, Option.some.injEq] at hn
          exact hn ▸ hsame
        · intro htells
          exact htells hcommit n h ha hh
      · refine iff_of_true hobserved ?_
        intro hfault
        exact absurd hfault hcommit

theorem followed_sync_iff (hw : w.Followed base) (iteration : SetIteration)
    (authTenants authUsers : Finset String) :
    (w.step master (.sync iteration authTenants authUsers)).Followed base ↔
      w.Tells master (.sync iteration authTenants authUsers) := by
  change w.busLog.foldl observe base = tell (SyncDb.sync iteration authTenants authUsers
    w.database) ↔ SyncDb.sync iteration authTenants authUsers w.database = w.database
  rw [hw]
  have hsub : (SyncDb.sync iteration authTenants authUsers w.database).Sublist w.database := by
    unfold SyncDb.sync SyncDb.removeUsers SyncDb.removeTenants
    simp only [SyncDb.removeUser, SyncDb.removeTenant, KeyedList.foldl_filter]
    exact List.filter_sublist.trans List.filter_sublist
  constructor
  · intro htell
    refine hsub.eq_of_length ?_
    have hlength := congrArg List.length htell
    rw [tell, tell, List.length_map, List.length_map] at hlength
    exact hlength.symm
  · intro hsame
    rw [hsame]

theorem followed_step_iff (hc : Constraints w.database) (hw : w.Followed base) (l : DaemonStep) :
    (w.step master l).Followed base ↔ w.Tells master l := by
  cases l with
  | call fault call => exact followed_call_iff hc hw fault call
  | sync iteration authTenants authUsers =>
    exact followed_sync_iff hw iteration authTenants authUsers
  | restart rows => exact iff_of_true hw trivial

variable (master base)

/-- An observer of the lifecycle events knows the stored subscriptions in every state of a run
exactly when no call of it fails to commit what it announced and no row is removed offline. -/
theorem observers_follow_iff (hc : Constraints w.database) (hw : w.Followed base)
    (history : List DaemonStep) :
    Run.Always (World.step master) (World.Followed base) w history ↔
      Run.Along (World.step master) (World.Tells master) w history := by
  have htrivial : Run.Along (World.step master) (fun _ _ => True) w history :=
    Run.along_of_invariant (J := fun _ => True) (fun _ _ _ => trivial) (fun _ _ _ => trivial)
      trivial history
  refine Run.always_iff_along (J := fun w => Constraints w.database) (W := fun _ _ => True)
    ?_ ?_ hc hw htrivial
  · intro σ l hσ _
    exact World.constraints_step hσ l
  · intro σ l hσ hfollowed _
    exact followed_step_iff hσ hfollowed l

end Follow

/-- A notifier that fails tells nothing, and nothing is stored; a commit that fails has told of
a subscription that is not. -/
theorem observers_follow_iff_missed_call :
    Run.Always (World.step "master") (World.Followed []) emptyWorld
        [.call (some .notifier) createMissedCall] ∧
      ¬ Run.Always (World.step "master") (World.Followed []) emptyWorld
        [.call (some .commit) createMissedCall] := by
  constructor
  · refine (observers_follow_iff "master" [] agreeing_emptyWorld.constraints rfl _).mpr
      ⟨?_, trivial⟩
    intro hfault
    cases hfault
  · intro hfollowed
    have hend := hfollowed _ List.prefix_rfl
    unfold World.Followed at hend
    exact absurd hend (by decide)

end WazoWebhookd
