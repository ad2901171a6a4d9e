import WazoWebhookd.Hook.WorkerPool
import WazoWebhookd.Subscription.PrivateHooks

/-! The whole system: a daemon and its celery workers over one database, from the messages of
the bus to the logs of the hooks. -/
namespace WazoWebhookd
open SubscriptionBusEventHandler

/-- The daemon with its database, and the workers, who see of the same database the keys of the
subscriptions and the logs. -/
structure WebhookSystem where
  daemon : World
  pool : WorkerPool

inductive SystemStep
  | daemon (l : DaemonStep)
  | message (m : Message) (d : BusDelivery)
  | work (i : ℕ)
  | purge (zone : SessionZone) (now daysToKeep : ℤ)

def HookRunnerArgs.task (args : HookRunnerArgs) : HookTask :=
  ⟨args.hookUuid, args.entryPointName, args.config, args.subscription, args.event, 0⟩

def HookTask.hook (task : HookTask) : Hook :=
  ⟨task.entryPointName, task.config, task.subscription, task.event⟩

section Accepted
variable (serviceManager : String → Option EntryPoint) (config : HookConfig)

/-- What the task queue takes of what the calls of a dispatch hand to it. -/
def BusDelivery.accepted (d : BusDelivery) (invoked : List (Entry Callback × HandlerArgs Json)) :
    List HookRunnerArgs :=
  invoked.zipIdx.filterMap fun call =>
    (hookRunnerArgs serviceManager config (d.hookUuid call.2) call.1.1.handler.subscription
      call.1.2.event).filter fun args => (d.delay call.2 args).isOk

theorem BusDelivery.accepted_sublist (d : BusDelivery)
    (invoked : List (Entry Callback × HandlerArgs Json)) :
    (d.accepted serviceManager config invoked).Sublist
      (d.submitted serviceManager config invoked) := by
  unfold accepted submitted
  induction invoked.zipIdx with
  | nil => exact List.Sublist.refl _
  | cons call calls ih =>
    rw [List.filterMap_cons, List.filterMap_cons]
    cases hookRunnerArgs serviceManager config (d.hookUuid call.2)
      call.1.1.handler.subscription call.1.2.event with
    | none => exact ih
    | some args =>
      rw [Option.filter_some]
      cases (d.delay call.2 args).isOk with
      | false => exact ih.cons _
      | true => exact ih.cons_cons _

variable {serviceManager config}

theorem hookOf_eq_some {subscription : SubscriptionDict} {event : Json} {hook : Hook}
    (h : hookOf serviceManager config subscription event = some hook) :
    hook.config = config ∧ hook.subscription = subscription ∧ hook.event = event := by
  obtain ⟨entryPoint, -, rfl⟩ := Option.map_eq_some_iff.mp h
  exact ⟨rfl, rfl, rfl⟩

theorem BusDelivery.mem_submitted_of_accepted {d : BusDelivery}
    {invoked : List (Entry Callback × HandlerArgs Json)} {args : HookRunnerArgs}
    (h : args ∈ d.accepted serviceManager config invoked) :
    args ∈ d.submitted serviceManager config invoked :=
  (d.accepted_sublist serviceManager config invoked).subset h

theorem BusDelivery.accepted_eq_submitted {d : BusDelivery} {c : Consumer Callback} {m : Message}
    {done : Dispatched Callback Json EnqueueError}
    (hdone : d.dispatch serviceManager config c m = .ok done)
    (h : ∀ e, ¬ d.Fails serviceManager config c m e) :
    d.accepted serviceManager config done.invoked =
      d.submitted serviceManager config done.invoked := by
  have hcalls := dispatchLoop_calls _ _ _ _ _ _ hdone
  refine List.filterMap_congr fun call hcall => ?_
  cases hargs : hookRunnerArgs serviceManager config (d.hookUuid call.2)
    call.1.1.handler.subscription call.1.2.event with
  | none => rfl
  | some args =>
    cases hdelay : d.delay call.2 args with
    | ok u => rw [Option.filter_some, hdelay, Except.isOk, Except.toBool, if_pos rfl]
    | error e =>
      have hat : done.invoked[call.2]? = some call.1 := List.mem_zipIdx_iff_getElem?.mp hcall
      rw [hcalls, List.getElem?_map, Option.map_eq_some_iff] at hat
      obtain ⟨entry, hentry, heq⟩ := hat
      refine absurd ⟨call.2, entry, hentry, ?_⟩ (h e)
      rw [← heq] at hargs
      have hcallback := callback_eq serviceManager config (d.hookUuid call.2) (d.delay call.2)
        entry.handler.subscription m.payload
      change hookRunnerArgs serviceManager config (d.hookUuid call.2) entry.handler.subscription
        m.payload = some args at hargs
      rw [hargs] at hcallback
      exact hcallback.trans hdelay

end Accepted

/-- What a change of the rows is for the workers. -/
def rowSteps (before after : List Subscription) : List PoolStep :=
  (((before.map (·.uuid)).filter fun uuid => uuid ∉ after.map (·.uuid)).map .unsubscribe) ++
    ((after.map (·.uuid)).filter fun uuid => uuid ∉ before.map (·.uuid)).map .subscribe

section System
variable (serviceManager : String → Option EntryPoint) (config : HookConfig) (master : String)
  (world : String → ℕ → LoggedAttempt)

namespace WebhookSystem

def start (w : World) : WebhookSystem :=
  ⟨w, (w.database.map (·.uuid)).toFinset, [], [], (w.database.map (·.uuid)).toFinset⟩

/-- The tasks that a message of the bus puts on the queue. A dispatch always returns. -/
def tasksOf (σ : WebhookSystem) (m : Message) (d : BusDelivery) : List HookTask :=
  match d.dispatch serviceManager config σ.daemon.handler.busConsumer m with
  | .ok done => (d.accepted serviceManager config done.invoked).map HookRunnerArgs.task
  | .error _ => []

def poolSteps (σ : WebhookSystem) : SystemStep → List PoolStep
  | .daemon l => rowSteps σ.daemon.database (σ.daemon.step master l).database
  | .message m d => (σ.tasksOf serviceManager config m d).map .enqueue
  | .work i => [.work i]
  | .purge zone now daysToKeep => [.purge zone now daysToKeep]

def step (σ : WebhookSystem) (l : SystemStep) : WebhookSystem where
  daemon :=
    match l with
    | .daemon l => σ.daemon.step master l
    | _ => σ.daemon
  pool := (σ.poolSteps serviceManager config master l).foldl (WorkerPool.step world) σ.pool

/-- A generated uuid is new, and a restarted daemon lists the rows of its database. -/
def Valid (σ : WebhookSystem) : SystemStep → Prop
  | .daemon l =>
    (∀ rows, l = .restart rows → rows.Perm σ.daemon.database) ∧
      ∀ s ∈ (σ.daemon.step master l).database,
        s.uuid ∈ σ.daemon.database.map (·.uuid) ∨ s.uuid ∉ σ.pool.issued
  | .message m d =>
    Function.Injective d.hookUuid ∧ ∀ i, d.hookUuid i ∉ σ.pool.issued ∧
      ∀ t ∈ σ.tasksOf serviceManager config m d, t.subscription.uuid ≠ d.hookUuid i
  | _ => True

/-- The daemon and its database stay together. -/
def Quiet (σ : WebhookSystem) : SystemStep → Prop
  | .daemon l => σ.daemon.Quiet l
  | _ => True

/-- The rows keep the constraints of their tables, and the workers see the same rows. -/
structure Sound (σ : WebhookSystem) : Prop where
  constraints : Constraints σ.daemon.database
  rows : σ.pool.subscriptions = (σ.daemon.database.map (·.uuid)).toFinset
  issued : σ.pool.subscriptions ⊆ σ.pool.issued

end WebhookSystem

section Pool

theorem foldl_unsubscribe (uuids : List String) (p : WorkerPool) :
    let p' := (uuids.map PoolStep.unsubscribe).foldl (WorkerPool.step world) p
    p'.subscriptions = p.subscriptions \ uuids.toFinset ∧ p'.issued = p.issued := by
  induction uuids generalizing p with
  | nil => exact ⟨by simp, rfl⟩
  | cons uuid uuids ih =>
    obtain ⟨hsub, hissued⟩ := ih (p.step world (.unsubscribe uuid))
    refine ⟨?_, hissued⟩
    rw [List.map_cons, List.foldl_cons, hsub, List.toFinset_cons, Finset.sdiff_insert]
    exact Finset.erase_sdiff_comm _ _ _

theorem foldl_subscribe (uuids : List String) (p : WorkerPool) :
    let p' := (uuids.map PoolStep.subscribe).foldl (WorkerPool.step world) p
    p'.subscriptions = p.subscriptions ∪ uuids.toFinset ∧
      p'.issued = p.issued ∪ uuids.toFinset := by
  induction uuids generalizing p with
  | nil => exact ⟨by simp, by simp⟩
  | cons uuid uuids ih =>
    obtain ⟨hsub, hissued⟩ := ih (p.step world (.subscribe uuid))
    rw [List.map_cons, List.foldl_cons]
    refine ⟨?_, ?_⟩
    · rw [hsub, List.toFinset_cons, Finset.union_insert]
      exact Finset.insert_union _ _ _
    · rw [hissued, List.toFinset_cons, Finset.union_insert]
      exact Finset.insert_union _ _ _

theorem foldl_enqueue (tasks : List HookTask) (p : WorkerPool) :
    let p' := (tasks.map PoolStep.enqueue).foldl (WorkerPool.step world) p
    p'.subscriptions = p.subscriptions ∧ p.issued ⊆ p'.issued := by
  induction tasks generalizing p with
  | nil => exact ⟨rfl, Finset.Subset.refl _⟩
  | cons task tasks ih =>
    obtain ⟨hsub, hissued⟩ := ih (p.step world (.enqueue task))
    refine ⟨hsub, Finset.Subset.trans ?_ hissued⟩
    exact (Finset.subset_insert _ _).trans (Finset.subset_insert _ _)

theorem along_unsubscribe (uuids : List String) (p : WorkerPool) :
    Run.Along (WorkerPool.step world) WorkerPool.Valid p (uuids.map .unsubscribe) := by
  induction uuids generalizing p with
  | nil => trivial
  | cons uuid uuids ih => exact ⟨trivial, ih _⟩

theorem along_subscribe {uuids : List String} (hnodup : uuids.Nodup) {p : WorkerPool}
    (hfresh : ∀ uuid ∈ uuids, uuid ∉ p.issued) :
    Run.Along (WorkerPool.step world) WorkerPool.Valid p (uuids.map .subscribe) := by
  induction uuids generalizing p with
  | nil => trivial
  | cons uuid uuids ih =>
    obtain ⟨hnew, hrest⟩ := List.nodup_cons.mp hnodup
    refine ⟨hfresh uuid List.mem_cons_self, ih hrest ?_⟩
    intro uuid' huuid'
    change uuid' ∉ insert uuid p.issued
    rw [Finset.mem_insert, not_or]
    refine ⟨?_, hfresh uuid' (List.mem_cons_of_mem _ huuid')⟩
    rintro rfl
    exact hnew huuid'

theorem along_enqueue {tasks : List HookTask} (hnodup : (tasks.map (·.hookUuid)).Nodup)
    {p : WorkerPool} (htasks : ∀ t ∈ tasks, t.hookUuid ∉ p.issued ∧ t.retries = 0 ∧
      ∀ t' ∈ tasks, t'.subscription.uuid ≠ t.hookUuid) :
    Run.Along (WorkerPool.step world) WorkerPool.Valid p (tasks.map .enqueue) := by
  induction tasks generalizing p with
  | nil => trivial
  | cons task tasks ih =>
    obtain ⟨hnew, hrest⟩ := List.nodup_cons.mp hnodup
    obtain ⟨hfresh, hzero, -⟩ := htasks task List.mem_cons_self
    refine ⟨⟨hfresh, hzero⟩, ih hrest ?_⟩
    intro t ht
    obtain ⟨hunused, hstart, hother⟩ := htasks t (List.mem_cons_of_mem _ ht)
    refine ⟨?_, hstart, fun t' ht' => hother t' (List.mem_cons_of_mem _ ht')⟩
    change t.hookUuid ∉ insert task.hookUuid (insert task.subscription.uuid p.issued)
    rw [Finset.mem_insert, Finset.mem_insert, not_or, not_or]
    refine ⟨?_, (hother task List.mem_cons_self).symm, hunused⟩
    intro heq
    apply hnew
    change task.hookUuid ∈ _
    rw [← heq]
    exact List.mem_map_of_mem ht

theorem step_work_rows (p : WorkerPool) (i : ℕ) :
    (p.step world (.work i)).subscriptions = p.subscriptions ∧
      (p.step world (.work i)).issued = p.issued := by
  rw [WorkerPool.step]
  cases p.tasks[i]? <;> exact ⟨rfl, rfl⟩

theorem rowSteps_spec {before after : List Subscription} {p : WorkerPool}
    (hrows : p.subscriptions = (before.map (·.uuid)).toFinset)
    (hissued : p.subscriptions ⊆ p.issued) (hafter : Constraints after)
    (hfresh : ∀ s ∈ after, s.uuid ∈ before.map (·.uuid) ∨ s.uuid ∉ p.issued) :
    let p' := (rowSteps before after).foldl (WorkerPool.step world) p
    Run.Along (WorkerPool.step world) WorkerPool.Valid p (rowSteps before after) ∧
      p'.subscriptions = (after.map (·.uuid)).toFinset ∧ p'.subscriptions ⊆ p'.issued := by
  set gone := (before.map (·.uuid)).filter fun uuid => uuid ∉ after.map (·.uuid) with hgone
  set come := (after.map (·.uuid)).filter fun uuid => uuid ∉ before.map (·.uuid) with hcome
  obtain ⟨hsub₁, hissued₁⟩ := foldl_unsubscribe world gone p
  set p₁ := (gone.map PoolStep.unsubscribe).foldl (WorkerPool.step world) p with hp₁
  obtain ⟨hsub₂, hissued₂⟩ := foldl_subscribe world come p₁
  have hnew : ∀ uuid ∈ come, uuid ∉ p₁.issued := by
    intro uuid huuid
    obtain ⟨hmem, hnot⟩ := List.mem_filter.mp huuid
    obtain ⟨s, hs, rfl⟩ := List.mem_map.mp hmem
    rw [hissued₁]
    exact (hfresh s hs).resolve_left (of_decide_eq_true hnot)
  have hsub : p.subscriptions \ gone.toFinset ∪ come.toFinset =
      (after.map (·.uuid)).toFinset := by
    ext uuid
    rw [hrows, Finset.mem_union, Finset.mem_sdiff, List.mem_toFinset, List.mem_toFinset,
      List.mem_toFinset, List.mem_toFinset, hgone, hcome, List.mem_filter, List.mem_filter]
    simp only [decide_eq_true_eq]
    tauto
  intro p'
  have hp' : p' = (come.map PoolStep.subscribe).foldl (WorkerPool.step world) p₁ :=
    List.foldl_append
  refine ⟨?_, ?_, ?_⟩
  · exact Run.along_append.mpr
      ⟨along_unsubscribe world gone p, along_subscribe world (hafter.1.filter _) hnew⟩
  · rw [hp', hsub₂, hsub₁, hsub]
  · rw [hp', hsub₂, hissued₂, hsub₁, hissued₁]
    exact Finset.union_subset_union (Finset.sdiff_subset.trans hissued) (Finset.Subset.refl _)

end Pool

namespace WebhookSystem
variable {serviceManager config master world} {σ : WebhookSystem}

/-- A task of a message is, under a generated uuid, the hook of a callback that was called. -/
theorem mem_tasksOf {m : Message} {d : BusDelivery} {t : HookTask}
    (ht : t ∈ σ.tasksOf serviceManager config m d) :
    t.retries = 0 ∧ (∃ i, t.hookUuid = d.hookUuid i) ∧
      hookOf serviceManager config t.subscription m.payload = some t.hook ∧
      ∃ done, d.dispatch serviceManager config σ.daemon.handler.busConsumer m = .ok done ∧
        ∃ args ∈ d.submitted serviceManager config done.invoked,
          args.subscription = t.subscription := by
  unfold tasksOf at ht
  cases hdone : d.dispatch serviceManager config σ.daemon.handler.busConsumer m with
  | error e =>
    rw [hdone] at ht
    cases ht
  | ok done =>
    rw [hdone] at ht
    obtain ⟨args, hargs, rfl⟩ := List.mem_map.mp ht
    have hsubmitted := BusDelivery.mem_submitted_of_accepted hargs
    obtain ⟨call, hcall, heq⟩ := List.mem_filterMap.mp hsubmitted
    obtain ⟨huuid, hhook⟩ := hookRunnerArgs_eq_some heq
    have hin := List.fst_mem_of_mem_zipIdx hcall
    rw [dispatchLoop_calls _ _ _ _ _ _ hdone] at hin
    obtain ⟨entry, -, hentry⟩ := List.mem_map.mp hin
    rw [← hentry] at hhook
    have hsubscription : args.hook.subscription = entry.handler.subscription :=
      (hookOf_eq_some hhook).2.1
    refine ⟨rfl, ⟨call.2, huuid⟩, ?_, done, rfl, args, hsubmitted, rfl⟩
    change hookOf serviceManager config args.hook.subscription m.payload = some args.hook
    rw [hsubscription]
    exact hhook

theorem tasksOf_uuids_nodup (m : Message) {d : BusDelivery}
    (hd : Function.Injective d.hookUuid) :
    ((σ.tasksOf serviceManager config m d).map (·.hookUuid)).Nodup := by
  unfold tasksOf
  cases d.dispatch serviceManager config σ.daemon.handler.busConsumer m with
  | error e => exact List.nodup_nil
  | ok done =>
    rw [List.map_map]
    exact (submitted_uuids_nodup hd done.invoked).sublist
      ((d.accepted_sublist serviceManager config done.invoked).map _)

open Classical in
/-- The tasks of a message in a daemon that serves its database: hooks of the subscriptions that
ask for it, and each of these when no enqueuing fails. -/
theorem tasksOf_hooks (h : σ.daemon.Serving master) (m : Message) (d : BusDelivery) :
    let tasks := σ.tasksOf serviceManager config m d
    let hooks := (σ.daemon.database.filter fun s => s.Asks master m).filterMap fun s =>
      hookOf serviceManager config (dump s) m.payload
    (tasks.map HookTask.hook).Subperm hooks ∧
    ((∀ e, ¬ d.Fails serviceManager config σ.daemon.handler.busConsumer m e) →
      (tasks.map HookTask.hook).Perm hooks) := by
  intro tasks hooks
  obtain ⟨done, hdone, hperm⟩ :=
    h.agreeing.agrees.dispatch_hooks h.agreeing.exact h.exchangeType d m
  have hhooks : tasks.map HookTask.hook =
      (d.accepted serviceManager config done.invoked).map HookRunnerArgs.hook := by
    change (σ.tasksOf serviceManager config m d).map HookTask.hook = _
    rw [tasksOf, hdone, List.map_map]
    rfl
  rw [hhooks]
  constructor
  · have haccepted := d.accepted_sublist serviceManager config done.invoked
    exact (haccepted.map _).subperm.trans hperm.subperm
  · intro hreached
    rw [BusDelivery.accepted_eq_submitted hdone hreached]
    exact hperm

/-- A task of a message is the hook of a stored subscription that asks for it. -/
theorem task_of (h : σ.daemon.Serving master) {m : Message} {d : BusDelivery} {t : HookTask}
    (ht : t ∈ σ.tasksOf serviceManager config m d) :
    ∃ s ∈ σ.daemon.database, s.Asks master m ∧
      hookOf serviceManager config (dump s) m.payload = some t.hook := by
  classical
  obtain ⟨hsub, -⟩ := tasksOf_hooks h m d
  obtain ⟨s, hs, hhook⟩ := List.mem_filterMap.mp (hsub.subset (List.mem_map_of_mem ht))
  obtain ⟨hstored, hasks⟩ := List.mem_filter.mp hs
  exact ⟨s, hstored, of_decide_eq_true hasks, hhook⟩

/-- Whatever became of the daemon, a task of a message is the hook of a version that was behind
its table, and the message is addressed to this version. -/
theorem addressed_of {P : Subscription → Prop} (h : σ.daemon.Holds master P) {m : Message}
    {d : BusDelivery} {t : HookTask} (ht : t ∈ σ.tasksOf serviceManager config m d) :
    (∃ s, P s ∧ t.subscription = dump s) ∧ Addressed master m.headers t.subscription := by
  obtain ⟨-, -, -, done, hdone, args, hargs, hsubscription⟩ := mem_tasksOf ht
  obtain ⟨done', hdone', hsubmitted⟩ := h.submitted serviceManager config m d
  cases hdone.symm.trans hdone'
  obtain ⟨s, hs, hdump, haddressed⟩ := hsubmitted args hargs
  have hversion : t.subscription = dump s := hsubscription.symm.trans hdump
  refine ⟨⟨s, hs, hversion⟩, ?_⟩
  rw [hversion]
  exact haddressed

/-- The steps of the workers are steps they can take, and they still see the stored rows. -/
theorem Sound.poolSteps_spec (h : σ.Sound) {l : SystemStep}
    (hl : σ.Valid serviceManager config master l) :
    Run.Along (WorkerPool.step world) WorkerPool.Valid σ.pool
        (σ.poolSteps serviceManager config master l) ∧
      (σ.step serviceManager config master world l).Sound := by
  cases l with
  | daemon l =>
    obtain ⟨-, hfresh⟩ := hl
    have hconstraints : Constraints (σ.daemon.step master l).database :=
      World.constraints_step h.constraints l
    obtain ⟨halong, hrows, hissued⟩ := rowSteps_spec world h.rows h.issued hconstraints hfresh
    exact ⟨halong, hconstraints, hrows, hissued⟩
  | message m d =>
    obtain ⟨hinj, hfresh⟩ := hl
    obtain ⟨hsub, hissued⟩ := foldl_enqueue world
      (σ.tasksOf serviceManager config m d) σ.pool
    refine ⟨along_enqueue world (tasksOf_uuids_nodup m hinj) ?_, h.constraints,
      hsub.trans h.rows, ?_⟩
    · intro t ht
      obtain ⟨hzero, ⟨i, hi⟩, -⟩ := mem_tasksOf ht
      obtain ⟨hnew, hother⟩ := hfresh i
      rw [hi]
      exact ⟨hnew, hzero, hother⟩
    · exact (hsub.trans_subset h.issued).trans hissued
  | work i =>
    obtain ⟨hsub, hissued⟩ := step_work_rows world σ.pool i
    refine ⟨⟨trivial, trivial⟩, h.constraints, hsub.trans h.rows, ?_⟩
    exact (hsub.trans_subset h.issued).trans hissued.symm.subset
  | purge zone now daysToKeep => exact ⟨⟨trivial, trivial⟩, h.constraints, h.rows, h.issued⟩

theorem sound_start {w : World} (hw : Constraints w.database) : (start w).Sound :=
  ⟨hw, rfl, Finset.Subset.refl _⟩

variable (serviceManager config master world) in
def poolRun (σ : WebhookSystem) (ls : List SystemStep) : List PoolStep :=
  Run.expansion (step serviceManager config master world)
    (poolSteps serviceManager config master) σ ls

theorem Sound.run (h : σ.Sound) {ls : List SystemStep}
    (hv : Run.Along (step serviceManager config master world)
      (Valid serviceManager config master) σ ls) :
    let σ' := ls.foldl (step serviceManager config master world) σ
    let steps := σ.poolRun serviceManager config master world ls
    σ'.Sound ∧ σ'.pool = steps.foldl (WorkerPool.step world) σ.pool ∧
      Run.Along (WorkerPool.step world) WorkerPool.Valid σ.pool steps := by
  have hstep : ∀ (τ : WebhookSystem) (l : SystemStep), τ.Sound →
      τ.Valid serviceManager config master l →
      (τ.step serviceManager config master world l).Sound :=
    fun τ l hτ hl => (hτ.poolSteps_spec hl).2
  refine ⟨?_, Run.foldl_expansion (fun _ _ => rfl) σ ls, ?_⟩
  · exact Run.always_of_along hstep (fun _ hτ => hτ) h hv ls List.prefix_rfl
  · exact Run.along_expansion (fun _ _ => rfl) hstep
      (fun τ l hτ hl => (hτ.poolSteps_spec hl).1) h hv

theorem serving_run (h : σ.daemon.Serving master) {ls : List SystemStep}
    (hquiet : Run.Along (step serviceManager config master world) Quiet σ ls) :
    (ls.foldl (step serviceManager config master world) σ).daemon.Serving master := by
  refine Run.always_of_along (J := fun τ : WebhookSystem => τ.daemon.Serving master) ?_
    (fun _ hτ => hτ) h hquiet ls List.prefix_rfl
  intro τ l hτ hl
  cases l with
  | daemon l => exact hτ.step hl
  | message m d => exact hτ
  | work i => exact hτ
  | purge zone now daysToKeep => exact hτ

/-- Every version that a call announces is in `P`. -/
def Announces (P : Subscription → Prop) (σ : WebhookSystem) (l : SystemStep) : Prop :=
  ∀ fault call n s, l = .daemon (.call fault call) →
    call.announced σ.daemon.database = some n → n.version = some s → P s

/-- Whatever fails, the versions behind the rows and the table are announced ones. -/
theorem holds_run {P : Subscription → Prop} (h : σ.daemon.Holds master P) {ls : List SystemStep}
    (hv : Run.Along (step serviceManager config master world)
      (Valid serviceManager config master) σ ls)
    (hnew : Run.Along (step serviceManager config master world) (Announces P) σ ls) :
    (ls.foldl (step serviceManager config master world) σ).daemon.Holds master P := by
  refine Run.always_of_along (J := fun τ : WebhookSystem => τ.daemon.Holds master P) ?_
    (fun _ hτ => hτ) h (Run.along_and hv hnew) ls List.prefix_rfl
  rintro τ l hτ ⟨hvalid, hannounces⟩
  cases l with
  | message m d => exact hτ
  | work i => exact hτ
  | purge zone now daysToKeep => exact hτ
  | daemon l =>
    cases l with
    | restart rows => exact hτ.restart (hvalid.1 rows rfl)
    | sync iteration authTenants authUsers => exact hτ.sync iteration authTenants authUsers
    | call fault call =>
      exact hτ.call fault fun n hn s hs => hannounces fault call n s rfl hn hs

/-- A hook comes onto the queue with a message, and with nothing else. -/
theorem enqueue_mem_poolSteps_iff {t : HookTask} {l : SystemStep} :
    .enqueue t ∈ σ.poolSteps serviceManager config master l ↔
      ∃ m d, l = .message m d ∧ t ∈ σ.tasksOf serviceManager config m d := by
  cases l <;> simp [poolSteps, rowSteps]

theorem enqueue_mem_poolRun_iff {t : HookTask} {ls : List SystemStep} :
    .enqueue t ∈ σ.poolRun serviceManager config master world ls ↔
      ∃ pre m d post, ls = pre ++ .message m d :: post ∧
        t ∈ (pre.foldl (step serviceManager config master world) σ).tasksOf
          serviceManager config m d := by
  rw [poolRun, Run.mem_expansion_iff]
  constructor
  · rintro ⟨pre, l, post, hls, hmem⟩
    obtain ⟨m, d, rfl, ht⟩ := enqueue_mem_poolSteps_iff.mp hmem
    exact ⟨pre, m, d, post, hls, ht⟩
  · rintro ⟨pre, m, d, post, hls, ht⟩
    exact ⟨pre, _, post, hls, enqueue_mem_poolSteps_iff.mpr ⟨m, d, rfl, ht⟩⟩

theorem purge_mem_poolRun {zone : SessionZone} {now daysToKeep : ℤ} {ls : List SystemStep}
    (hmem : .purge zone now daysToKeep ∈ σ.poolRun serviceManager config master world ls) :
    .purge zone now daysToKeep ∈ ls := by
  obtain ⟨pre, l, post, rfl, hl⟩ := (Run.mem_expansion_iff _ _).mp hmem
  have hpurge : l = .purge zone now daysToKeep := by
    cases l <;> simp_all [poolSteps, rowSteps]
  rw [← hpurge]
  exact List.mem_append_right _ List.mem_cons_self

/-- The workers of a run seen as tasks that share no table, the tasks being those of its
messages. -/
theorem exists_shadow {w : World} (hw : Constraints w.database) {ls : List SystemStep}
    (hv : Run.Along (step serviceManager config master world)
      (Valid serviceManager config master) (.start w) ls) :
    let σ := ls.foldl (step serviceManager config master world) (.start w)
    ∃ p jobs, Shadows world (∀ l ∈ ls, ∀ zone now daysToKeep, l ≠ .purge zone now daysToKeep)
        σ.pool p jobs ∧
      (∀ u t, jobs u = some t ↔ (∃ pre m d post, ls = pre ++ .message m d :: post ∧
        t ∈ (pre.foldl (step serviceManager config master world) (.start w)).tasksOf
          serviceManager config m d) ∧ t.hookUuid = u) ∧
      trailKeys p = (start w).pool.attempts world
        ((start w).poolRun serviceManager config master world ls) := by
  intro σ
  obtain ⟨-, hpool, halong⟩ := (sound_start hw).run hv
  have hunpurged : (∀ l ∈ ls, ∀ zone now daysToKeep, l ≠ .purge zone now daysToKeep) →
      ∀ l ∈ (start w).poolRun serviceManager config master world ls,
        ∀ zone now daysToKeep, l ≠ .purge zone now daysToKeep := by
    rintro hnone _ hl zone now daysToKeep rfl
    exact hnone _ (purge_mem_poolRun hl) zone now daysToKeep rfl
  obtain ⟨p, jobs, h, henqueued, hkeys⟩ := (shadows_empty _ _).along halong hunpurged
  refine ⟨p, jobs, hpool ▸ h, ?_, hkeys⟩
  intro u t
  rw [henqueued, enqueue_mem_poolRun_iff]
  constructor
  · rintro (hold | hnew)
    · cases hold
    · exact hnew
  · exact Or.inr

variable (serviceManager config master world) in
/-- Where a row comes from: the hook that a message of the run gave to a subscription. -/
structure RowOrigin (w : World) (ls : List SystemStep) (row : SubscriptionLog) where
  pre : List SystemStep
  message : Message
  delivery : BusDelivery
  post : List SystemStep
  run_eq : ls = pre ++ .message message delivery :: post
  task : HookTask
  mem_tasksOf : task ∈ (pre.foldl (step serviceManager config master world)
    (.start w)).tasksOf serviceManager config message delivery
  hookUuid : task.hookUuid = row.uuid
  subscriptionUuid : task.subscription.uuid = row.subscriptionUuid
  event : row.event = message.payload
  config_eq : task.config = config
  retries : task.retries = 0
  alone : row ∈ task.alone world

theorem exists_rowOrigin {w : World} (hw : Constraints w.database) {ls : List SystemStep}
    (hv : Run.Along (step serviceManager config master world)
      (Valid serviceManager config master) (.start w) ls) {row : SubscriptionLog}
    (hrow : row ∈ (ls.foldl (step serviceManager config master world) (.start w)).pool.log) :
    Nonempty (RowOrigin serviceManager config master world w ls row) := by
  obtain ⟨p, jobs, h, hjobs, -⟩ := exists_shadow hw hv
  obtain ⟨t, hjob, huuid, hsubscription, hevent, halone⟩ := h.task_of_row hrow
  obtain ⟨⟨pre, m, d, post, hls, ht⟩, -⟩ := (hjobs t.hookUuid t).mp hjob
  obtain ⟨hzero, -, hhook, -⟩ := WebhookSystem.mem_tasksOf ht
  obtain ⟨hconfig, -, hpayload⟩ := hookOf_eq_some hhook
  exact ⟨{
    pre := pre, message := m, delivery := d, post := post, run_eq := hls
    task := t, mem_tasksOf := ht, hookUuid := huuid, subscriptionUuid := hsubscription
    event := hevent.symm.trans hpayload, config_eq := hconfig, retries := hzero
    alone := halone }⟩

end WebhookSystem

def zeros (i : ℕ) : String := String.ofList (List.replicate i '0')

/-- A subscription is created, and a message gets some attempts of its hook. -/
def hookSteps (call : ServiceCall) (m : Message) (attempts : ℕ) : List SystemStep :=
  .daemon (.call none call) :: .message m ⟨zeros, fun _ _ => .ok ()⟩ ::
    List.replicate attempts (.work 0)

def missedCallSteps (m : Message) (attempts : ℕ) : List SystemStep :=
  hookSteps createMissedCall m attempts

theorem zeros_injective : Function.Injective zeros := by
  intro i j h
  have hlist := String.ofList_injective h
  simpa using congrArg List.length hlist

theorem zeros_ne_missedCall (i : ℕ) : zeros i ≠ "8b6d3f5e-0d3f-4f0e-9a53-3b8b1d3f5e01" := by
  intro h
  have hmem : '8' ∈ (zeros i).toList := by
    rw [h]
    decide
  rw [zeros, String.toList_ofList] at hmem
  exact absurd (List.eq_of_mem_replicate hmem) (by decide)

theorem announced_create_uuid {uuid : String} {new : SchemaKwargs} {database : List Subscription}
    {n : Notification} (hn : (ServiceCall.create uuid new).announced database = some n)
    {s : Subscription} (hs : n.version = some s) : s.uuid = uuid := by
  obtain ⟨tenantUuid, -, rfl, -⟩ := ServiceCall.announced_create hn
  cases hs
  rfl

section Steps
variable {serviceManager : String → Option EntryPoint} {config : HookConfig}
  {world : String → ℕ → LoggedAttempt} {uuid : String} {new : SchemaKwargs} {m : Message}
  {attempts : ℕ}

theorem create_quiet :
    (WebhookSystem.start emptyWorld).Quiet (.daemon (.call none (.create uuid new))) := by
  refine ⟨trivial, Or.inr ⟨nofun, nofun, ?_⟩⟩
  intro n hn
  obtain ⟨tenantUuid, -, rfl, -⟩ := ServiceCall.announced_create hn
  trivial

theorem hookSteps_valid (hfresh : ∀ i, zeros i ≠ uuid)
    (hissued : ((WebhookSystem.start emptyWorld).step serviceManager config "master" world
      (.daemon (.call none (.create uuid new)))).pool.issued = {uuid}) :
    Run.Along (WebhookSystem.step serviceManager config "master" world)
      (WebhookSystem.Valid serviceManager config "master") (.start emptyWorld)
      (hookSteps (.create uuid new) m attempts) := by
  have hworks : ∀ σ, Run.Along (WebhookSystem.step serviceManager config "master" world)
      (WebhookSystem.Valid serviceManager config "master") σ
      (List.replicate attempts (.work 0)) := by
    induction attempts with
    | zero => exact fun σ => trivial
    | succ attempts ih => exact fun σ => ⟨trivial, ih _⟩
  have hholds : ((WebhookSystem.start emptyWorld).step serviceManager config "master" world
      (.daemon (.call none (.create uuid new)))).daemon.Holds "master" fun s => s.uuid = uuid :=
    (World.holds_emptyWorld "master" _).call none fun n hn s hs => announced_create_uuid hn hs
  refine ⟨⟨nofun, ?_⟩, ⟨zeros_injective, fun i => ⟨?_, ?_⟩⟩, hworks _⟩
  · intro s _
    exact Or.inr (Finset.notMem_empty _)
  · rw [hissued, Finset.mem_singleton]
    exact hfresh i
  · intro t ht
    obtain ⟨⟨s, hs, hdump⟩, -⟩ := WebhookSystem.addressed_of hholds ht
    rw [hdump]
    exact fun heq => hfresh i (heq.symm.trans hs)

theorem missedCallSteps_valid :
    Run.Along (WebhookSystem.step serviceManager config "master" world)
      (WebhookSystem.Valid serviceManager config "master") (.start emptyWorld)
      (missedCallSteps m attempts) :=
  hookSteps_valid zeros_ne_missedCall rfl

end Steps

section Main
variable {w : World} (hw : w.Serving master) (ls : List SystemStep)
  (hv : Run.Along (WebhookSystem.step serviceManager config master world)
    (WebhookSystem.Valid serviceManager config master) (.start w) ls)
include hw hv

open Classical in
/-- Whatever the daemon and its workers do, the logs of the hooks of a message are in the end
among those that each stores alone, and none once its subscription is deleted; without purges they
are the first of them, and all once it is done. Where the daemon and its database stayed together
before the message, each subscription that was stored then and asked for it has one hook, with the
payload of the message, and no other has. -/
theorem messages_become_logs :
    let step := WebhookSystem.step serviceManager config master world
    let σ := ls.foldl step (.start w)
    ∀ pre m d post, ls = pre ++ .message m d :: post →
      let before := pre.foldl step (.start w)
      let tasks := before.tasksOf serviceManager config m d
      (Run.Along step WebhookSystem.Quiet (.start w) pre →
        let hooks := (before.daemon.database.filter fun s => s.Asks master m).filterMap fun s =>
          hookOf serviceManager config (dump s) m.payload
        (tasks.map HookTask.hook).Subperm hooks ∧
        ((∀ e, ¬ d.Fails serviceManager config before.daemon.handler.busConsumer m e) →
          (tasks.map HookTask.hook).Perm hooks)) ∧
      ∀ t ∈ tasks,
        let rows := σ.pool.log.filter fun row => row.uuid = t.hookUuid
        (t.subscription.uuid ∉ σ.daemon.database.map (·.uuid) → rows = []) ∧
        rows.Sublist (t.alone world) ∧
        ((∀ l ∈ ls, ∀ zone now daysToKeep, l ≠ .purge zone now daysToKeep) →
          t.subscription.uuid ∈ σ.daemon.database.map (·.uuid) →
            rows <+: t.alone world ∧
              ((∀ t' ∈ σ.pool.tasks, t'.hookUuid ≠ t.hookUuid) → rows = t.alone world)) := by
  intro step σ pre m d post hls before tasks
  refine ⟨fun hquiet => ?_, ?_⟩
  · exact WebhookSystem.tasksOf_hooks (WebhookSystem.serving_run hw hquiet) m d
  intro t ht rows
  have hconstraints := hw.agreeing.constraints
  obtain ⟨hsound, -, -⟩ := (WebhookSystem.sound_start hconstraints).run hv
  obtain ⟨p, jobs, h, hjobs, -⟩ := WebhookSystem.exists_shadow hconstraints hv
  have hrows := h.rows_of ((hjobs t.hookUuid t).mpr ⟨⟨pre, m, d, post, hls, ht⟩, rfl⟩)
  have hstored : t.subscription.uuid ∈ σ.pool.subscriptions ↔
      t.subscription.uuid ∈ σ.daemon.database.map (·.uuid) := by
    rw [hsound.rows, List.mem_toFinset]
  dsimp only at hrows
  rw [hstored] at hrows
  exact hrows

/-- Every log is of a stored subscription, and comes from a message of the tenant, of the origin
and of the user of the version that had the hook: it carries the payload of the message, and is
one of those that the hook stores alone. Where the daemon and its database stayed together before
the message, that version was the stored one, and asked for it. No two logs share their key. -/
theorem logs_come_from_messages :
    let step := WebhookSystem.step serviceManager config master world
    let σ := ls.foldl step (.start w)
    (σ.pool.log.map fun row => (row.uuid, row.attempts)).Nodup ∧
    ∀ row ∈ σ.pool.log, row.subscriptionUuid ∈ σ.daemon.database.map (·.uuid) ∧
      ∃ pre m d post, ls = pre ++ .message m d :: post ∧ row.event = m.payload ∧
        ∃ t ∈ (pre.foldl step (.start w)).tasksOf serviceManager config m d,
          t.hookUuid = row.uuid ∧ t.subscription.uuid = row.subscriptionUuid ∧
          row ∈ t.alone world ∧ Addressed master m.headers t.subscription ∧
          (Run.Along step WebhookSystem.Quiet (.start w) pre →
            ∃ s ∈ (pre.foldl step (.start w)).daemon.database, s.Asks master m ∧
              hookOf serviceManager config (dump s) m.payload = some t.hook) := by
  intro step σ
  have hconstraints := hw.agreeing.constraints
  obtain ⟨hsound, -, -⟩ := (WebhookSystem.sound_start hconstraints).run hv
  obtain ⟨p, jobs, h, -, -⟩ := WebhookSystem.exists_shadow hconstraints hv
  refine ⟨h.keys_nodup, ?_⟩
  intro row hrow
  obtain ⟨-, hstored⟩ := h.mem_trail hrow
  rw [hsound.rows, List.mem_toFinset] at hstored
  obtain ⟨o⟩ := WebhookSystem.exists_rowOrigin hconstraints hv hrow
  have hv' := hv
  rw [o.run_eq, Run.along_append] at hv'
  have hany : Run.Along step (WebhookSystem.Announces fun _ => True) (.start w) o.pre :=
    Run.along_of_invariant (J := fun _ => True) (fun _ _ _ => trivial)
      (fun _ _ _ _ _ _ _ _ _ _ => trivial) trivial o.pre
  have hholds := WebhookSystem.holds_run (hw.holds fun _ _ => trivial) hv'.1 hany
  obtain ⟨-, haddressed⟩ := WebhookSystem.addressed_of hholds o.mem_tasksOf
  refine ⟨hstored, o.pre, o.message, o.delivery, o.post, o.run_eq, o.event, o.task, o.mem_tasksOf,
    o.hookUuid, o.subscriptionUuid, o.alone, haddressed, fun hquiet => ?_⟩
  exact WebhookSystem.task_of (WebhookSystem.serving_run hw hquiet) o.mem_tasksOf

end Main

open Classical in
theorem messages_become_logs_missed_call :
    let σ := (WebhookSystem.start emptyWorld).step (fun _ => some ⟨"http.plugin", "Service"⟩)
      ⟨10, 2⟩ "master" flakyWorld (.daemon (.call none createMissedCall))
    ((σ.tasksOf (fun _ => some ⟨"http.plugin", "Service"⟩) ⟨10, 2⟩ missedCallMessage
        ⟨zeros, fun _ _ => .ok ()⟩).map HookTask.hook).Perm
      ((σ.daemon.database.filter fun s => s.Asks "master" missedCallMessage).filterMap fun s =>
        hookOf (fun _ => some ⟨"http.plugin", "Service"⟩) ⟨10, 2⟩ (dump s)
          missedCallMessage.payload) := by
  intro σ
  obtain ⟨hhooks, -⟩ := messages_become_logs _ _ "master" flakyWorld
    serving_emptyWorld (missedCallSteps missedCallMessage 1) missedCallSteps_valid
    [.daemon (.call none createMissedCall)] missedCallMessage ⟨zeros, fun _ _ => .ok ()⟩ [.work 0]
    rfl
  refine (hhooks ⟨create_quiet, trivial⟩).2 ?_
  rintro e ⟨i, entry, -, herror⟩
  cases herror

theorem logs_come_from_messages_missed_call :
    let log := ((missedCallSteps missedCallMessage 1).foldl (WebhookSystem.step
      (fun _ => some ⟨"http.plugin", "Service"⟩) ⟨10, 2⟩ "master" flakyWorld)
        (.start emptyWorld)).pool.log
    log.map (·.attempts) = [1] ∧ (log.map fun row => (row.uuid, row.attempts)).Nodup :=
  ⟨by decide, (logs_come_from_messages _ _ "master" flakyWorld serving_emptyWorld
    (missedCallSteps missedCallMessage 1) missedCallSteps_valid).1⟩

end System

end WazoWebhookd
