import WazoWebhookd.Subscription.ForeignDeletions
import WazoWebhookd.Subscription.Requests

/-! The events of wazo-auth that the daemon handles: how they leave it, and which hooks go with
the users and the tenants that are deleted. -/
namespace WazoWebhookd
open Failing SubscriptionService

section Preserves
variable {master : String}

theorem serving_call {w : World} (hw : w.Serving master) {call : ServiceCall}
    (hi : call.Iterates w.database)
    (hk : ∀ n, call.announced w.database = some n → KeepsHeaders n) :
    (exec (call.run master none) w).2.Serving master := by
  have hsafe : call.Safe none w.database := .inr ⟨nofun, nofun, hk⟩
  exact hw.step (l := .call none call) ⟨hi, hsafe⟩

variable (master)

theorem preserves_delete (uuid : String) (tenants : List String) (user : Option String) :
    Preserves (World.Serving master) (delete master none uuid tenants user) := by
  intro w hw
  have hcall : (exec ((ServiceCall.delete uuid tenants user).run master none) w).2 =
      (exec (delete master none uuid tenants user) w).2 := ServiceCall.run_world _
  rw [← hcall]
  refine serving_call hw trivial ?_
  intro n hn
  obtain ⟨s, -, rfl⟩ := ServiceCall.announced_delete hn
  trivial

theorem preserves_create (uuid : String) (new : SchemaKwargs) :
    Preserves (World.Serving master) (create master none uuid new) := by
  intro w hw
  have hcall : (exec ((ServiceCall.create uuid new).run master none) w).2 =
      (exec (create master none uuid new) w).2 := ServiceCall.run_world _
  rw [← hcall]
  refine serving_call hw trivial ?_
  intro n hn
  obtain ⟨tenantUuid, -, rfl, -⟩ := ServiceCall.announced_create hn
  trivial

theorem preserves_deletePresent (uuid : String) :
    Preserves (World.Serving master) (deletePresent master none uuid) := by
  refine (preserves_delete master uuid [] none).tryCatch ?_
  intro e
  cases e with
  | noSuchSubscription uuid => exact (reads_pure ()).preserves
  | _ => exact fun _ hw => hw

/-- The turns of a removal leave a daemon that serves its database, and so do the requests between
them. -/
theorem preserves_cleanupSteps {turn : String → ServiceM Unit}
    (hturn : ∀ uuid, Preserves (World.Serving master) (turn uuid)) (steps : List CleanupStep) :
    Preserves (World.Serving master) (steps.forM (CleanupStep.run master turn)) := by
  refine preserves_forM fun step _ => ?_
  cases step with
  | own uuid => exact hturn uuid
  | foreign request =>
    exact (preserves_delete master _ _ _).tryCatch fun _ => (reads_pure ()).preserves

theorem preserves_listed (iteration : SetIteration) (between : List DeleteRequest)
    (event : AuthEvent) :
    Preserves (World.Serving master) (listed master iteration between event) := by
  have hbetween := preserves_cleanupSteps master (preserves_deletePresent master)
    (between.map .foreign)
  cases event with
  | tenantDeleted tenantUuid =>
    refine (reads_list _ _ _ _ _).preserves.bind fun subscriptions => ?_
    exact hbetween.bind fun _ => (reads_pure _).preserves
  | userDeleted userUuid =>
    refine (reads_list _ _ _ _ _).preserves.bind fun owned => hbetween.bind fun _ => ?_
    exact (reads_list _ _ _ _ _).preserves.bind fun listened => (reads_pure _).preserves

theorem preserves_onDeletedEvent (iteration : SetIteration) (event : AuthEvent) :
    Preserves (World.Serving master) (onDeletedEvent master none iteration event) := by
  rw [onDeletedEvent_eq]
  exact (preserves_listed master iteration [] event).bind fun uuids =>
    preserves_cleanupSteps master (preserves_deletePresent master) (uuids.map .own)

end Preserves

def AuthEvent.ConcernsHook (hook : Hook) : AuthEvent → Prop
  | .tenantDeleted tenantUuid => hook.subscription.ownerTenantUuid = tenantUuid
  | .userDeleted userUuid =>
    hook.subscription.ownerUserUuid = some userUuid ∨
      hook.subscription.eventsUserUuid = some userUuid

section Hooks
variable (master : String) (serviceManager : String → Option EntryPoint) (config : HookConfig)

open Classical in
noncomputable def World.hooks (w : World) (m : Message) : List Hook :=
  (w.database.filter fun s => s.Asks master m).filterMap fun s =>
    hookOf serviceManager config (dump s) m.payload

/-- The daemon handed these hooks to the task queue. -/
def World.HandsOver (w : World) (m : Message) (d : BusDelivery) (hooks : List Hook) : Prop :=
  ∃ done, d.dispatch serviceManager config w.handler.busConsumer m = .ok done ∧
    ((d.submitted serviceManager config done.invoked).map HookRunnerArgs.hook).Perm hooks

variable {master}

theorem World.Serving.handsOver {w : World} (hw : w.Serving master) (m : Message)
    (d : BusDelivery) :
    w.HandsOver serviceManager config m d (w.hooks master serviceManager config m) :=
  hw.agreeing.agrees.dispatch_hooks hw.agreeing.exact hw.exchangeType d m

variable {serviceManager config} in
theorem concernsHook_iff {s : Subscription} {payload : Json} {hook : Hook}
    (h : hookOf serviceManager config (dump s) payload = some hook) (event : AuthEvent) :
    event.ConcernsHook hook ↔ event.Concerns s := by
  obtain ⟨entryPoint, -, rfl⟩ := Option.map_eq_some_iff.mp h
  cases event with
  | tenantDeleted tenantUuid => rfl
  | userDeleted userUuid => rfl

open Classical in
/-- The events of deleted users and tenants take the hooks that concern these, and leave the
others: what a message is given afterwards is what it would have been given before, without
them. -/
theorem deletions_take_hooks {w : World} (hw : w.Serving master) (iteration : SetIteration)
    (events : List AuthEvent) (hne : .userDeleted "" ∉ events) (m : Message)
    (before after : BusDelivery) :
    ∃ hooks w', exec (events.forM (onDeletedEvent master none iteration)) w = (.ok (), w') ∧
      w'.Serving master ∧ w.HandsOver serviceManager config m before hooks ∧
      w'.HandsOver serviceManager config m after
        (hooks.filter fun hook => ∀ event ∈ events, ¬ event.ConcernsHook hook) := by
  obtain ⟨w', hok, hd⟩ := exec_onDeletedEvents master iteration hw.agreeing.constraints hne
  have hserving : w'.Serving master := by
    have hpreserves : Preserves (World.Serving master)
        (events.forM (onDeletedEvent master none iteration)) :=
      preserves_forM fun event _ => preserves_onDeletedEvent master iteration event
    have hafter := hpreserves w hw
    rw [hok] at hafter
    exact hafter
  refine ⟨w.hooks master serviceManager config m, w', hok, hserving, hw.handsOver _ _ m before, ?_⟩
  have hhooks : w'.hooks master serviceManager config m =
      (w.hooks master serviceManager config m).filter fun hook =>
        ∀ event ∈ events, ¬ event.ConcernsHook hook := by
    unfold World.hooks
    rw [hd, List.filter_comm, List.filterMap_filter, List.filter_filterMap]
    refine List.filterMap_congr fun s _ => ?_
    cases hhook : hookOf serviceManager config (dump s) m.payload with
    | none => simp
    | some hook => simp [Option.filter, concernsHook_iff hhook]
  rw [← hhooks]
  exact hserving.handsOver _ _ m after

end Hooks

open Classical in
/-- The tenant of the only subscription is deleted. -/
theorem deletions_take_hooks_missed_call :
    let d : BusDelivery := ⟨fun _ => "0b9d2d5e-4a62-4bd0-8b2b-7f3f6a2f8c05", fun _ _ => .ok ()⟩
    let events : List AuthEvent := [.tenantDeleted "6c6d3b6c-58cb-4f5c-9a0e-0f1f0c1f7a03"]
    let serviceManager : String → Option EntryPoint := fun _ => some ⟨"http.plugin", "Service"⟩
    ∃ hooks w', exec (events.forM (onDeletedEvent "master" none .sorted)) missedCallWorld =
        (.ok (), w') ∧ w'.database = [] ∧
      missedCallWorld.HandsOver serviceManager ⟨10, 2⟩ missedCallMessage d hooks ∧
      w'.HandsOver serviceManager ⟨10, 2⟩ missedCallMessage d
        (hooks.filter fun hook => ∀ event ∈ events, ¬ event.ConcernsHook hook) := by
  intro d events serviceManager
  obtain ⟨hooks, w', hok, -, hbefore, hafter⟩ := deletions_take_hooks serviceManager ⟨10, 2⟩
    serving_missedCallWorld .sorted events (by decide) missedCallMessage d d
  have hdatabase : (exec (events.forM (onDeletedEvent "master" none .sorted))
      missedCallWorld).2.database = [] := by decide
  rw [hok] at hdatabase
  exact ⟨hooks, w', hok, hdatabase, hbefore, hafter⟩

end WazoWebhookd
