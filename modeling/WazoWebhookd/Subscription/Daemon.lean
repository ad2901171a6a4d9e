import WazoWebhookd.Database.SyncDb
import WazoWebhookd.Subscription.AllOrNothing
import WazoWebhookd.Subscription.Interest
import WazoWebhookd.Subscription.QueueBindings

/-! The daemon over its lives: calls of the service, offline synchronisations of its database,
restarts, and the hooks that a message is given in the states in between. -/
namespace WazoWebhookd
open Failing SubscriptionBusEventHandler

/-- What happens to the daemon and to its database. A restart comes with the order in which the
database lists its rows. -/
inductive DaemonStep
  | call (fault : Option Fault) (call : ServiceCall)
  | sync (iteration : SetIteration) (authTenants authUsers : Finset String)
  | restart (rows : List Subscription)

namespace World

def step (master : String) (w : World) : DaemonStep → World
  | .call fault call => (exec (call.run master fault) w).2
  | .sync iteration authTenants authUsers =>
    { w with database := SyncDb.sync iteration authTenants authUsers w.database }
  | .restart rows => { w with handler := scratch master "headers" rows }

/-- The step keeps the running daemon and the database together: a safe call, a synchronisation
that finds nothing to remove, the registration of what the database lists. -/
def Quiet (w : World) : DaemonStep → Prop
  | .call fault call => call.Iterates w.database ∧ call.Safe fault w.database
  | .sync iteration authTenants authUsers =>
    SyncDb.sync iteration authTenants authUsers w.database = w.database
  | .restart rows => rows.Perm w.database

/-- The daemon serves the subscriptions of its database. -/
structure Serving (master : String) (w : World) : Prop where
  agreeing : w.Agreeing master "headers"
  exchangeType : w.handler.busConsumer.exchangeType = "headers"

end World

section Handler
variable (master : String)

theorem foldl_act_exchangeType (actions : List Action) (h : SubscriptionBusEventHandler) :
    (actions.foldl act h).busConsumer.exchangeType = h.busConsumer.exchangeType := by
  induction actions generalizing h with
  | nil => rfl
  | cons action actions ih =>
    rw [List.foldl_cons, ih]
    cases action with
    | bus call => cases call <;> simp [act, Consumer.call]
    | store uuid row => rfl

theorem handle_exchangeType {h h' : SubscriptionBusEventHandler} {n : Notification}
    (hh : h.handle master n = .ok h') :
    h'.busConsumer.exchangeType = h.busConsumer.exchangeType := by
  cases n with
  | created s =>
    obtain rfl := Except.ok.inj hh
    exact foldl_act_exchangeType _ _
  | deleted s =>
    obtain rfl := Except.ok.inj hh
    unfold unregister unregisterStart
    cases h.subscriptionCallbacks s.uuid with
    | none => rfl
    | some row => exact foldl_act_exchangeType _ _
  | updated s order =>
    cases hr : h.subscriptionCallbacks s.uuid with
    | none =>
      rw [handle, update_of_none hr] at hh
      cases hh
    | some prev =>
      obtain ⟨p, hp, hfinish⟩ := Except.exists_of_map_eq_ok hh
      unfold updateStart at hp
      rw [hr] at hp
      cases hp
      rw [← hfinish]
      exact foldl_act_exchangeType _ _

theorem scratch_concat (exchangeType : String) (live : List Subscription) (s : Subscription) :
    Tracked.step master ⟨scratch master exchangeType live, live⟩ (.created s) =
      ⟨scratch master exchangeType (live ++ [s]), live ++ [s]⟩ := by
  simp [Tracked.step, handle, scratch, liveAfter]

theorem agrees_scratch (exchangeType : String) {rows : List Subscription}
    (hc : Constraints rows) : Tracked.Agrees ⟨scratch master exchangeType rows, rows⟩ := by
  induction rows using List.reverseRecOn with
  | nil => exact Tracked.agrees_init exchangeType
  | append_singleton rows s ih =>
    have hnodup := hc.1
    rw [List.map_append, List.nodup_append] at hnodup
    have hrows : Constraints rows :=
      ⟨hnodup.1, fun t ht => hc.2 t (List.mem_append_left _ ht)⟩
    have hvalid : Tracked.Valid ⟨scratch master exchangeType rows, rows⟩ (.created s) := by
      refine ⟨(hc.2 s (List.mem_append_right _ List.mem_cons_self)).1, ?_⟩
      intro t ht
      exact hnodup.2.2 t.uuid (List.mem_map_of_mem ht) _ List.mem_cons_self
    have hstep := (ih hrows).step master hvalid
    rw [scratch_concat] at hstep
    exact hstep

theorem scratch_exchangeType (exchangeType : String) (rows : List Subscription) :
    (scratch master exchangeType rows).busConsumer.exchangeType = exchangeType := by
  induction rows using List.reverseRecOn with
  | nil => rfl
  | append_singleton rows s ih =>
    rw [scratch, List.foldl_append]
    exact (foldl_act_exchangeType _ _).trans ih

theorem Tracked.Agrees.perm {h : SubscriptionBusEventHandler} {rows live : List Subscription}
    (ha : Tracked.Agrees ⟨h, rows⟩) (hp : rows.Perm live) : Tracked.Agrees ⟨h, live⟩ where
  consistent := ha.consistent
  uuid_nodup := (hp.map _).nodup_iff.mp ha.uuid_nodup
  row s hs := ha.row s (hp.mem_iff.mpr hs)
  live hr := by
    obtain ⟨s, hs, hu⟩ := ha.live hr
    exact ⟨s, hp.mem_iff.mp hs, hu⟩

end Handler

section Step
variable {master : String} {w : World}

/-- Whatever fails and whoever runs, the rows keep the constraints of their tables. -/
theorem World.constraints_step (hc : Constraints w.database) (l : DaemonStep) :
    Constraints (w.step master l).database := by
  cases l with
  | restart rows => exact hc
  | sync iteration authTenants authUsers =>
    change Constraints (SyncDb.sync iteration authTenants authUsers w.database)
    unfold SyncDb.sync SyncDb.removeUsers SyncDb.removeTenants
    simp only [SyncDb.removeUser, SyncDb.removeTenant, KeyedList.foldl_filter]
    exact (hc.filter _).filter _
  | call fault call =>
    change Constraints (exec (call.run master fault) w).2.database
    by_cases hearly : call.announced w.database = none ∨ call.EarlyFault fault
    · obtain ⟨e, he⟩ := call.exec_run_early master hearly
      rw [he]
      exact hc
    · obtain ⟨hnone, hf⟩ := not_or.mp hearly
      obtain ⟨n, ha⟩ := Option.ne_none_iff_exists'.mp hnone
      rw [ServiceCall.exec_run_announced hc ha hf]
      rcases outcome_cases master fault w n () with ⟨e, w', he, hd⟩ | ⟨w', hok, hd⟩
      · rw [he, hd]
        exact hc
      · rw [hok, hd]
        exact ServiceCall.constraints_announced hc ha

variable (master) in
theorem World.constraints_run (hc : Constraints w.database) (history : List DaemonStep) :
    Constraints (history.foldl (World.step master) w).database := by
  induction history generalizing w with
  | nil => exact hc
  | cons l history ih => exact ih (constraints_step hc l)

/-- A restarted daemon serves its database, whatever happened before. -/
theorem World.serving_restart (hc : Constraints w.database) {rows : List Subscription}
    (hp : rows.Perm w.database) : (w.step master (.restart rows)).Serving master := by
  have hrows : Constraints rows :=
    ⟨(hp.map _).nodup_iff.mpr hc.1, fun s hs => hc.2 s (hp.mem_iff.mp hs)⟩
  have hscratch := agrees_scratch master "headers" hrows
  have hagrees : Tracked.Agrees ⟨scratch master "headers" rows, w.database⟩ := hscratch.perm hp
  refine ⟨⟨hc, hagrees, ?_⟩, scratch_exchangeType master "headers" rows⟩
  have hexact : Tracked.Exact master "headers" ⟨scratch master "headers" rows, rows⟩ :=
    fun _ => List.Perm.refl _
  rw [Tracked.Agrees.exact_iff hscratch] at hexact
  refine (Tracked.Agrees.exact_iff hagrees master "headers").mpr ?_
  intro s hs
  exact hexact s (hp.mem_iff.mpr hs)

/-- A call in which nothing fails once it has published changes nothing, or goes from one version
to the next everywhere. -/
theorem World.call_of_agrees (hc : Constraints w.database)
    (ha : Tracked.Agrees ⟨w.handler, w.database⟩) {fault : Option Fault} {call : ServiceCall}
    (ho : call.Iterates w.database) (hnotifier : fault ≠ some .notifier)
    (hcommit : fault ≠ some .commit) :
    (exec (call.run master fault) w).2 = w ∨
      ∃ n h, call.announced w.database = some n ∧
        Tracked.Valid ⟨w.handler, w.database⟩ n ∧ w.handler.handle master n = .ok h ∧
        (exec (call.run master fault) w).2 =
          ⟨liveAfter w.database n, h, w.pubsubLog ++ [n], w.busLog ++ [n.lifecycleEvent]⟩ := by
  by_cases hearly : call.announced w.database = none ∨ call.EarlyFault fault
  · obtain ⟨e, he⟩ := call.exec_run_early master hearly
    rw [he]
    exact Or.inl rfl
  · obtain ⟨hnone, hf⟩ := not_or.mp hearly
    obtain ⟨n, hn⟩ := Option.ne_none_iff_exists'.mp hnone
    have hv := ServiceCall.valid_announced w.handler hn ho
    obtain ⟨h, hh⟩ := ha.handle_ok master hv
    refine Or.inr ⟨n, h, hn, hv, hh, ?_⟩
    rw [ServiceCall.exec_run_announced hc hn hf, outcome, hh]
    simp only [if_neg hnotifier, if_neg hcommit]

/-- What a safe call does to a daemon that serves its database. -/
theorem World.Serving.safe_call (hw : w.Serving master) {fault : Option Fault}
    {call : ServiceCall} (ho : call.Iterates w.database) (hs : call.Safe fault w.database) :
    (exec (call.run master fault) w).2 = w ∨
      ∃ n h, call.announced w.database = some n ∧
        Tracked.Valid ⟨w.handler, w.database⟩ n ∧ KeepsHeaders n ∧
        w.handler.handle master n = .ok h ∧
        (exec (call.run master fault) w).2 =
          ⟨liveAfter w.database n, h, w.pubsubLog ++ [n], w.busLog ++ [n.lifecycleEvent]⟩ := by
  rcases hs with hearly | ⟨hnotifier, hcommit, hkeeps⟩
  · obtain ⟨e, he⟩ := call.exec_run_early master hearly
    rw [he]
    exact Or.inl rfl
  · have ha := hw.agreeing
    refine (call_of_agrees ha.constraints ha.agrees ho hnotifier hcommit).imp_right ?_
    rintro ⟨n, h, ha, hv, hh, hafter⟩
    exact ⟨n, h, ha, hv, hkeeps n ha, hh, hafter⟩

theorem World.Serving.step (hw : w.Serving master) {l : DaemonStep} (hl : w.Quiet l) :
    (w.step master l).Serving master := by
  cases l with
  | restart rows => exact serving_restart hw.agreeing.constraints hl
  | sync iteration authTenants authUsers =>
    have hsame : w.step master (.sync iteration authTenants authUsers) = w := by
      change ({ w with database := SyncDb.sync iteration authTenants authUsers w.database } :
        World) = w
      rw [hl]
    rw [hsame]
    exact hw
  | call fault call =>
    obtain ⟨ho, hs⟩ := hl
    change (exec (call.run master fault) w).2.Serving master
    rcases hw.safe_call ho hs with hsame | ⟨n, h, ha, hv, hkeeps, hh, hafter⟩
    · rw [hsame]
      exact hw
    · have hstep : Tracked.step master ⟨w.handler, w.database⟩ n =
          ⟨h, liveAfter w.database n⟩ := by
        simp only [Tracked.step, hh]
      have hagrees := hw.agreeing.agrees.step master hv
      have hexact := (hw.agreeing.agrees.exact_step_iff master hw.agreeing.exact hv).mpr hkeeps
      rw [hstep] at hagrees hexact
      rw [hafter]
      refine ⟨⟨?_, hagrees, hexact⟩, ?_⟩
      · exact ServiceCall.constraints_announced hw.agreeing.constraints ha
      · exact (handle_exchangeType master hh).trans hw.exchangeType

end Step

section Runs
variable (master : String) (serviceManager : String → Option EntryPoint) (config : HookConfig)

open Classical in
/-- Whatever calls failed and whatever was removed behind its back before, from a restart on and
as long as the steps are quiet, the daemon hands to the task queue, for every message, one hook
for each stored subscription that asks for the message, in its stored version, and no other. -/
theorem hooks_since_restart {w : World} (hw : Constraints w.database)
    (history since : List DaemonStep) {rows : List Subscription}
    (hrows : rows.Perm (history.foldl (World.step master) w).database)
    (hquiet : Run.Along (World.step master) World.Quiet
      ((history.foldl (World.step master) w).step master (.restart rows)) since)
    (m : Message) (d : BusDelivery) :
    let now := since.foldl (World.step master)
      ((history.foldl (World.step master) w).step master (.restart rows))
    ∃ done, d.dispatch serviceManager config now.handler.busConsumer m = .ok done ∧
      ((d.submitted serviceManager config done.invoked).map HookRunnerArgs.hook).Perm
        ((now.database.filter fun s => s.Asks master m).filterMap fun s =>
          hookOf serviceManager config (dump s) m.payload) ∧
      (Function.Injective d.hookUuid →
        ((d.submitted serviceManager config done.invoked).map HookRunnerArgs.hookUuid).Nodup) := by
  intro now
  have hconstraints := World.constraints_run master hw history
  have hserving : Run.Always (World.step master) (World.Serving master)
      ((history.foldl (World.step master) w).step master (.restart rows)) since := by
    refine Run.always_of_along (J := World.Serving master) ?_ (fun _ hσ => hσ) ?_ hquiet
    · intro σ l hσ hl
      exact hσ.step hl
    · exact World.serving_restart hconstraints hrows
  have hnow : now.Serving master := hserving since List.prefix_rfl
  obtain ⟨done, hdone, hperm⟩ :=
    hnow.agreeing.agrees.dispatch_hooks hnow.agreeing.exact hnow.exchangeType d m
  exact ⟨done, hdone, hperm, fun hinj => submitted_uuids_nodup hinj done.invoked⟩

theorem serving_emptyWorld : emptyWorld.Serving "master" := ⟨agreeing_emptyWorld, rfl⟩

def missedCallWorld : World := emptyWorld.step "master" (.call none createMissedCall)

theorem serving_missedCallWorld : missedCallWorld.Serving "master" := by
  have hsafe : createMissedCall.Safe none emptyWorld.database := by
    refine .inr ⟨by decide, by decide, ?_⟩
    intro n hn
    cases hn
    trivial
  exact serving_emptyWorld.step (l := .call none createMissedCall) ⟨trivial, hsafe⟩

def missedCallMessage : Message where
  name := "user_missed_call"
  payload := .obj []
  headers := (Finmap.singleton "name" (.str "user_missed_call")).insert "tenant_uuid"
    (.str "6c6d3b6c-58cb-4f5c-9a0e-0f1f0c1f7a03")

open Classical in
/-- A notifier that cannot publish leaves a callback without a row; after a restart the same
creation goes through, and a message gets the hook of the one row. -/
theorem hooks_since_restart_missed_call :
    let history : List DaemonStep := [.call (some .notifier) createMissedCall]
    let since : List DaemonStep := [.call none createMissedCall]
    let d : BusDelivery := ⟨fun _ => "0b9d2d5e-4a62-4bd0-8b2b-7f3f6a2f8c05", fun _ _ => .ok ()⟩
    let now := since.foldl (World.step "master")
      ((history.foldl (World.step "master") emptyWorld).step "master" (.restart []))
    ∃ done, d.dispatch (fun _ => some ⟨"http.plugin", "Service"⟩) ⟨10, 2⟩
        now.handler.busConsumer missedCallMessage = .ok done ∧
      ((d.submitted (fun _ => some ⟨"http.plugin", "Service"⟩) ⟨10, 2⟩ done.invoked).map
        HookRunnerArgs.hook).Perm
          ((now.database.filter fun s => s.Asks "master" missedCallMessage).filterMap fun s =>
            hookOf (fun _ => some ⟨"http.plugin", "Service"⟩) ⟨10, 2⟩ (dump s)
              missedCallMessage.payload) ∧
      (Function.Injective d.hookUuid →
        ((d.submitted (fun _ => some ⟨"http.plugin", "Service"⟩) ⟨10, 2⟩ done.invoked).map
          HookRunnerArgs.hookUuid).Nodup) := by
  intro history since d now
  have hrows : ([] : List Subscription).Perm
      (history.foldl (World.step "master") emptyWorld).database := by decide
  have hsafe : createMissedCall.Safe none
      ((history.foldl (World.step "master") emptyWorld).step "master" (.restart [])).database := by
    refine Or.inr ⟨by decide, by decide, ?_⟩
    intro n hn
    cases hn
    trivial
  exact hooks_since_restart "master" _ ⟨10, 2⟩ agreeing_emptyWorld.constraints history since hrows
    ⟨⟨trivial, hsafe⟩, trivial⟩ missedCallMessage d

end Runs

section Broker
variable (master : String)

theorem bound_scratch (exchangeType : String) {rows : List Subscription} (hc : Constraints rows) :
    (scratch master exchangeType rows).busConsumer.Tagged ∧
      (scratch master exchangeType rows).busConsumer.Bound := by
  induction rows using List.reverseRecOn with
  | nil =>
    constructor
    · intro e entry hentry
      cases hentry
    · intro e entry hentry
      cases hentry
  | append_singleton rows s ih =>
    have hnodup := hc.1
    rw [List.map_append, List.nodup_append] at hnodup
    have hrows : Constraints rows :=
      ⟨hnodup.1, fun t ht => hc.2 t (List.mem_append_left _ ht)⟩
    obtain ⟨htagged, hbound⟩ := ih hrows
    have hagrees := agrees_scratch master exchangeType hrows
    have hvalid : Tracked.Valid ⟨scratch master exchangeType rows, rows⟩ (.created s) := by
      refine ⟨(hc.2 s (List.mem_append_right _ List.mem_cons_self)).1, ?_⟩
      intro t ht
      exact hnodup.2.2 t.uuid (List.mem_map_of_mem ht) _ List.mem_cons_self
    have htagged' := hagrees.tagged_step master htagged hvalid
    have hbound' := (hagrees.bound_step_iff master htagged hbound hvalid).mpr trivial
    rw [scratch_concat] at htagged' hbound'
    exact ⟨htagged', hbound'⟩

namespace World

/-- A quiet step whose update, if it is one, leaves the broker the bindings of its events. -/
def KeepsBroker (w : World) (l : DaemonStep) : Prop :=
  w.Quiet l ∧ ∀ fault call n, l = .call fault call → call.announced w.database = some n →
    Tracked.KeepsBindings master ⟨w.handler, w.database⟩ n

/-- The daemon serves its subscriptions, and every entry of its table is bound. -/
structure Listening (w : World) : Prop where
  serving : w.Serving master
  tagged : w.handler.busConsumer.Tagged
  bound : w.handler.busConsumer.Bound

variable {master} {w : World}

theorem listening_restart (hc : Constraints w.database) {rows : List Subscription}
    (hp : rows.Perm w.database) : (w.step master (.restart rows)).Listening master := by
  have hrows : Constraints rows :=
    ⟨(hp.map _).nodup_iff.mpr hc.1, fun s hs => hc.2 s (hp.mem_iff.mp hs)⟩
  obtain ⟨htagged, hbound⟩ := bound_scratch master "headers" hrows
  exact ⟨serving_restart hc hp, htagged, hbound⟩

theorem Listening.step (hw : w.Listening master) {l : DaemonStep} (hl : w.KeepsBroker master l) :
    (w.step master l).Listening master := by
  obtain ⟨hquiet, hkeeps⟩ := hl
  cases l with
  | restart rows => exact listening_restart hw.serving.agreeing.constraints hquiet
  | sync iteration authTenants authUsers =>
    exact ⟨hw.serving.step hquiet, hw.tagged, hw.bound⟩
  | call fault call =>
    have hserving := hw.serving.step hquiet
    obtain ⟨ho, hs⟩ := hquiet
    rcases hw.serving.safe_call ho hs with hsame | ⟨n, h, ha, hv, -, hh, hafter⟩
    · have hstep : w.step master (.call fault call) = w := hsame
      rw [hstep]
      exact hw
    · have hstep : Tracked.step master ⟨w.handler, w.database⟩ n =
          ⟨h, liveAfter w.database n⟩ := by
        simp only [Tracked.step, hh]
      have hagrees := hw.serving.agreeing.agrees
      have htagged := hagrees.tagged_step master hw.tagged hv
      have hbound := (hagrees.bound_step_iff master hw.tagged hw.bound hv).mpr
        (hkeeps fault call n rfl ha)
      rw [hstep] at htagged hbound
      have hworld : (w.step master (.call fault call)).handler = h := congrArg handler hafter
      refine ⟨hserving, ?_, ?_⟩
      · rw [hworld]
        exact htagged
      · rw [hworld]
        exact hbound

/-- Every message a stored subscription asks for is let through by a binding of the queue. -/
theorem Listening.delivers (hw : w.Listening master) {s : Subscription} (hs : s ∈ w.database)
    {m : Message} (ha : s.Asks master m) :
    ∃ b ∈ w.handler.busConsumer.queueBindings, HeadersExchange.Delivers b.arguments m.headers := by
  have hexact := (hw.serving.agreeing.agrees.exact_iff master "headers").mp
    hw.serving.agreeing.exact s hs m.name
  rw [freshContent, if_pos ha.event] at hexact
  have hmem : (dump s, bindingOf m.name (handleTenantEvents m.name (buildHeaders master s))) ∈
      (w.handler.entries s.uuid m.name).map Entry.content := by
    rw [hexact]
    exact List.mem_cons_self
  obtain ⟨entry, hentry, hcontent⟩ := List.mem_map.mp hmem
  have hbinding : entry.binding =
      bindingOf m.name (handleTenantEvents m.name (buildHeaders master s)) :=
    congrArg Prod.snd hcontent
  have hbound := hw.bound m.name entry (List.mem_filter.mp hentry).1
  rw [hbinding] at hbound
  exact ⟨_, hbound, (delivers_eventBinding_iff master ha.event).mpr ha⟩

end World

/-- From a restart on, as long as the steps also keep the bindings of the queue, the broker
delivers to it every message that a stored subscription asks for. -/
theorem asked_messages_reach_queue {w : World} (hw : Constraints w.database)
    (history since : List DaemonStep) {rows : List Subscription}
    (hrows : rows.Perm (history.foldl (World.step master) w).database)
    (hkeeps : Run.Along (World.step master) (World.KeepsBroker master)
      ((history.foldl (World.step master) w).step master (.restart rows)) since) :
    let now := since.foldl (World.step master)
      ((history.foldl (World.step master) w).step master (.restart rows))
    ∀ s ∈ now.database, ∀ m : Message, s.Asks master m →
      ∃ b ∈ now.handler.busConsumer.queueBindings,
        HeadersExchange.Delivers b.arguments m.headers := by
  intro now s hs m ha
  have hconstraints := World.constraints_run master hw history
  have hlistening : Run.Always (World.step master) (World.Listening master)
      ((history.foldl (World.step master) w).step master (.restart rows)) since := by
    refine Run.always_of_along (J := World.Listening master) ?_ (fun _ hσ => hσ) ?_ hkeeps
    · intro σ l hσ hl
      exact hσ.step hl
    · exact World.listening_restart hconstraints hrows
  exact (hlistening since List.prefix_rfl).delivers hs ha

/-- The same creation after a restart, seen from the broker. -/
theorem asked_messages_reach_queue_missed_call :
    let history : List DaemonStep := [.call (some .notifier) createMissedCall]
    let since : List DaemonStep := [.call none createMissedCall]
    let now := since.foldl (World.step "master")
      ((history.foldl (World.step "master") emptyWorld).step "master" (.restart []))
    ∀ s ∈ now.database, ∀ m : Message, s.Asks "master" m →
      ∃ b ∈ now.handler.busConsumer.queueBindings,
        HeadersExchange.Delivers b.arguments m.headers := by
  intro history since now
  have hrows : ([] : List Subscription).Perm
      (history.foldl (World.step "master") emptyWorld).database := by decide
  refine asked_messages_reach_queue "master" agreeing_emptyWorld.constraints history since hrows
    ⟨⟨⟨trivial, Or.inr ⟨by decide, by decide, ?_⟩⟩, ?_⟩, trivial⟩
  · intro n hn
    cases hn
    trivial
  · intro fault call n hcall hn
    cases hcall
    cases hn
    trivial

end Broker

end WazoWebhookd
