import WazoWebhookd.Subscription.ServiceCalls

/-! The calls of the service under a failure of one of their steps: which of them leave all
the stores as they were, or bring all of them to the new version. -/
namespace WazoWebhookd
open Failing SubscriptionService

/-- The registry and the table are those of the database. -/
structure World.Agreeing (master exchangeType : String) (w : World) : Prop where
  constraints : Constraints w.database
  agrees : Tracked.Agrees ⟨w.handler, w.database⟩
  exact : Tracked.Exact master exchangeType ⟨w.handler, w.database⟩

/-- A call announces what the handler can take: no other row has the key of a created
subscription, and an updated or deleted one is stored. -/
theorem ServiceCall.valid_announced {call : ServiceCall} {database : List Subscription}
    {n : Notification} (h : SubscriptionBusEventHandler)
    (ha : call.announced database = some n) (ho : call.Iterates database) :
    Tracked.Valid ⟨h, database⟩ n := by
  cases call with
  | create uuid new =>
    obtain ⟨tenantUuid, -, rfl, hc⟩ := announced_create ha
    refine ⟨(hc.2 _ (List.mem_append_right _ List.mem_cons_self)).1, ?_⟩
    intro t ht hu
    have hnodup := hc.1
    rw [liveAfter, List.map_append, List.nodup_append] at hnodup
    exact hnodup.2.2 t.uuid (List.mem_map_of_mem ht) _ List.mem_cons_self hu
  | update uuid new order tenants user =>
    obtain ⟨s, hs, rfl, hc⟩ := announced_update ha
    obtain ⟨hmem, -, -⟩ := mem_of_find hs
    have hnew : s.clearRelations.fromSchema new ∈
        liveAfter database (.updated (s.clearRelations.fromSchema new) order) :=
      (mem_liveAfter_updated order).mpr (Or.inl ⟨rfl, s, hmem, rfl⟩)
    refine ⟨(hc.2 _ hnew).1, s, hmem, rfl, ?_⟩
    rw [fromSchema_cleared_events]
    exact ho s hs
  | delete uuid tenants user =>
    obtain ⟨s, hs, rfl⟩ := announced_delete ha
    exact ⟨s, (mem_of_find hs).1, rfl⟩

theorem Tracked.Agrees.handle_ok (master : String) {σ : Tracked} (ha : σ.Agrees)
    {n : Notification} (hv : σ.Valid n) : ∃ h, σ.handler.handle master n = .ok h := by
  cases n with
  | created s => exact ⟨_, rfl⟩
  | deleted s => exact ⟨_, rfl⟩
  | updated s order =>
    obtain ⟨-, t, ht, htu, ho⟩ := hv
    obtain ⟨prev, hprev, -, hpe⟩ := ha.row t ht
    rw [htu] at hprev
    rw [← hpe] at ho
    obtain ⟨h', -, hok, -⟩ := ha.consistent.update_spec master hprev ho
    exact ⟨h', hok⟩

/-- A call that raises has left nothing behind; one that returns has brought the database,
the registry, the table, the pubsub and the bus to the new version. -/
def AllOrNothing (master exchangeType : String) (w : World) (call : ServiceCall) :
    Except ServiceError Unit × World → Prop
  | (.error _, w') => w' = w
  | (.ok _, w') => ∃ n, call.announced w.database = some n ∧
      w'.database = liveAfter w.database n ∧ w'.Agreeing master exchangeType ∧
      w'.pubsubLog = w.pubsubLog ++ [n] ∧ w'.busLog = w.busLog ++ [n.lifecycleEvent]

/-- The request cannot be met, or a step before the publication fails, or no step fails at
all and the handler keeps the table exact. -/
def ServiceCall.Safe (fault : Option Fault) (database : List Subscription)
    (call : ServiceCall) : Prop :=
  (call.announced database = none ∨ call.EarlyFault fault) ∨
    fault ≠ some .notifier ∧ fault ≠ some .commit ∧
      ∀ n, call.announced database = some n → KeepsHeaders n

/-- A call is all or nothing exactly when it does not fail once it has published. -/
theorem all_or_nothing_iff (master exchangeType : String) (fault : Option Fault) {w : World}
    (hw : w.Agreeing master exchangeType) {call : ServiceCall} (ho : call.Iterates w.database) :
    AllOrNothing master exchangeType w call (exec (call.run master fault) w) ↔
      call.Safe fault w.database := by
  by_cases hearly : call.announced w.database = none ∨ call.EarlyFault fault
  · obtain ⟨e, he⟩ := call.exec_run_early master hearly
    rw [he]
    exact iff_of_true rfl (Or.inl hearly)
  · obtain ⟨hnone, hf⟩ := not_or.mp hearly
    obtain ⟨n, ha⟩ := Option.ne_none_iff_exists'.mp hnone
    have hv := ServiceCall.valid_announced w.handler ha ho
    obtain ⟨h, hh⟩ := hw.agrees.handle_ok master hv
    have hpub : w.pubsubLog ++ [n] ≠ w.pubsubLog := by simp
    rw [ServiceCall.exec_run_announced hw.constraints ha hf, outcome, hh]
    dsimp only
    split_ifs with hn hc
    · refine iff_of_false ?_ ?_
      · intro hall
        exact hpub (congrArg World.pubsubLog hall)
      · rintro (hearly' | hsafe)
        · exact hearly hearly'
        · exact hsafe.1 hn
    · refine iff_of_false ?_ ?_
      · intro hall
        exact hpub (congrArg World.pubsubLog hall)
      · rintro (hearly' | hsafe)
        · exact hearly hearly'
        · exact hsafe.2.1 hc
    · have hstep : Tracked.step master ⟨w.handler, w.database⟩ n =
          ⟨h, liveAfter w.database n⟩ := by
        simp only [Tracked.step, hh]
      have hagrees := hw.agrees.step master hv
      have hexact := hw.agrees.exact_step_iff master hw.exact hv
      rw [hstep] at hagrees hexact
      constructor
      · rintro ⟨n', ha', -, hagree', -⟩
        refine Or.inr ⟨hn, hc, ?_⟩
        intro n'' ha''
        obtain rfl : n = n'' := by simpa [ha] using ha''
        exact hexact.mp hagree'.exact
      · rintro (hearly' | ⟨-, -, hk⟩)
        · exact absurd hearly' hearly
        · exact ⟨n, ha, rfl, ⟨ServiceCall.constraints_announced hw.constraints ha, hagrees,
            hexact.mpr (hk n ha)⟩, rfl, rfl⟩

def emptyWorld : World := ⟨[], .init "headers", [], []⟩

theorem agreeing_emptyWorld : emptyWorld.Agreeing "master" "headers" where
  constraints := ⟨List.nodup_nil, fun _ h => by cases h⟩
  agrees := Tracked.agrees_init "headers"
  exact := Tracked.exact_init "master" "headers"

def createMissedCall : ServiceCall :=
  .create "8b6d3f5e-0d3f-4f0e-9a53-3b8b1d3f5e01"
    { name := "missed calls"
      service := "http"
      config := [("method", some "get"), ("url", some "http://localhost/")]
      events := ["user_missed_call"]
      metadata := []
      eventsWazoUuid := some none
      eventsUserUuid := some none
      ownerUserUuid := some none
      ownerTenantUuid := some "6c6d3b6c-58cb-4f5c-9a0e-0f1f0c1f7a03" }

theorem all_or_nothing_iff_no_fault :
    AllOrNothing "master" "headers" emptyWorld createMissedCall
      (exec (createMissedCall.run "master" none) emptyWorld) := by
  have ho : createMissedCall.Iterates emptyWorld.database := trivial
  refine (all_or_nothing_iff "master" "headers" none agreeing_emptyWorld ho).mpr
    (Or.inr ⟨by decide, by decide, ?_⟩)
  intro n hn
  cases hn
  trivial

/-- The broker is down when the notifier publishes: the row is rolled back, the callback
stays. -/
theorem createMissedCall_not_undone :
    emptyWorld.Agreeing "master" "headers" ∧
      ¬ AllOrNothing "master" "headers" emptyWorld createMissedCall
        (exec (createMissedCall.run "master" (some .notifier)) emptyWorld) := by
  refine ⟨agreeing_emptyWorld, ?_⟩
  intro hall
  have hrow : ((exec (createMissedCall.run "master" (some .notifier)) emptyWorld).2.handler
      |>.subscriptionCallbacks "8b6d3f5e-0d3f-4f0e-9a53-3b8b1d3f5e01").isSome := by decide
  have hworld : (exec (createMissedCall.run "master" (some .notifier)) emptyWorld).2 =
      emptyWorld := hall
  rw [hworld] at hrow
  cases hrow

end WazoWebhookd
