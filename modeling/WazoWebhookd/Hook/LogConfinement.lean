import WazoWebhookd.Hook.EndToEnd
import WazoWebhookd.Subscription.LogPages

/-! The endpoint of the logs, and which messages of the bus a client can learn from it. -/
namespace WazoWebhookd
open Failing HeadersExchange SubscriptionService

/-- What a client asks, once its parameters are loaded, with the tenants that it sees. -/
structure LogsRequest where
  subscriptionUuid : String
  visibleTenants : List String
  fromDate : Option ℤ
  limit : Option ℕ
  offset : Option ℕ
  order : SortColumn
  direction : Direction

def SubscriptionLogsResource.get (fault : Option Fault) (database : DatabaseOrder)
    (table : LogTable) (request : LogsRequest) : ServiceM (List SubscriptionLog × ℕ) := do
  let _ ← SubscriptionService.get fault request.subscriptionUuid request.visibleTenants none
  let results := getLogs database table request.subscriptionUuid request.fromDate request.limit
    request.offset request.order request.direction
  pure (results, results.length)

section Query
variable {database : DatabaseOrder} {table : LogTable} {request : LogsRequest} {w : World}

theorem mem_of_mem_getLogs {uuid : String} {fromDate : Option ℤ} {limit offset : Option ℕ}
    {order : SortColumn} {direction : Direction} {row : SubscriptionLog}
    (h : row ∈ getLogs database table uuid fromDate limit offset order direction) :
    row ∈ table.rows ∧ row.subscriptionUuid = uuid := by
  have harranged : row ∈ database.arrange order direction (matchingLogs table uuid fromDate) := by
    unfold getLogs at h
    cases limit with
    | none =>
      cases offset with
      | none => exact h
      | some offset => exact List.mem_of_mem_drop h
    | some limit =>
      cases offset with
      | none => exact List.mem_of_mem_take h
      | some offset => exact List.mem_of_mem_drop (List.mem_of_mem_take h)
  have hmatching : row ∈ matchingLogs table uuid fromDate :=
    (database.arranges order direction (matchingLogs table uuid fromDate)).1.mem_iff.mp harranged
  have hquery : row ∈ table.rows.filter fun row => row.subscriptionUuid = uuid := by
    unfold matchingLogs at hmatching
    cases fromDate with
    | none => exact hmatching
    | some fromDate => exact List.mem_of_mem_filter hmatching
  exact ⟨List.mem_of_mem_filter hquery, of_decide_eq_true (List.mem_filter.mp hquery).2⟩

/-- The answer is the one of the query for a subscription that the client sees, and 404 else. -/
theorem exec_logsResource_get :
    exec (SubscriptionLogsResource.get none database table request) w =
      match find w.database request.subscriptionUuid request.visibleTenants none with
      | none => (.error (.noSuchSubscription request.subscriptionUuid), w)
      | some _ =>
        let results := getLogs database table request.subscriptionUuid request.fromDate
          request.limit request.offset request.order request.direction
        (.ok (results, results.length), w) := by
  unfold SubscriptionLogsResource.get SubscriptionService.get
  rw [exec_bind, exec_get_, if_neg nofun]
  cases find w.database request.subscriptionUuid request.visibleTenants none <;> rfl

end Query

/-- Every version that a step announces is of the tenant of its uuid. -/
def WebhookSystem.KeepsTenants (tenant : String → String) : WebhookSystem → SystemStep → Prop :=
  WebhookSystem.Announces fun s => s.ownerTenantUuid = tenant s.uuid

section Main
variable (serviceManager : String → Option EntryPoint) (config : HookConfig) (master : String)
  (world : String → ℕ → LoggedAttempt) (tenant : String → String) {w : World}
  (hw : w.Serving master) (htenant : ∀ s ∈ w.database, s.ownerTenantUuid = tenant s.uuid)
  (ls : List SystemStep)
  (hv : Run.Along (WebhookSystem.step serviceManager config master world)
    (WebhookSystem.Valid serviceManager config master) (.start w) ls)
  (hkeeps : Run.Along (WebhookSystem.step serviceManager config master world)
    (WebhookSystem.KeepsTenants tenant) (.start w) ls)
include hw htenant hv hkeeps

/-- As long as no call gives a subscription to another tenant, be it one that fails, a client
learns from the logs only of messages of the tenants that it sees, unless it sees the master
tenant; it gets a 404 for the subscriptions of the others. -/
theorem logs_are_confined (database : DatabaseOrder) (request : LogsRequest)
    (hvisible : request.visibleTenants ≠ []) :
    let σ := ls.foldl (WebhookSystem.step serviceManager config master world) (.start w)
    ∃ table : LogTable, table.rows = σ.pool.log ∧
      match (exec (SubscriptionLogsResource.get none database table request) σ.daemon).1 with
      | .error e => e = .noSuchSubscription request.subscriptionUuid ∧
          ∀ s ∈ σ.daemon.database, s.uuid = request.subscriptionUuid →
            s.ownerTenantUuid ∉ request.visibleTenants
      | .ok (items, total) => total = items.length ∧ ∀ row ∈ items,
          row ∈ σ.pool.log ∧ row.subscriptionUuid = request.subscriptionUuid ∧
          ∃ pre m d post, ls = pre ++ .message m d :: post ∧ row.event = m.payload ∧
            ∃ tenantUuid ∈ request.visibleTenants, tenantUuid = master ∨
              Meets m.headers "tenant_uuid" (.str tenantUuid) := by
  intro σ
  have hconstraints := hw.agreeing.constraints
  have hkeys : (σ.pool.log.map fun row => (row.uuid, row.attempts)).Nodup := by
    obtain ⟨p, jobs, h, -, -⟩ := WebhookSystem.exists_shadow hconstraints hv
    exact h.keys_nodup
  refine ⟨⟨σ.pool.log, hkeys⟩, rfl, ?_⟩
  rw [exec_logsResource_get]
  cases hfind : find σ.daemon.database request.subscriptionUuid request.visibleTenants none with
  | none =>
    refine ⟨rfl, ?_⟩
    intro s hs huuid hmem
    have hnot := List.find?_eq_none.mp hfind s hs
    exact hnot (decide_eq_true ⟨huuid, fun _ => hmem, nofun⟩)
  | some s =>
    obtain ⟨hs, huuid, hseen⟩ := mem_of_find hfind
    refine ⟨rfl, ?_⟩
    intro row hrow
    obtain ⟨hlog, hsubscription⟩ := mem_of_mem_getLogs hrow
    obtain ⟨o⟩ := WebhookSystem.exists_rowOrigin hconstraints hv hlog
    refine ⟨hlog, hsubscription, o.pre, o.message, o.delivery, o.post, o.run_eq, o.event,
      s.ownerTenantUuid, hseen.1 hvisible, ?_⟩
    have hholds := WebhookSystem.holds_run (hw.holds htenant) hv hkeeps
    have hv' := hv
    have hkeeps' := hkeeps
    rw [o.run_eq, Run.along_append] at hv' hkeeps'
    have hbefore := WebhookSystem.holds_run (hw.holds htenant) hv'.1 hkeeps'.1
    obtain ⟨⟨version, hversion, hdump⟩, haddressed⟩ :=
      WebhookSystem.addressed_of hbefore o.mem_tasksOf
    have hsame : s.uuid = version.uuid := by
      rw [huuid, ← hsubscription, ← o.subscriptionUuid, hdump]
      rfl
    have howner : s.ownerTenantUuid = version.ownerTenantUuid := by
      rw [hholds.stored s hs, hversion, hsame]
    rw [hdump] at haddressed
    rw [howner]
    rcases haddressed.tenant with hmaster | hlookup
    · exact .inl hmaster
    · refine .inr ⟨_, hlookup, ?_⟩
      change (HeaderValue.str version.ownerTenantUuid).pyEq _ = true
      simp [HeaderValue.pyEq]

end Main

def DatabaseOrder.sorting : DatabaseOrder where
  arrange order direction rows := rows.insertionSort (orderedBy order direction)
  arranges _ _ _ := ⟨List.perm_insertionSort _ _, List.pairwise_insertionSort _ _⟩

/-- The tenant of the subscription finds the one log of the missed call, which has the payload of
a message of this tenant. -/
theorem logs_are_confined_missed_call :
    let steps := missedCallSteps missedCallMessage 1
    let σ := steps.foldl (WebhookSystem.step (fun _ => some ⟨"http.plugin", "Service"⟩) ⟨10, 2⟩
      "master" flakyWorld) (.start emptyWorld)
    let request : LogsRequest := ⟨"8b6d3f5e-0d3f-4f0e-9a53-3b8b1d3f5e01",
      ["6c6d3b6c-58cb-4f5c-9a0e-0f1f0c1f7a03"], none, none, none, .startedAt, .desc⟩
    σ.pool.log.map (·.attempts) = [1] ∧ ∃ table : LogTable, table.rows = σ.pool.log ∧
      ∃ items total, (exec (SubscriptionLogsResource.get none .sorting table request)
          σ.daemon).1 = .ok (items, total) ∧
        ∀ row ∈ items, ∃ m d, .message m d ∈ steps ∧ row.event = m.payload ∧
          Meets m.headers "tenant_uuid" (.str "6c6d3b6c-58cb-4f5c-9a0e-0f1f0c1f7a03") := by
  intro steps σ request
  have hkeeps : Run.Along (WebhookSystem.step (fun _ => some ⟨"http.plugin", "Service"⟩) ⟨10, 2⟩
      "master" flakyWorld)
      (WebhookSystem.KeepsTenants fun _ => "6c6d3b6c-58cb-4f5c-9a0e-0f1f0c1f7a03")
      (.start emptyWorld) steps := by
    refine ⟨?_, ?_, ?_, trivial⟩
    · intro fault call n s hcall hn hs
      cases hcall
      cases hn
      cases hs
      rfl
    · intro fault call n s hcall
      cases hcall
    · intro fault call n s hcall
      cases hcall
  obtain ⟨table, htable, hconfined⟩ := logs_are_confined _ _ "master" flakyWorld
    (fun _ => "6c6d3b6c-58cb-4f5c-9a0e-0f1f0c1f7a03") serving_emptyWorld nofun steps
    missedCallSteps_valid hkeeps .sorting request (by simp [request])
  have hfind : (find σ.daemon.database request.subscriptionUuid request.visibleTenants
      none).isSome = true := by decide
  obtain ⟨s, hs⟩ := Option.isSome_iff_exists.mp hfind
  refine ⟨by decide, table, htable, ?_⟩
  rw [exec_logsResource_get, hs] at hconfined ⊢
  refine ⟨_, _, rfl, ?_⟩
  intro row hrow
  obtain ⟨-, -, pre, m, d, post, hsteps, hevent, tenantUuid, htenant, hmaster⟩ :=
    hconfined.2 row hrow
  obtain rfl : tenantUuid = "6c6d3b6c-58cb-4f5c-9a0e-0f1f0c1f7a03" := by
    simpa [request] using htenant
  refine ⟨m, d, ?_, hevent, hmaster.resolve_left (by decide)⟩
  rw [hsteps]
  exact List.mem_append_right _ List.mem_cons_self

end WazoWebhookd
