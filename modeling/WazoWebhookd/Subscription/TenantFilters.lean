import WazoWebhookd.Subscription.PrivateHooks

/-! Whose events reach the callbacks of the subscriptions, over runs of requests that may move them
from one tenant to another. -/
namespace WazoWebhookd
open Failing SubscriptionService SubscriptionBusEventHandler

theorem HeadersOf.tenantFilter {master : String} {s : Subscription} {headers : Headers}
    (h : HeadersOf master s headers) : headers.lookup "tenant_uuid" =
      if s.ownerTenantUuid = master then none else some (.str s.ownerTenantUuid) := by
  have hbuilt : (buildHeaders master s).lookup "tenant_uuid" =
      if s.ownerTenantUuid = master then none else some (.str s.ownerTenantUuid) := by
    rw [lookup_buildHeaders, if_neg (by decide), if_pos rfl]
  rcases h with rfl | rfl
  · exact hbuilt
  · rw [lookup_rewriteUserHeaders_of_not (by decide), hbuilt]

/-- The callbacks of the stored subscriptions are bound to the events of the tenants under which
these were created, or to those of every tenant if that is the master tenant. -/
def World.FiltersTenants (master : String) (origin : String → Option String) (w : World) : Prop :=
  ∀ s ∈ w.database, ∀ e, ∀ entry ∈ w.handler.entries s.uuid e, ∃ tenantUuid,
    origin s.uuid = some tenantUuid ∧ entry.binding.arguments.lookup "tenant_uuid" =
      if tenantUuid = master then none else some (.str tenantUuid)

/-- The registry is that of the database, and a version stands behind every entry. -/
structure World.Registered (master : String) (w : World) : Prop where
  holds : w.Holds master fun _ => True
  agrees : Tracked.Agrees ⟨w.handler, w.database⟩

section Registered
variable {master : String} {w : World}

theorem World.Serving.registered (hw : w.Serving master) : w.Registered master :=
  ⟨hw.holds fun _ _ => trivial, hw.agreeing.agrees⟩

/-- Where the subscriptions are in their tenants, so are the events of their callbacks. -/
theorem World.Registered.filtersTenants (hw : w.Registered master)
    {origin : String → Option String} (hk : KeepsTenants origin w.database) :
    w.FiltersTenants master origin := by
  intro s hs e entry hentry
  obtain ⟨row, hrow, hdump, -⟩ := hw.agrees.row s hs
  obtain ⟨b, hb⟩ := hw.agrees.consistent.entries_some hrow e
  have hhandler : entry.handler = row.fn := by
    have hmem : entry ∈ rowEntries row e b := hb ▸ hentry
    rw [List.mem_singleton.mp ((rowEntries_sublist row e b).subset hmem)]
  obtain ⟨t, -, hmade⟩ := hw.holds.attributed e entry (List.mem_of_mem_filter hentry)
  obtain ⟨headers, hheaders, hbinding⟩ := hmade.binding
  have htenant : t.ownerTenantUuid = s.ownerTenantUuid := by
    have hsame : dump t = dump s := by rw [← hmade.handler, hhandler, hdump]
    exact congrArg SubscriptionDict.ownerTenantUuid hsame
  refine ⟨s.ownerTenantUuid, hk s hs, ?_⟩
  rw [hbinding, bindingOf, Finmap.lookup_insert_of_ne _ (by decide), hheaders.tenantFilter,
    htenant]

theorem World.Registered.call (hw : w.Registered master) {fault : Option Fault}
    {call : ServiceCall} (ho : call.Iterates w.database) (hnotifier : fault ≠ some .notifier)
    (hcommit : fault ≠ some .commit) : (w.step master (.call fault call)).Registered master := by
  refine ⟨hw.holds.call fault fun _ _ _ _ => trivial, ?_⟩
  change Tracked.Agrees ⟨(exec (call.run master fault) w).2.handler,
    (exec (call.run master fault) w).2.database⟩
  rcases World.call_of_agrees hw.holds.constraints hw.agrees ho hnotifier hcommit with
    hsame | ⟨n, h, -, hv, hh, hafter⟩
  · rw [hsame]
    exact hw.agrees
  · have hstep : Tracked.step master ⟨w.handler, w.database⟩ n =
        ⟨h, liveAfter w.database n⟩ := by
      simp only [Tracked.step, hh]
    have hagrees := hw.agrees.step master hv
    rw [hstep] at hagrees
    rw [hafter]
    exact hagrees

end Registered

section Runs
variable (mallow : AdminMallow) (text : Json → Option String) (master : String)

/-- A request none of whose steps fails once it has published. -/
def RestApi.Unfailing (σ : RestApi) (action : RestAction) : Prop :=
  action.fault ≠ some .notifier ∧ action.fault ≠ some .commit ∧
    ∀ call, action.call? text mallow = some call → call.Iterates σ.world.database

variable {mallow text master}

theorem RestApi.Unfailing.registered {σ : RestApi} {action : RestAction}
    (h : σ.Unfailing mallow text action) (hw : σ.world.Registered master) :
    (σ.step mallow text master action).world.Registered master := by
  obtain ⟨hnotifier, hcommit, hiterates⟩ := h
  rw [RestApi.step_world, RestAction.daemonSteps]
  cases hcall : action.call? text mallow with
  | none => exact hw
  | some call => exact hw.call (hiterates call hcall) hnotifier hcommit

/-- Subscriptions stay in their tenants in the runs in which every update of an administrator is
made in the tenant of the subscription. From a daemon that serves its database on, and where nothing
fails once it is published, their callbacks then get the events of these tenants. -/
theorem tenants_kept_iff (hm : mallow.Documented) (text : Json → Option String) (master : String)
    {w : World} (hw : Constraints w.database) (actions : List RestAction) :
    (Run.Always (RestApi.step mallow text master)
        (fun σ => KeepsTenants σ.origin σ.world.database) (RestApi.start w) actions ↔
      Run.Along (RestApi.step mallow text master) (SameTenant mallow text master)
        (RestApi.start w) actions) ∧
    (w.Serving master →
      Run.Along (RestApi.step mallow text master) (SameTenant mallow text master)
        (RestApi.start w) actions →
      Run.Along (RestApi.step mallow text master) (RestApi.Unfailing mallow text)
        (RestApi.start w) actions →
      Run.Always (RestApi.step mallow text master)
        (fun σ => σ.world.FiltersTenants master σ.origin) (RestApi.start w) actions) := by
  have hkept := always_keepsTenants_iff hm text master hw actions
  refine ⟨hkept, ?_⟩
  intro hserving hsame hunfailing
  have hregistered : Run.Always (RestApi.step mallow text master)
      (fun σ : RestApi => σ.world.Registered master) (RestApi.start w) actions := by
    refine Run.always_of_along (J := fun σ : RestApi => σ.world.Registered master) ?_
      (fun _ hσ => hσ) hserving.registered hunfailing
    intro σ action hσ haction
    exact haction.registered hσ
  intro before hbefore
  exact (hregistered before hbefore).filtersTenants (hkept.mpr hsame before hbefore)

end Runs

/-- An administrator of the master tenant, for whom the users' tenant is visible. -/
def masterAccess (tenantUuid : String) : Access where
  autodetect := .ok tenantUuid
  tokenVisibleTenants tenantUuid :=
    .ok (if tenantUuid = "master" then ["master", "users"] else [tenantUuid])

def callsBody : Json :=
  .obj [("name", .str "calls"), ("service", .str "mobile"),
    ("events", .arr [.str "call_created"]), ("config", .obj [])]

/-- Both requests are made with the header of the users' tenant. -/
theorem tenants_kept_with_header :
    let w : World := ⟨[], .init "headers", [], []⟩
    let actions : List RestAction := [.admin (masterAccess "users") none (.post "a" callsBody),
      .admin (masterAccess "users") none (.put "a" callsBody ["call_created"])]
    Run.Always (RestApi.step .plain Json.asString "master")
        (fun σ => KeepsTenants σ.origin σ.world.database) (RestApi.start w) actions ∧
      Run.Always (RestApi.step .plain Json.asString "master")
        (fun σ => σ.world.FiltersTenants "master" σ.origin) (RestApi.start w) actions := by
  intro w actions
  have hm : AdminMallow.plain.Documented := Mallow.documented_plain
  have hw : Constraints w.database := by decide
  obtain ⟨hkept, hfilters⟩ := tenants_kept_iff hm Json.asString "master" hw actions
  have hsame : Run.Along (RestApi.step .plain Json.asString "master")
      (SameTenant .plain Json.asString "master") (RestApi.start w) actions := by
    refine ⟨trivial, ?_, trivial⟩
    intro kwargs tenantUuids s _ hs
    have htenant : ∀ s ∈ (RestApi.step .plain Json.asString "master" (RestApi.start w)
        (.admin (masterAccess "users") none (.post "a" callsBody))).world.database,
        s.ownerTenantUuid = "users" := by decide
    rw [htenant s (mem_of_find hs.found).1]
    rfl
  refine ⟨hkept.mpr hsame, hfilters ⟨agreeing_emptyWorld, rfl⟩ hsame ⟨?_, ?_, trivial⟩⟩
  · refine ⟨by decide, by decide, ?_⟩
    rintro call ⟨⟩
    trivial
  · refine ⟨by decide, by decide, ?_⟩
    rintro call ⟨⟩ s hs
    have hiterates : ∀ s ∈ (RestApi.step .plain Json.asString "master" (RestApi.start w)
        (.admin (masterAccess "users") none (.post "a" callsBody))).world.database,
        IsIteration ["call_created"] ["call_created"] s.events := by decide
    exact hiterates s (mem_of_find hs).1

/-- The update of an administrator of the parent tenant moves the subscription, whose callback
then gets the events of every tenant. -/
theorem parent_update_moves :
    let w : World := ⟨[], .init "headers", [], []⟩
    let actions : List RestAction := [.admin (masterAccess "users") none (.post "a" callsBody),
      .admin (masterAccess "master") none (.put "a" callsBody ["call_created"])]
    (¬ Run.Always (RestApi.step .plain Json.asString "master")
        (fun σ => KeepsTenants σ.origin σ.world.database) (RestApi.start w) actions) ∧
      ((actions.foldl (RestApi.step .plain Json.asString "master")
        (RestApi.start w)).world.handler.entries "a" "call_created").map
          (fun entry => entry.binding.arguments.lookup "tenant_uuid") = [none] := by
  intro w actions
  constructor
  · intro h
    have hend := h actions (List.prefix_refl _)
    unfold KeepsTenants at hend
    exact absurd hend (by decide)
  · decide

end WazoWebhookd
