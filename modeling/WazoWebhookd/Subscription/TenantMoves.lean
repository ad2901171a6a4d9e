import WazoWebhookd.Library.Run
import WazoWebhookd.Subscription.AdminEndpoints
import WazoWebhookd.Subscription.Headers

/-! Whether a stored subscription stays in the tenant under which it was created, over whole
runs of requests. -/
namespace WazoWebhookd
open Failing SubscriptionService

/-- `origin` is the tenant under which each stored subscription was created. -/
def KeepsTenants (origin : String → Option String) (database : List Subscription) : Prop :=
  ∀ s ∈ database, origin s.uuid = some s.ownerTenantUuid

section Notifications
variable {origin : String → Option String} {database : List Subscription}

theorem KeepsTenants.created {s : Subscription} (h : KeepsTenants origin database)
    (hc : Constraints (liveAfter database (.created s))) :
    KeepsTenants (Function.update origin s.uuid (some s.ownerTenantUuid))
      (liveAfter database (.created s)) := by
  have hnew : s ∈ liveAfter database (.created s) := List.mem_append_right _ List.mem_cons_self
  intro t ht
  by_cases huuid : t.uuid = s.uuid
  · obtain rfl := hc.uuid_inj ht hnew huuid
    exact Function.update_self ..
  · have hold : t ∈ database := by
      refine (List.mem_append.mp ht).resolve_right fun hmem => huuid ?_
      rw [List.mem_singleton.mp hmem]
    rw [Function.update_of_ne huuid]
    exact h t hold

theorem KeepsTenants.deleted (h : KeepsTenants origin database) (s : Subscription) :
    KeepsTenants origin (liveAfter database (.deleted s)) :=
  fun t ht => h t (mem_liveAfter_deleted.mp ht).1

theorem keepsTenants_updated (h : KeepsTenants origin database) {s s' : Subscription}
    (hs : s ∈ database) (huuid : s'.uuid = s.uuid) (order : List String) :
    KeepsTenants origin (liveAfter database (.updated s' order)) ↔
      s'.ownerTenantUuid = s.ownerTenantUuid := by
  constructor
  · intro h'
    have hmem : s' ∈ liveAfter database (.updated s' order) :=
      (mem_liveAfter_updated order).mpr (Or.inl ⟨rfl, s, hs, huuid.symm⟩)
    exact Option.some.inj (((h' s' hmem).symm.trans (congrArg origin huuid)).trans (h s hs))
  · intro htenant t ht
    rcases (mem_liveAfter_updated order).mp ht with ⟨rfl, -⟩ | ⟨hold, -⟩
    · rw [huuid, htenant]
      exact h s hs
    · exact h t hold

end Notifications

/-- The endpoints, with the tenant under which each subscription was created. -/
structure RestApi where
  world : World
  origin : String → Option String

/-- A request under `/users/me/subscriptions` or under `/subscriptions`. -/
inductive RestAction
  | me (token : AnyToken) (fault : Option Fault) (request : UserRequest)
  | admin (access : Access) (fault : Option Fault) (request : UserRequest)

def originAfter (tenantUuid : Option String) (origin : String → Option String) :
    UserRequest → Bool → String → Option String
  | .post uuid _, true => Function.update origin uuid tenantUuid
  | _, _ => origin

namespace RestApi
variable (mallow : AdminMallow) (text : Json → Option String) (master : String)

def step (σ : RestApi) : RestAction → RestApi
  | .me token fault request =>
    let result := exec (request.serveMe mallow.toMallow text master fault token) σ.world
    ⟨result.2, originAfter (some token.tenantUuid) σ.origin request result.1.isOk⟩
  | .admin access fault request =>
    let result := exec (request.serveAdmin mallow text master fault access) σ.world
    ⟨result.2, originAfter access.autodetect.toOption σ.origin request result.1.isOk⟩

end RestApi

/-- What an administrator's `put` passes to the service, when it gets there. -/
def adminUpdate (mallow : AdminMallow) (text : Json → Option String) (access : Access)
    (json : Json) : Option (SchemaKwargs × List String) := do
  let subscription ← (loadSubscription mallow json).toOption
  let tenantUuid ← access.autodetect.toOption
  let tenantUuids ← (access.visibleTenants true).toOption
  let kwargs ← SchemaKwargs.ofDict text
    (subscription.insert "owner_tenant_uuid" (.str tenantUuid))
  pure (kwargs, tenantUuids)

/-- Nothing stops the update of `s`. -/
structure UpdateSucceeds (master : String) (fault : Option Fault) (w : World) (uuid : String)
    (new : SchemaKwargs) (order tenants : List String) (user : Option String) (s : Subscription) :
    Prop where
  fault : fault = none
  found : find w.database uuid tenants user = some s
  constraints : Constraints
    (liveAfter w.database (.updated (s.clearRelations.fromSchema new) order))
  handled : (w.handler.handle master
    (.updated (s.clearRelations.fromSchema new) order)).isOk

/-- An administrator's update that succeeds is made in the tenant of the subscription. -/
def SameTenant (mallow : AdminMallow) (text : Json → Option String) (master : String)
    (σ : RestApi) : RestAction → Prop
  | .admin access fault (.put uuid json order) =>
    ∀ kwargs tenantUuids s, adminUpdate mallow text access json = some (kwargs, tenantUuids) →
      UpdateSucceeds master fault σ.world uuid kwargs order tenantUuids none s →
      access.autodetect = .ok s.ownerTenantUuid
  | _ => True

section Service
variable {master : String} {fault : Option Fault} {w : World} {uuid : String}
  {new : SchemaKwargs} {order tenants : List String} {user : Option String}

theorem exec_update_succeeds {s : Subscription} (hw : Constraints w.database)
    (h : UpdateSucceeds master fault w uuid new order tenants user s) :
    ∃ w', exec (update master fault uuid new order tenants user) w =
        (.ok (s.clearRelations.fromSchema new), w') ∧
      w'.database = liveAfter w.database (.updated (s.clearRelations.fromSchema new) order) := by
  obtain rfl := h.fault
  have ha : (ServiceCall.update uuid new order tenants user).announced w.database =
      some (.updated (s.clearRelations.fromSchema new) order) := by
    rw [ServiceCall.announced, h.found]
    exact if_pos h.constraints
  have hearly : ¬ (ServiceCall.update uuid new order tenants user).EarlyFault none := by
    simp [ServiceCall.EarlyFault]
  obtain ⟨s', hs', hok⟩ := exec_update_announced master hw ha hearly
  cases hs'
  rw [hok, outcome]
  cases hh : w.handler.handle master (.updated (s.clearRelations.fromSchema new) order) with
  | error e =>
    have hhandled := h.handled
    rw [hh] at hhandled
    cases hhandled
  | ok handler => exact ⟨_, rfl, rfl⟩

theorem exec_update_fails (hw : Constraints w.database)
    (h : ∀ s, ¬ UpdateSucceeds master fault w uuid new order tenants user s) :
    ∃ e w', exec (update master fault uuid new order tenants user) w = (.error e, w') ∧
      w'.database = w.database := by
  by_cases hearly : (ServiceCall.update uuid new order tenants user).announced w.database = none ∨
      (ServiceCall.update uuid new order tenants user).EarlyFault fault
  · obtain ⟨e, he⟩ := exec_update_early master hearly
    exact ⟨e, w, he, rfl⟩
  · obtain ⟨hnone, hf⟩ := not_or.mp hearly
    obtain ⟨n, ha⟩ := Option.ne_none_iff_exists'.mp hnone
    obtain ⟨s', -, hok⟩ := exec_update_announced master hw ha hf
    obtain ⟨s, hs, rfl, hc⟩ := ServiceCall.announced_update ha
    rw [hok, outcome]
    cases hh : w.handler.handle master (.updated (s.clearRelations.fromSchema new) order) with
    | error e => exact ⟨_, _, rfl, rfl⟩
    | ok handler =>
      have hfault : fault = some .notifier ∨ fault = some .commit := by
        by_contra hnot
        have hnone : fault = none := by
          unfold ServiceCall.EarlyFault at hf
          cases fault with
          | none => rfl
          | some f => cases f <;> simp_all
        exact h s ⟨hnone, hs, hc, by rw [hh]; rfl⟩
      rcases hfault with rfl | rfl
      · exact ⟨_, _, rfl, rfl⟩
      · exact ⟨_, _, rfl, rfl⟩

end Service

theorem ofDict_ownerTenant {text : Json → Option String} {d : LoadedDict} {k : SchemaKwargs}
    (h : SchemaKwargs.ofDict text d = some k) :
    (d.lookup "owner_tenant_uuid").mapM Json.asString = some k.ownerTenantUuid := by
  unfold SchemaKwargs.ofDict at h
  -- The tenant is the last column that is read.
  iterate 12 obtain ⟨_, -, h⟩ := Option.bind_eq_some_iff.mp h
  obtain ⟨_, htenant, h⟩ := Option.bind_eq_some_iff.mp h
  cases h
  exact htenant

theorem ofDict_insert_ownerTenant {text : Json → Option String} {d : LoadedDict}
    {k : SchemaKwargs} {tenantUuid : String}
    (h : SchemaKwargs.ofDict text (d.insert "owner_tenant_uuid" (.str tenantUuid)) = some k) :
    k.ownerTenantUuid = some tenantUuid := by
  have htenant := ofDict_ownerTenant h
  rw [Finmap.lookup_insert] at htenant
  exact (Option.some.inj htenant).symm

theorem ofDict_owned_ownerTenant {text : Json → Option String} {d : LoadedDict}
    {k : SchemaKwargs} {token : AnyToken}
    (h : SchemaKwargs.ofDict text (token.owned d) = some k) :
    k.ownerTenantUuid = some token.tenantUuid := by
  have htenant := ofDict_ownerTenant h
  unfold AnyToken.owned at htenant
  rw [Finmap.lookup_insert_of_ne _ (by decide), Finmap.lookup_insert_of_ne _ (by decide),
    Finmap.lookup_insert_of_ne _ (by decide), Finmap.lookup_insert] at htenant
  exact (Option.some.inj htenant).symm

/-- The state after a request in which every subscription is in its tenant. -/
structure Kept (origin : String → Option String) (database : List Subscription) :
    Prop where
  constraints : Constraints database
  tenants : KeepsTenants origin database

/-- What a request made in a tenant comes to, when it moves nothing. -/
def KeptBy {ε : Type} (tenantUuid : Option String)
    (origin : String → Option String) (request : UserRequest)
    (result : Except ε Response × World) : Prop :=
  Kept (originAfter tenantUuid origin request result.1.isOk) result.2.database

section Effects
variable {master : String} {fault : Option Fault} {tenantUuid : Option String}
  {origin : String → Option String} {w : World} {ε : Type} (f : ServiceError → ε)

theorem keptBy_error {request : UserRequest} (h : Kept origin w.database) (e : ε)
    {w' : World} (hd : w'.database = w.database) :
    KeptBy tenantUuid origin request (.error e, w') := by
  have hsame : originAfter tenantUuid origin request false = origin := by cases request <;> rfl
  change Kept (originAfter tenantUuid origin request false) w'.database
  rw [hsame, hd]
  exact h

theorem keptBy_bind {α : Type} {request : UserRequest} {x : Failing World ε α}
    {k : α → Failing World ε Response} (hx : Reads x) (h : Kept origin w.database)
    (hk : ∀ a, exec x w = (.ok a, w) →
      KeptBy tenantUuid origin request (exec (k a) w)) :
    KeptBy tenantUuid origin request (exec (x >>= k) w) := by
  rcases hx.exec_bind_cases k w with ⟨e, he⟩ | ⟨a, ha, hok⟩
  · rw [he]
    exact keptBy_error h e rfl
  · rw [hok]
    exact hk a ha

theorem keptBy_reads {request : UserRequest} (hpost : ∀ uuid json, request ≠ .post uuid json)
    {x : Failing World ε Response} (hx : Reads x) (h : Kept origin w.database) :
    KeptBy tenantUuid origin request (exec x w) := by
  have hsame : ∀ ok, originAfter tenantUuid origin request ok = origin := by
    intro ok
    cases request with
    | post uuid json => exact absurd rfl (hpost uuid json)
    | _ => rfl
  unfold KeptBy
  rw [hx w, hsame]
  exact h

theorem keptBy_create (h : Kept origin w.database) (uuid : String) (json : Json)
    {k : SchemaKwargs} (hk : k.ownerTenantUuid = tenantUuid) :
    KeptBy tenantUuid origin (.post uuid json) (exec (do
      let s ← raising f (create master fault uuid k)
      pure (Response.item (dump s))) w) := by
  rcases exec_create_cases master fault w uuid k with ⟨e, w', he, hd⟩ | ⟨s, w', hok, ha, hd⟩
  · rw [exec_bind_of_error (exec_raising_of_error f he)]
    exact keptBy_error h _ hd
  · rw [exec_bind_of_ok (exec_raising_of_ok f hok)]
    obtain ⟨tenantUuid', ht, hs, hc⟩ := ServiceCall.announced_create ha
    cases hs
    have htenant : tenantUuid =
        some ((Subscription.blank uuid tenantUuid').fromSchema k).ownerTenantUuid := by
      simp [Subscription.fromSchema, ← hk, ht]
    rw [htenant]
    exact ⟨hd ▸ hc, hd ▸ h.tenants.created hc⟩

theorem update_kept (h : Kept origin w.database) {s s' : Subscription} {order : List String}
    (hs : s ∈ w.database) (huuid : s'.uuid = s.uuid)
    (htenant : s'.ownerTenantUuid = s.ownerTenantUuid)
    (hc : Constraints (liveAfter w.database (.updated s' order))) :
    Kept origin (liveAfter w.database (.updated s' order)) :=
  ⟨hc, (keepsTenants_updated h.tenants hs huuid order).mpr htenant⟩

theorem keptBy_update (h : Kept origin w.database) (uuid : String) (json : Json)
    (order tenants : List String) (user : Option String) {k : SchemaKwargs}
    (hk : k.ownerTenantUuid = none) :
    KeptBy tenantUuid origin (.put uuid json order) (exec (do
      let s ← raising f (update master fault uuid k order tenants user)
      pure (Response.item (dump s))) w) := by
  rcases exec_update_cases master fault h.constraints uuid k order tenants user with
    ⟨e, w', he, hd⟩ | ⟨s', w', hok, ha, hd⟩
  · rw [exec_bind_of_error (exec_raising_of_error f he)]
    exact keptBy_error h _ hd
  · rw [exec_bind_of_ok (exec_raising_of_ok f hok)]
    obtain ⟨s, hs, hs', hc⟩ := ServiceCall.announced_update ha
    obtain ⟨hmem, -, -⟩ := mem_of_find hs
    cases hs'
    have htenant : (s.clearRelations.fromSchema k).ownerTenantUuid = s.ownerTenantUuid := by
      simp [Subscription.fromSchema, Subscription.clearRelations, hk]
    have huuid : (s.clearRelations.fromSchema k).uuid = s.uuid := rfl
    change Kept origin w'.database
    rw [hd]
    exact update_kept h hmem huuid htenant hc

theorem keptBy_delete (h : Kept origin w.database) (uuid : String) (tenants : List String)
    (user : Option String) :
    KeptBy tenantUuid origin (.delete uuid) (exec (do
      raising f (SubscriptionService.delete master fault uuid tenants user)
      pure Response.noContent) w) := by
  rcases exec_delete_cases master fault w uuid tenants user with
    ⟨e, w', he, hd⟩ | ⟨s, w', hok, ha, hd⟩
  · rw [exec_bind_of_error (exec_raising_of_error f he)]
    exact keptBy_error h _ hd
  · rw [exec_bind_of_ok (exec_raising_of_ok f hok)]
    change Kept origin w'.database
    rw [hd]
    exact ⟨ServiceCall.constraints_announced h.constraints ha, h.tenants.deleted s⟩

end Effects

section Requests
variable {mallow : AdminMallow} (text : Json → Option String) {master : String}
  (fault : Option Fault) {origin : String → Option String} {w : World}

/-- No request under `/users/me` moves a subscription. -/
theorem keptBy_serveMe (hm : mallow.Documented) (token : AnyToken)
    (h : Kept origin w.database) (request : UserRequest) :
    KeptBy (some token.tenantUuid) origin request
      (exec (request.serveMe mallow.toMallow text master fault token) w) := by
  cases request with
  | list args =>
    have hreads : Reads (UserRequest.serveMe mallow.toMallow text master fault token
        (.list args)) :=
      (reads_raising _ (reads_ofExcept _)).bind fun _ =>
        (reads_raising _ (reads_list _ _ _ _ _)).bind fun _ => reads_pure _
    exact keptBy_reads (by simp) hreads h
  | get uuid =>
    have hreads : Reads (UserRequest.serveMe mallow.toMallow text master fault token
        (.get uuid)) :=
      (reads_raising _ (reads_get _ _ _ _)).bind fun _ => reads_pure _
    exact keptBy_reads (by simp) hreads h
  | delete uuid => exact keptBy_delete RestError.service h uuid [token.tenantUuid] token.userUuid
  | post uuid json =>
    simp only [UserRequest.serveMe]
    refine keptBy_bind (reads_raising _ (reads_ofExcept _)) h fun d hd => ?_
    refine keptBy_bind (reads_keywords _ _) h fun k hk => ?_
    have htenant := ofDict_owned_ownerTenant (ofDict_of_exec_keywords hk)
    exact keptBy_create RestError.service h uuid json htenant
  | put uuid json order =>
    simp only [UserRequest.serveMe]
    refine keptBy_bind (reads_raising _ (reads_ofExcept _)) h fun d hd => ?_
    refine keptBy_bind (reads_keywords _ _) h fun k hk => ?_
    have htenant : k.ownerTenantUuid = none := by
      have hlookup := ofDict_ownerTenant (ofDict_of_exec_keywords hk)
      rw [hm.lookup_excluded rfl (eq_ok_of_exec_raising hd) (notMem_names (by decide))] at hlookup
      exact (Option.some.inj hlookup).symm
    exact keptBy_update RestError.service h uuid json order [token.tenantUuid] token.userUuid
      htenant

section Admin
variable {access : Access} {json : Json}

theorem exec_adminBody_ok {d : LoadedDict} {tenantUuid : String}
    (hl : loadSubscription mallow json = .ok d) (ha : access.autodetect = .ok tenantUuid) :
    exec (adminBody mallow access json) w =
      (.ok (d.insert "owner_tenant_uuid" (.str tenantUuid)), w) := by
  unfold adminBody
  rw [hl, ha, exec_bind_of_ok (exec_raising_of_ok _ (exec_ofExcept _ w)),
    exec_bind_of_ok (exec_raising_of_ok _ (exec_ofExcept _ w))]
  rfl

theorem reads_adminBody (access : Access) (json : Json) :
    Reads (adminBody mallow access json) :=
  (reads_raising _ (reads_ofExcept _)).bind fun _ =>
    (reads_raising _ (reads_ofExcept _)).bind fun _ => reads_pure _

theorem exec_adminBody_error
    (h : ∀ d tenantUuid, loadSubscription mallow json = .ok d →
      access.autodetect ≠ .ok tenantUuid) :
    ∃ e, exec (adminBody mallow access json) w = (.error e, w) := by
  unfold adminBody
  cases hl : loadSubscription mallow json with
  | error e => exact ⟨_, exec_bind_of_error (exec_raising_of_error _ (exec_ofExcept _ w)) _⟩
  | ok d =>
    rw [exec_bind_of_ok (exec_raising_of_ok _ (exec_ofExcept _ w))]
    cases ha : access.autodetect with
    | error e => exact ⟨_, exec_bind_of_error (exec_raising_of_error _ (exec_ofExcept _ w)) _⟩
    | ok tenantUuid => exact absurd ha (h d tenantUuid hl)

theorem adminBody_of_exec {d : LoadedDict} {w' : World}
    (h : exec (adminBody mallow access json) w = (.ok d, w')) :
    ∃ loaded tenantUuid, loadSubscription mallow json = .ok loaded ∧
      access.autodetect = .ok tenantUuid ∧
      d = loaded.insert "owner_tenant_uuid" (.str tenantUuid) := by
  by_cases hbody : ∃ loaded tenantUuid, loadSubscription mallow json = .ok loaded ∧
      access.autodetect = .ok tenantUuid
  · obtain ⟨loaded, tenantUuid, hl, ha⟩ := hbody
    rw [exec_adminBody_ok hl ha] at h
    cases h
    exact ⟨loaded, tenantUuid, hl, ha, rfl⟩
  · obtain ⟨e, he⟩ := exec_adminBody_error fun d tenantUuid hl ha => hbody ⟨d, tenantUuid, hl, ha⟩
    rw [he] at h
    cases h

theorem keptBy_adminPost (h : Kept origin w.database) (uuid : String) (json : Json) :
    KeptBy access.autodetect.toOption origin (.post uuid json)
      (exec (SubscriptionsResource.post mallow text master fault access uuid json) w) := by
  unfold SubscriptionsResource.post
  refine keptBy_bind (reads_adminBody _ _) h fun d hd => ?_
  refine keptBy_bind (reads_raising _ (reads_keywords _ _)) h fun k hk => ?_
  obtain ⟨loaded, tenantUuid, -, ha, rfl⟩ := adminBody_of_exec hd
  refine keptBy_create (AdminError.rest ∘ RestError.service) h uuid json ?_
  rw [ofDict_insert_ownerTenant (ofDict_of_exec_keywords (exec_of_exec_raising hk)), ha]
  rfl

theorem exec_adminPut_some {uuid : String} {order tenantUuids : List String} {k : SchemaKwargs}
    (h : adminUpdate mallow text access json = some (k, tenantUuids)) :
    exec (SubscriptionResource.put mallow text master fault access uuid json order) w =
        exec (do
          let s ← raising (AdminError.rest ∘ RestError.service)
            (update master fault uuid k order tenantUuids none)
          pure (Response.item (dump s))) w ∧
      ∃ tenantUuid, access.autodetect = .ok tenantUuid ∧ k.ownerTenantUuid = some tenantUuid := by
  unfold adminUpdate at h
  simp only [Option.bind_eq_bind, Option.bind_eq_some_iff, Option.pure_def, Option.some.injEq,
    Prod.mk.injEq] at h
  obtain ⟨d, hd, tenantUuid, ht, tenantUuids', hv, k', hk, rfl, rfl⟩ := h
  have ha := eq_ok_of_toOption ht
  refine ⟨?_, tenantUuid, ha, ofDict_insert_ownerTenant hk⟩
  unfold SubscriptionResource.put
  rw [exec_bind_of_ok (exec_adminBody_ok (eq_ok_of_toOption hd) ha), eq_ok_of_toOption hv,
    exec_bind_of_ok (exec_raising_of_ok _ (exec_ofExcept _ w)),
    exec_bind_of_ok (exec_raising_of_ok _ (exec_keywords hk))]

theorem exec_adminPut_none {uuid : String} {order : List String}
    (h : adminUpdate mallow text access json = none) :
    ∃ e, exec (SubscriptionResource.put mallow text master fault access uuid json order) w =
      (.error e, w) := by
  unfold SubscriptionResource.put
  by_cases hbody : ∃ d tenantUuid, loadSubscription mallow json = .ok d ∧
      access.autodetect = .ok tenantUuid
  · obtain ⟨d, tenantUuid, hl, ha⟩ := hbody
    rw [exec_bind_of_ok (exec_adminBody_ok hl ha)]
    cases hv : access.visibleTenants true with
    | error e => exact ⟨_, exec_bind_of_error (exec_raising_of_error _ (exec_ofExcept _ w)) _⟩
    | ok tenantUuids =>
      rw [exec_bind_of_ok (exec_raising_of_ok _ (exec_ofExcept _ w))]
      have hk : SchemaKwargs.ofDict text (d.insert "owner_tenant_uuid" (.str tenantUuid)) =
          none := by
        by_contra hsome
        obtain ⟨k, hk⟩ := Option.ne_none_iff_exists'.mp hsome
        simp [adminUpdate, hl, ha, hv, hk, Except.toOption] at h
      exact ⟨_, exec_bind_of_error (exec_raising_of_error _ (exec_keywords_none hk)) _⟩
  · obtain ⟨e, he⟩ := exec_adminBody_error fun d tenantUuid hl ha => hbody ⟨d, tenantUuid, hl, ha⟩
    exact ⟨e, exec_bind_of_error he _⟩

/-- An administrator's `put` keeps the constraints, and the tenants when it is made in that of
the subscription it updates. -/
theorem adminPut_kept (h : Kept origin w.database) (uuid : String) (json : Json)
    (order : List String) :
    let database := (exec (SubscriptionResource.put mallow text master fault access uuid json
      order) w).2.database
    Constraints database ∧ (KeepsTenants origin database ↔
      ∀ kwargs tenantUuids s, adminUpdate mallow text access json = some (kwargs, tenantUuids) →
        UpdateSucceeds master fault w uuid kwargs order tenantUuids none s →
        access.autodetect = .ok s.ownerTenantUuid) := by
  intro database
  cases hu : adminUpdate mallow text access json with
  | none =>
    obtain ⟨e, he⟩ := exec_adminPut_none text fault hu
    have hd : database = w.database := by
      simp only [database]
      rw [he]
    rw [hd]
    exact ⟨h.constraints, iff_of_true h.tenants fun _ _ _ hnone => by cases hnone⟩
  | some p =>
    obtain ⟨k, tenantUuids⟩ := p
    obtain ⟨hput, tenantUuid, ha, hk⟩ := exec_adminPut_some text fault hu
    by_cases hs : ∃ s, UpdateSucceeds master fault w uuid k order tenantUuids none s
    · obtain ⟨s, hs⟩ := hs
      obtain ⟨w', hok, hw'⟩ := exec_update_succeeds h.constraints hs
      have hd : database =
          liveAfter w.database (.updated (s.clearRelations.fromSchema k) order) := by
        simp only [database]
        rw [hput, exec_bind_of_ok (exec_raising_of_ok _ hok)]
        exact hw'
      have htenant : (s.clearRelations.fromSchema k).ownerTenantUuid = tenantUuid := by
        simp [Subscription.fromSchema, hk]
      have huuid : (s.clearRelations.fromSchema k).uuid = s.uuid := rfl
      rw [hd]
      refine ⟨hs.constraints, ?_⟩
      rw [keepsTenants_updated h.tenants (mem_of_find hs.found).1 huuid order, htenant, ha]
      constructor
      · rintro rfl kwargs tenantUuids' s' heq hs'
        cases heq
        rw [Option.some.inj (hs.found.symm.trans hs'.found)]
      · intro hsame
        exact Except.ok.inj (hsame k tenantUuids s rfl hs)
    · obtain ⟨e, w', he, hw'⟩ := exec_update_fails h.constraints fun s hs' => hs ⟨s, hs'⟩
      have hd : database = w.database := by
        simp only [database]
        rw [hput, exec_bind_of_error (exec_raising_of_error _ he)]
        exact hw'
      rw [hd]
      refine ⟨h.constraints, iff_of_true h.tenants ?_⟩
      intro kwargs tenantUuids' s heq hs'
      cases heq
      exact absurd ⟨s, hs'⟩ hs

end Admin

theorem serveAdmin_kept (access : Access) (h : Kept origin w.database)
    (request : UserRequest) (hput : ∀ uuid json order, request ≠ .put uuid json order) :
    KeptBy access.autodetect.toOption origin request
      (exec (request.serveAdmin mallow text master fault access) w) := by
  cases request with
  | put uuid json order => exact absurd rfl (hput uuid json order)
  | post uuid json => exact keptBy_adminPost text fault h uuid json
  | list args =>
    have hreads : Reads (UserRequest.serveAdmin mallow text master fault access (.list args)) :=
      (reads_raising _ (reads_ofExcept _)).bind fun _ =>
        (reads_raising _ (reads_ofExcept _)).bind fun _ =>
          (reads_raising _ (reads_list _ _ _ _ _)).bind fun _ => reads_pure _
    exact keptBy_reads (by simp) hreads h
  | get uuid =>
    have hreads : Reads (UserRequest.serveAdmin mallow text master fault access (.get uuid)) :=
      (reads_raising _ (reads_ofExcept _)).bind fun _ =>
        (reads_raising _ (reads_get _ _ _ _)).bind fun _ => reads_pure _
    exact keptBy_reads (by simp) hreads h
  | delete uuid =>
    simp only [UserRequest.serveAdmin, SubscriptionResource.delete]
    refine keptBy_bind (reads_raising _ (reads_ofExcept _)) h fun tenantUuids _ => ?_
    exact keptBy_delete (AdminError.rest ∘ RestError.service) h uuid tenantUuids none

end Requests

def tenantsOf (database : List Subscription) (uuid : String) : Option String :=
  (database.find? fun s => s.uuid = uuid).map (·.ownerTenantUuid)

theorem keepsTenants_tenantsOf {database : List Subscription}
    (hc : Constraints database) : KeepsTenants (tenantsOf database) database := by
  intro s hs
  unfold tenantsOf
  have hfound : (database.find? fun t => t.uuid = s.uuid).isSome :=
    List.find?_isSome.mpr ⟨s, hs, decide_eq_true rfl⟩
  obtain ⟨t, ht⟩ := Option.isSome_iff_exists.mp hfound
  have huuid := List.find?_some ht
  simp only [decide_eq_true_eq] at huuid
  rw [ht, hc.uuid_inj (List.mem_of_find?_eq_some ht) hs huuid]
  rfl

namespace RestApi
variable {mallow : AdminMallow} (text : Json → Option String) (master : String)

def start (w : World) : RestApi := ⟨w, tenantsOf w.database⟩

theorem step_keepsTenants (hm : mallow.Documented) {σ : RestApi} (action : RestAction)
    (h : Kept σ.origin σ.world.database) :
    KeepsTenants (σ.step mallow text master action).origin
        (σ.step mallow text master action).world.database ↔
      SameTenant mallow text master σ action := by
  cases action with
  | me token fault request =>
    exact iff_of_true (keptBy_serveMe text fault hm token h request).tenants trivial
  | admin access fault request =>
    cases request with
    | put uuid json order => exact (adminPut_kept text fault h uuid json order).2
    | _ => exact iff_of_true (serveAdmin_kept text fault access h _ (by simp)).tenants trivial

theorem step_constraints (hm : mallow.Documented) {σ : RestApi} (action : RestAction)
    (h : Constraints σ.world.database) :
    Constraints (σ.step mallow text master action).world.database := by
  have hkept : Kept (tenantsOf σ.world.database) σ.world.database :=
    ⟨h, keepsTenants_tenantsOf h⟩
  cases action with
  | me token fault request => exact (keptBy_serveMe text fault hm token hkept request).constraints
  | admin access fault request =>
    cases request with
    | put uuid json order => exact (adminPut_kept text fault hkept uuid json order).1
    | _ => exact (serveAdmin_kept text fault access hkept _ (by simp)).constraints

end RestApi

/-- The rows stay in their tenants in the runs in which every update of an administrator is made in
the tenant of its subscription. -/
theorem always_keepsTenants_iff {mallow : AdminMallow} (hm : mallow.Documented)
    (text : Json → Option String) (master : String) {w : World} (hw : Constraints w.database)
    (actions : List RestAction) :
    Run.Always (RestApi.step mallow text master)
        (fun σ => KeepsTenants σ.origin σ.world.database) (RestApi.start w) actions ↔
      Run.Along (RestApi.step mallow text master) (SameTenant mallow text master)
        (RestApi.start w) actions :=
  Run.always_iff_along (J := fun σ => Constraints σ.world.database) (W := fun _ _ => True)
    (fun _ action hσ _ => RestApi.step_constraints text master hm action hσ)
    (fun _ action hσ hk _ => RestApi.step_keepsTenants text master hm action ⟨hσ, hk⟩) hw
    (keepsTenants_tenantsOf hw)
    (Run.along_of_invariant (J := fun _ => True) (fun _ _ _ => trivial) (fun _ _ _ => trivial)
      trivial actions)

end WazoWebhookd
